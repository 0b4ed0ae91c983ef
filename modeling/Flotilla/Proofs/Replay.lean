import Flotilla.Proofs.Invariants
import Mathlib.Data.List.Sort

/-!
# A manager as its events tell of it

`Replay` is what an observer who got every event of a manager knows of it: the phase, how many
bots are queued, the ids launched so far and the ids of the registered bots. `Replay.Next` says
which events may come next and what they change. Every step of a manager publishes events that
may come next, and what they change is what becomes of the manager (`Step.replayed`), so the
events published so far determine the state (`Fleet.history_determines_state`).

This holds also where a bot panics when it is asked its name: the launches that such a bot
leaves unregistered come to their end before their manager does (`View.Enrolled`).
-/

namespace Flotilla

/-! ## What events tell -/

namespace Event

/-- The phase that an event tells of. -/
def toldPhase? (e : Event) : Option Phase := if e.kind = .stateChanged then e.phase else none

/-- The id of the bot that an event says was launched. -/
def launchedId? (e : Event) : Option Nat := if e.kind = .botLaunched then e.bot else none

/-- The id of the bot that an event says was removed. -/
def removedId? (e : Event) : Option Nat := if e.kind = .botRemoved then e.bot else none

end Event

/-- The phases that events tell of, in order. -/
def toldPhases (es : List Event) : List Phase := es.filterMap Event.toldPhase?

def launchedIds (es : List Event) : List Nat := es.filterMap Event.launchedId?

def removedIds (es : List Event) : List Nat := es.filterMap Event.removedId?

/-- The ids of the bots that were launched and not removed. -/
def standingIds (es : List Event) : List Nat :=
  (launchedIds es).filter fun id => id ∉ removedIds es

/-- How many bots were queued. -/
def countQueued (es : List Event) : Nat := es.countP fun e => e.kind = .botQueued

/-- What is known of a manager from its events. -/
structure Replay where
  phase : Phase := .new
  /-- How many bots are in the start queue. -/
  queued : Nat := 0
  /-- The ids launched so far. -/
  launched : List Nat := []
  /-- The ids of the registered bots. -/
  ids : List Nat := []

/-- What may be published next, and what is known then. -/
inductive Replay.Next (r : Replay) : Event → Replay → Prop
  | aside {e : Event} (is : e.IsAside) : Next r e r
  | waiting (held : r.ids ≠ []) (goesOn : r.phase ≠ .terminated) :
    Next r (.waitingForBots r.ids.length) r
  | queued {name : String} (isNew : r.phase = .new) :
    Next r (.botQueued name) { r with queued := r.queued + 1 }
  | begun (isNew : r.phase = .new) :
    Next r (.stateChanged .starting) { r with phase := .starting, queued := 0 }
  | runs (isStarting : r.phase = .starting) :
    Next r (.stateChanged .running) { r with phase := .running }
  | stops (isRunning : r.phase = .running) :
    Next r (.stateChanged .stopping) { r with phase := .stopping }
  | ends (isStopping : r.phase = .stopping) :
    Next r (.stateChanged .terminated) { r with phase := .terminated }
  | launched {id : Nat} {name : String}
    (launching : r.phase = .starting ∨ r.phase = .running) (fresh : ∀ j ∈ r.launched, j < id) :
    Next r (.botLaunched id name)
      { r with launched := r.launched ++ [id], ids := r.ids ++ [id] }
  | quit {id : Nat} {name : String} (goesOn : r.phase ≠ .terminated) :
    Next r (.quitRequested id name) r
  | outcome {id : Nat} {name : String} {outcome : RunOutcome} (goesOn : r.phase ≠ .terminated) :
    Next r (Fleet.outcomeEvent id name outcome) r
  | removed {id : Nat} {name : String} (registered : id ∈ r.ids)
    (goesOn : r.phase ≠ .terminated) :
    Next r (.botRemoved id name) { r with ids := r.ids.filter (· ≠ id) }

/-- What is known from events that came one after another. -/
inductive Replay.Told : List Event → Replay → Prop
  | nil : Told [] {}
  | snoc {es : List Event} {r r' : Replay} {e : Event} (told : Told es r) (next : r.Next e r') :
    Told (es ++ [e]) r'

/-! ## One more event -/

variable {es : List Event} {e : Event}

theorem toldPhases_snoc (es : List Event) (e : Event) :
    toldPhases (es ++ [e]) = toldPhases es ++ e.toldPhase?.toList := by
  rw [toldPhases, List.filterMap_append]
  cases told : e.toldPhase? <;> simp [told, toldPhases]

theorem launchedIds_snoc (es : List Event) (e : Event) :
    launchedIds (es ++ [e]) = launchedIds es ++ e.launchedId?.toList := by
  rw [launchedIds, List.filterMap_append]
  cases told : e.launchedId? <;> simp [told, launchedIds]

theorem removedIds_snoc (es : List Event) (e : Event) :
    removedIds (es ++ [e]) = removedIds es ++ e.removedId?.toList := by
  rw [removedIds, List.filterMap_append]
  cases told : e.removedId? <;> simp [told, removedIds]

theorem countQueued_snoc (es : List Event) (e : Event) :
    countQueued (es ++ [e]) = countQueued es + if e.kind = .botQueued then 1 else 0 := by
  rw [countQueued, List.countP_append, List.countP_singleton, ← countQueued]
  simp only [decide_eq_true_eq]

theorem standingIds_launched {id : Nat} (fresh : id ∉ removedIds es)
    (launched : launchedIds (es ++ [e]) = launchedIds es ++ [id])
    (removed : removedIds (es ++ [e]) = removedIds es) :
    standingIds (es ++ [e]) = standingIds es ++ [id] := by
  unfold standingIds
  rw [launched, removed, List.filter_append, List.filter_cons_of_pos (by simpa using fresh),
    List.filter_nil]

theorem standingIds_removed {id : Nat}
    (launched : launchedIds (es ++ [e]) = launchedIds es)
    (removed : removedIds (es ++ [e]) = removedIds es ++ [id]) :
    standingIds (es ++ [e]) = (standingIds es).filter (· ≠ id) := by
  unfold standingIds
  rw [launched, removed, List.filter_filter]
  refine List.filter_congr fun j _ => ?_
  simp [and_comm]

/-- An event that is about nothing of this changes nothing of it. -/
structure Event.IsSilent (e : Event) : Prop where
  phase : e.toldPhase? = none
  launched : e.launchedId? = none
  removed : e.removedId? = none
  queued : e.kind ≠ .botQueued

theorem Event.IsSilent.of_kind (stateChanged : e.kind ≠ .stateChanged)
    (launched : e.kind ≠ .botLaunched) (removed : e.kind ≠ .botRemoved)
    (queued : e.kind ≠ .botQueued) : e.IsSilent :=
  ⟨if_neg stateChanged, if_neg launched, if_neg removed, queued⟩

theorem Event.IsAside.isSilent (is : e.IsAside) : e.IsSilent :=
  .of_kind (is.kind_ne rfl nofun) (is.kind_ne rfl nofun) (is.kind_ne rfl nofun)
    (is.kind_ne rfl nofun)

theorem isSilent_outcomeEvent (id : Nat) (name : String) (outcome : RunOutcome) :
    (Fleet.outcomeEvent id name outcome).IsSilent := by
  cases outcome <;> exact .of_kind nofun nofun nofun nofun

/-! ## What is known is what was told -/

namespace Replay

variable {r r' : Replay}

theorem Told.split {pre post : List Event} (told : Told es r) (eq : es = pre ++ e :: post) :
    ∃ r₀ r₁, Told pre r₀ ∧ r₀.Next e r₁ := by
  induction told generalizing post with
  | nil => simp at eq
  | @snoc es r r' e' told next ih =>
      rcases List.eq_nil_or_concat post with rfl | ⟨post, last, rfl⟩
      · obtain ⟨rfl, same⟩ := List.append_inj' eq rfl
        cases same
        exact ⟨r, r', told, next⟩
      · rw [List.concat_eq_append, ← List.cons_append, ← List.append_assoc] at eq
        exact ih (List.append_inj' eq rfl).1

/-- The phases told of are those passed through. -/
theorem Told.phases (told : Told es r) : toldPhases es = Phase.all.tail.take r.phase.rank := by
  induction told with
  | nil => rfl
  | @snoc es r r' e told next ih =>
      have silent (phase : e.toldPhase? = none) :
          toldPhases (es ++ [e]) = Phase.all.tail.take r.phase.rank := by
        rw [toldPhases_snoc, phase, ih]
        exact List.append_nil _
      cases next with
      | aside is => exact silent is.isSilent.phase
      | outcome => exact silent (isSilent_outcomeEvent _ _ _).phase
      | begun phase | runs phase | stops phase | ends phase =>
          rw [toldPhases_snoc, ih, phase]
          rfl
      | waiting | queued | launched | quit | removed => exact silent rfl

theorem Told.phase_eq_new_iff (told : Told es r) :
    r.phase = .new ↔ .starting ∉ toldPhases es := by
  rw [told.phases]
  cases r.phase <;> decide

theorem Told.queued (told : Told es r) :
    r.queued = if r.phase = .new then countQueued es else 0 := by
  induction told with
  | nil => rfl
  | @snoc es r r' e told next ih =>
      have silent (kind : e.kind ≠ .botQueued) :
          r.queued = if r.phase = .new then countQueued (es ++ [e]) else 0 := by
        rw [countQueued_snoc, if_neg kind, ih, Nat.add_zero]
      cases next with
      | aside is => exact silent is.isSilent.queued
      | outcome => exact silent (isSilent_outcomeEvent _ _ _).queued
      | queued isNew =>
          rw [if_pos isNew] at ih
          rw [if_pos isNew, countQueued_snoc, ← ih]
          rfl
      | begun => rfl
      | runs phase | stops phase | ends phase =>
          rw [phase] at ih
          exact ih
      | waiting | launched | quit | removed => exact silent nofun

theorem Told.launched (told : Told es r) : launchedIds es = r.launched := by
  induction told with
  | nil => rfl
  | @snoc es r r' e told next ih =>
      rw [launchedIds_snoc, ih]
      cases next with
      | aside is => rw [is.isSilent.launched]; exact List.append_nil _
      | outcome => rw [(isSilent_outcomeEvent _ _ _).launched]; exact List.append_nil _
      | launched => rfl
      | waiting | queued | begun | runs | stops | ends | quit | removed =>
          exact List.append_nil _

theorem Told.ascending (told : Told es r) : r.launched.Pairwise (· < ·) := by
  induction told with
  | nil => exact .nil
  | snoc told next ih =>
      cases next with
      | launched launching fresh =>
          refine List.pairwise_append.mpr ⟨ih, List.pairwise_singleton _ _, fun i mem j mem' => ?_⟩
          rw [List.mem_singleton.mp mem']
          exact fresh i mem
      | _ => exact ih

theorem Told.registered (told : Told es r) : ∀ id ∈ r.ids, id ∈ r.launched := by
  induction told with
  | nil => exact fun _ => id
  | snoc told next ih =>
      cases next with
      | launched launching fresh =>
          intro id mem
          rcases List.mem_append.mp mem with mem | mem
          · exact List.mem_append_left _ (ih id mem)
          · exact List.mem_append_right _ mem
      | removed => exact fun id mem => ih id (List.mem_filter.mp mem).1
      | _ => exact ih

theorem Told.removed (told : Told es r) : ∀ id ∈ removedIds es, id ∈ r.launched := by
  induction told with
  | nil => exact nofun
  | @snoc es r r' e told next ih =>
      have silent (removed : e.removedId? = none) :
          ∀ id ∈ removedIds (es ++ [e]), id ∈ r.launched := by
        rw [removedIds_snoc, removed]
        exact fun id mem => ih id (by simpa using mem)
      cases next with
      | aside is => exact silent is.isSilent.removed
      | outcome => exact silent (isSilent_outcomeEvent _ _ _).removed
      | launched =>
          exact fun id mem => List.mem_append_left _ (silent rfl id mem)
      | removed registered =>
          intro id mem
          rw [removedIds_snoc] at mem
          rcases List.mem_append.mp mem with mem | mem
          · exact ih id mem
          · rw [List.mem_singleton.mp mem]
            exact told.registered _ registered
      | waiting | queued | begun | runs | stops | ends | quit => exact silent rfl

/-- The registered bots are those that were launched and not removed. -/
theorem Told.ids (told : Told es r) : r.ids = standingIds es := by
  induction told with
  | nil => rfl
  | @snoc es r r' e told next ih =>
      have silent (launched : e.launchedId? = none) (removed : e.removedId? = none) :
          r.ids = standingIds (es ++ [e]) := by
        unfold standingIds
        rw [launchedIds_snoc, removedIds_snoc, launched, removed, Option.toList_none,
          List.append_nil, List.append_nil, ih]
        rfl
      cases next with
      | aside is => exact silent is.isSilent.launched is.isSilent.removed
      | outcome =>
          have is := isSilent_outcomeEvent
          exact silent (is _ _ _).launched (is _ _ _).removed
      | launched launching fresh =>
          have unknown := mt (told.removed _) fun mem => Nat.lt_irrefl _ (fresh _ mem)
          rw [standingIds_launched unknown (launchedIds_snoc _ _)
            ((removedIds_snoc _ _).trans (List.append_nil _)), ih]
      | removed =>
          rw [standingIds_removed ((launchedIds_snoc _ _).trans (List.append_nil _))
            (removedIds_snoc _ _), ih]
      | waiting | queued | begun | runs | stops | ends | quit => exact silent rfl rfl

end Replay

/-! ## The registered bots by the roster -/

namespace Manager

theorem ids_ascending (mgr : Manager) : mgr.ids.Pairwise (· < ·) := by
  unfold ids handles
  rw [List.map_map]
  exact Manager.pairwise_registry mgr

theorem mem_ids_iff {mgr : Manager} {id : Nat} :
    id ∈ mgr.ids ↔ ∃ b, mgr.roster[id]? = some (b, true) := by
  rw [mem_ids]
  unfold roster
  constructor
  · intro mem
    rcases mem with ⟨l, found, registered⟩
    refine ⟨l.bot, ?_⟩
    rw [List.getElem?_map, found, Option.map_some, registered]
  · intro mem
    rcases mem with ⟨b, entry⟩
    rw [List.getElem?_map] at entry
    obtain ⟨l, found, eq⟩ := Option.map_eq_some_iff.mp entry
    exact ⟨l, found, congrArg Prod.snd eq⟩

/-- Ids in ascending order are told apart by which they are. -/
theorem ids_eq {mgr : Manager} {ids : List Nat} (ascending : ids.Pairwise (· < ·))
    (same : ∀ id, id ∈ ids ↔ ∃ b, mgr.roster[id]? = some (b, true)) : mgr.ids = ids :=
  mgr.ids_ascending.eq_of_mem_iff ascending fun id => mem_ids_iff.trans (same id).symm

variable {mgr mgr' : Manager}

theorem ids_of_roster (roster : mgr'.roster = mgr.roster) : mgr'.ids = mgr.ids :=
  ids_eq mgr.ids_ascending fun id => by rw [mem_ids_iff, roster]

theorem lt_of_mem_ids {id : Nat} (mem : id ∈ mgr.ids) : id < mgr.launches.length := by
  obtain ⟨b, entry⟩ := mem_ids_iff.mp mem
  rw [← length_roster]
  exact (List.getElem?_eq_some_iff.mp entry).1

theorem ids_of_append {b : Nat} (roster : mgr'.roster = mgr.roster ++ [(b, true)]) :
    mgr'.ids = mgr.ids ++ [mgr.launches.length] := by
  refine ids_eq ?_ fun id => ?_
  · refine List.pairwise_append.mpr ⟨mgr.ids_ascending, List.pairwise_singleton _ _,
      fun i mem j mem' => ?_⟩
    rw [List.mem_singleton.mp mem']
    exact lt_of_mem_ids mem
  · rw [List.mem_append, mem_ids_iff, roster, List.mem_singleton, ← length_roster,
      List.getElem?_append]
    split
    · rename_i inside
      exact or_iff_left (Nat.ne_of_lt inside)
    · rename_i beyond
      rw [List.getElem?_eq_none (Nat.le_of_not_lt beyond), List.getElem?_singleton]
      constructor
      · rintro (⟨b, entry⟩ | rfl)
        · cases entry
        · exact ⟨b, by simp⟩
      · rintro ⟨b, entry⟩
        split at entry
        · exact Or.inr (by omega)
        · cases entry

theorem ids_of_lost {b : Nat} (roster : mgr'.roster = mgr.roster ++ [(b, false)]) :
    mgr'.ids = mgr.ids := by
  refine ids_eq mgr.ids_ascending fun id => ?_
  rw [mem_ids_iff, roster, List.getElem?_append]
  split
  · exact Iff.rfl
  · rename_i beyond
    rw [List.getElem?_eq_none (Nat.le_of_not_lt beyond), List.getElem?_singleton]
    split <;> simp

theorem ids_of_set {id b : Nat} (inside : id < mgr.launches.length)
    (roster : mgr'.roster = mgr.roster.set id (b, false)) :
    mgr'.ids = mgr.ids.filter (· ≠ id) := by
  refine ids_eq (mgr.ids_ascending.filter _) fun j => ?_
  rw [List.mem_filter, mem_ids_iff, roster, List.getElem?_set, length_roster, if_pos inside]
  by_cases same : id = j
  · subst same
    simp
  · simp [same, Ne.symm same]

end Manager

/-! ## Who is registered -/

variable {L : Licence} {m : Nat} {v v' : View} {r : Replay}

/-- But for a manager that starts, every launch is registered until its task is over. -/
def View.Enrolled (v : View) : Prop :=
  v.mgr.phase = .starting ∨
    ∀ id l, v.launch? id = some l → l.stage.isOver = false → l.registered = true

theorem Change.enrolled {id : Nat} {l l' : Launch} (h : Change L m v id l l')
    (queueing : v.Queueing) (found : v.launch? id = some l)
    (was : l.stage.isOver = false → l.registered = true) (goesOn : l'.stage.isOver = false) :
    l'.registered = true := by
  cases h with
  | same => exact was goesOn
  | permit waits => exact was (by rw [waits]; rfl)
  | lineUp acts turn first => exact was (by rw [first]; rfl)
  | offer acts first => exact was (by rw [queueing.of_offeree first found]; rfl)
  | enter acts licensed turn can => exact can.registered
  | proceed acts turn inRun goal => exact was (Stage.isOver_of_isInRun inRun)
  | leave acts turn mute why => cases goesOn

/-- A manager that starts goes on starting until all its bots have given their names. -/
theorem Telling.starting {es : List Event} (h : Telling L m v v' es)
    (isStarting : v.mgr.phase = .starting) : v'.mgr.phase = .starting ∨
      v'.mgr.roster = v.mgr.roster ∧ ∀ id l, v.launch? id = some l → l.registered = true := by
  cases h with
  | still upshot | aside _ upshot | waiting _ upshot | launched _ _ upshot | lost _ _ _ upshot
  | strayed _ _ _ upshot => exact Or.inl (upshot.phase.trans isStarting)
  | queued licensed isNew | begun licensed isNew => cases isStarting.symm.trans isNew
  | runs licensed _ named upshot => exact Or.inr ⟨upshot.roster, named⟩
  | stops licensed isRunning => cases isStarting.symm.trans isRunning
  | left found registered why ends eq upshot =>
      refine Or.inl (upshot.phase.trans ?_)
      rw [isStarting]
      rfl

theorem Step.enrolled (h : Step L m v v') (queueing : v.Queueing) (enrolled : v.Enrolled) :
    v'.Enrolled := by
  obtain ⟨es, telling⟩ := h.telling
  by_cases isStarting : v.mgr.phase = .starting
  · refine (telling.starting isStarting).imp_right fun all id l' found' _ => ?_
    obtain ⟨roster, named⟩ := all
    have entry := View.getElem?_roster v' id
    rw [roster, View.getElem?_roster, found', Option.map_some] at entry
    obtain ⟨l, found, eq⟩ := Option.map_eq_some_iff.mp entry
    exact (congrArg Prod.snd eq).symm.trans (named id l found)
  · by_cases goesOn : v'.mgr.phase = .starting
    · exact Or.inl goesOn
    · have was := enrolled.resolve_left isStarting
      refine Or.inr fun id l' found' live => ?_
      rcases h.origin found' with ⟨l, found, change⟩ | ⟨-, fresh⟩
      · exact change.enrolled queueing found (was id l found) live
      · cases fresh with
        | @launched b named launching isOpen mute =>
            cases named with
            | true => rfl
            | false => exact absurd (mute rfl).2 isStarting
        | late launching isClosed => cases live

/-! ## What is published may be published next -/

/-- What is known of a manager is what it is like. -/
structure View.Matches (v : View) (r : Replay) : Prop where
  phase : v.mgr.phase = r.phase
  queued : v.mgr.queue.length = r.queued
  ids : v.mgr.ids = r.ids
  known : ∀ id ∈ r.launched, id < v.mgr.launches.length

namespace Replay

/-- Requests to quit change nothing of what is known. -/
theorem Told.quits {es : List Event} (told : Told es r) (goesOn : r.phase ≠ .terminated)
    (asked : List Nat) (name : Nat → String) :
    Told (es ++ asked.map fun id => .quitRequested id (name id)) r := by
  induction asked generalizing es with
  | nil =>
      rw [List.map_nil, List.append_nil]
      exact told
  | cons id asked ih =>
      rw [List.map_cons, List.append_cons]
      exact ih (told.snoc (.quit goesOn))

/-- The last event of a manager that stops, if it has nobody left. -/
theorem Told.ifDone {es : List Event} (told : Told es r) (registry : List (Nat × Launch)) :
    Told (es ++ (r.phase.ifDone registry).2) { r with phase := (r.phase.ifDone registry).1 } := by
  unfold Phase.ifDone
  split
  · rename_i done
    exact told.snoc (.ends done.1)
  · rw [List.append_nil]
    exact told

end Replay

/-- The ids that were told stay known when the roster grows. -/
theorem View.Matches.known_of_roster {more : List (Nat × Bool)} (same : v.Matches r)
    (roster : v'.mgr.roster = v.mgr.roster ++ more) :
    ∀ id ∈ r.launched, id < v'.mgr.launches.length := by
  intro id mem
  have inside := same.known id mem
  have longer := congrArg List.length roster
  rw [List.length_append, Manager.length_roster, Manager.length_roster] at longer
  omega

theorem View.Matches.of_roster (same : v.Matches r) (roster : v'.mgr.roster = v.mgr.roster) :
    v'.mgr.ids = r.ids ∧ ∀ id ∈ r.launched, id < v'.mgr.launches.length := by
  have nothingMore : v'.mgr.roster = v.mgr.roster ++ [] := by rw [roster, List.append_nil]
  exact ⟨(Manager.ids_of_roster roster).trans same.ids, same.known_of_roster nothingMore⟩

/-- What a step publishes may come next, and tells what becomes of the manager. -/
theorem Telling.replayed {es past : List Event} (h : Telling L m v v' es) (orderly : v.Orderly)
    (enrolled : v.Enrolled) (told : Replay.Told past r) (same : v.Matches r) :
    ∃ r', Replay.Told (past ++ es) r' ∧ v'.Matches r' := by
  have length : v.mgr.registry.length = r.ids.length := by
    rw [← same.ids, Manager.length_ids]
  have isOver (ended : r.phase = .terminated) : v.mgr.registry = [] :=
    orderly.empty (same.phase.trans ended)
  cases h with
  | still upshot =>
      obtain ⟨ids, known⟩ := same.of_roster upshot.roster
      rw [List.append_nil]
      exact ⟨r, told, upshot.phase.trans same.phase, by rw [upshot.queue, same.queued], ids, known⟩
  | aside is upshot =>
      obtain ⟨ids, known⟩ := same.of_roster upshot.roster
      exact ⟨r, told.snoc (.aside is), upshot.phase.trans same.phase,
        by rw [upshot.queue, same.queued], ids, known⟩
  | waiting held upshot =>
      obtain ⟨ids, known⟩ := same.of_roster upshot.roster
      rw [length]
      refine ⟨r, told.snoc (.waiting ?_ fun ended => held (isOver ended)),
        upshot.phase.trans same.phase, by rw [upshot.queue, same.queued], ids, known⟩
      rw [← same.ids, Ne, Manager.ids_eq_nil_iff]
      exact held
  | queued licensed isNew upshot =>
      obtain ⟨ids, known⟩ := same.of_roster upshot.roster
      have first := same.phase.symm.trans isNew
      refine ⟨_, told.snoc (.queued first), upshot.phase.trans first.symm, ?_, ids, known⟩
      rw [upshot.queue, List.length_append, same.queued]
      rfl
  | begun licensed isNew upshot =>
      obtain ⟨ids, known⟩ := same.of_roster upshot.roster
      exact ⟨_, told.snoc (.begun (same.phase.symm.trans isNew)), upshot.phase,
        by rw [upshot.queue]; rfl, ids, known⟩
  | launched licensed launching upshot =>
      refine ⟨_, told.snoc (.launched (same.phase ▸ launching) same.known),
        upshot.phase.trans same.phase, by rw [upshot.queue, same.queued], ?_, fun id mem => ?_⟩
      · rw [Manager.ids_of_append upshot.roster, same.ids]
      · rcases List.mem_append.mp mem with mem | mem
        · exact same.known_of_roster upshot.roster id mem
        · rw [List.mem_singleton.mp mem, ← Manager.length_roster, ← Manager.length_roster,
            upshot.roster, List.length_append, List.length_singleton]
          omega
  | lost licensed launching why upshot =>
      rw [List.append_nil]
      exact ⟨r, told, upshot.phase.trans same.phase, by rw [upshot.queue, same.queued],
        (Manager.ids_of_lost upshot.roster).trans same.ids, same.known_of_roster upshot.roster⟩
  | runs licensed isStarting named upshot =>
      obtain ⟨ids, known⟩ := same.of_roster upshot.roster
      exact ⟨_, told.snoc (.runs (same.phase.symm.trans isStarting)), upshot.phase,
        by rw [upshot.queue, same.queued], ids, known⟩
  | @stops asked licensed isRunning sorted registered upshot =>
      obtain ⟨ids, known⟩ := same.of_roster upshot.roster
      have stopping := told.snoc (.stops (same.phase.symm.trans isRunning))
      have ended := (stopping.quits nofun asked v.launchName).ifDone v.mgr.registry
      rw [← List.append_assoc, List.append_cons]
      exact ⟨_, ended, upshot.phase, by rw [upshot.queue, same.queued], ids, known⟩
  | @left id l ran outcome found registered why ends eq upshot =>
      have mem : id ∈ r.ids := by
        rw [← same.ids]
        exact Manager.mem_ids.mpr ⟨l, found, registered⟩
      have goesOn : r.phase ≠ .terminated := by
        intro ended
        have none := Manager.ids_eq_nil_iff.mpr (isOver ended)
        rw [same.ids] at none
        rw [none] at mem
        cases mem
      have outcome : r.Next (Fleet.outcomeEvent id (v.nameOf l.bot) outcome) r := .outcome goesOn
      have removed : r.Next (.botRemoved id (v.nameOf l.bot)) _ := .removed mem goesOn
      have gone := ((told.snoc outcome).snoc removed).ifDone v'.mgr.registry
      rw [List.append_cons, List.append_cons, same.phase]
      refine ⟨_, gone, ?_, by rw [upshot.queue, same.queued], ?_, fun id' mem' => ?_⟩
      · rw [upshot.phase, same.phase]
      · rw [Manager.ids_of_set (View.lt_of_launch? found) upshot.roster, same.ids]
      · rw [← Manager.length_roster, upshot.roster, List.length_set, Manager.length_roster]
        exact same.known id' mem'
  | @strayed id l ran outcome found stray why upshot =>
      obtain ⟨ids, known⟩ := same.of_roster upshot.roster
      have isStarting : v.mgr.phase = .starting := by
        refine enrolled.resolve_right fun all => ?_
        have registered := all id l found why.not_over
        rw [stray] at registered
        cases registered
      have goesOn : r.phase ≠ .terminated := by
        rw [← same.phase, isStarting]
        nofun
      exact ⟨_, told.snoc (.outcome goesOn), upshot.phase.trans same.phase,
        by rw [upshot.queue, same.queued], ids, known⟩

/-- The events published so far tell what a manager is like. -/
def View.Replayed (v : View) : Prop := ∃ r, Replay.Told v.mgr.history r ∧ v.Matches r

theorem Step.replayed (h : Step L m v v') (orderly : v.Orderly) (enrolled : v.Enrolled)
    (replayed : v.Replayed) : v'.Replayed := by
  obtain ⟨r, told, same⟩ := replayed
  obtain ⟨es, telling⟩ := h.telling
  unfold View.Replayed
  rw [telling.history]
  exact telling.replayed orderly enrolled told same

/-! ## What is said where -/

namespace Replay

theorem Next.of_waiting (next : r.Next e r') (kind : e.kind = .waitingForBots) :
    e.outstanding = some r.ids.length ∧ r.ids ≠ [] := by
  cases next with
  | aside is => exact absurd kind (is.kind_ne rfl nofun)
  | waiting held goesOn => exact ⟨rfl, held⟩
  | @outcome id name outcome => cases outcome <;> cases kind
  | _ => cases kind

theorem Next.of_queued (next : r.Next e r') (kind : e.kind = .botQueued) : r.phase = .new := by
  cases next with
  | aside is => exact absurd kind is.isSilent.queued
  | queued isNew => exact isNew
  | outcome => exact absurd kind (isSilent_outcomeEvent _ _ _).queued
  | _ => cases kind

theorem Next.of_launched (next : r.Next e r') (kind : e.kind = .botLaunched) :
    r.phase = .starting ∨ r.phase = .running := by
  cases next with
  | aside is => exact absurd kind (is.kind_ne rfl nofun)
  | launched launching => exact launching
  | @outcome id name outcome => cases outcome <;> cases kind
  | _ => cases kind

/-- Once a manager is done nothing more is said of it or of its bots. -/
theorem Next.of_terminated (next : r.Next e r') (isOver : r.phase = .terminated) :
    e.kind.isDiagnostic = true ∨ e.kind = .shutdownRequested := by
  cases next with
  | aside is => exact is.kind
  | waiting _ goesOn | quit goesOn | outcome goesOn | removed _ goesOn => exact absurd isOver goesOn
  | queued phase | begun phase | runs phase | stops phase | ends phase =>
      cases isOver.symm.trans phase
  | launched launching =>
      rw [isOver] at launching
      simp at launching

end Replay

/-- The events tell what the manager is like: its phase, how many bots are queued, and which
are registered. -/
structure Manager.IsToldBy (mgr : Manager) (es : List Event) : Prop where
  passed : toldPhases es <+: [.starting, .running, .stopping, .terminated]
  phase : mgr.phase = (toldPhases es).getLast?.getD .new
  queued : mgr.queue.length = if .starting ∈ toldPhases es then 0 else countQueued es
  once : (launchedIds es).Pairwise (· < ·)
  ascending : mgr.ids.Pairwise (· < ·)
  ids : mgr.ids = standingIds es

/-- Each event comes where it may: a report on waiting counts the bots that stand at its place,
and nothing is queued after the start, launched after the stop, or said after the end. -/
structure InPlace (es : List Event) : Prop where
  waiting : ∀ pre e post, es = pre ++ e :: post → e.kind = .waitingForBots →
    e.outstanding = some (standingIds pre).length ∧ 1 ≤ (standingIds pre).length
  queued : ∀ pre e post, es = pre ++ e :: post → e.kind = .botQueued →
    .starting ∉ toldPhases pre
  launched : ∀ pre e post, es = pre ++ e :: post → e.kind = .botLaunched →
    .stopping ∉ toldPhases pre
  ended : ∀ pre e post, es = pre ++ e :: post → .terminated ∈ toldPhases pre →
    e.kind.isDiagnostic = true ∨ e.kind = .shutdownRequested

namespace Replay

variable {es : List Event}

theorem Told.isToldBy (told : Told es r) (same : v.Matches r) : v.mgr.IsToldBy es where
  passed := by
    rw [told.phases]
    exact List.take_prefix _ _
  phase := by
    rw [told.phases, same.phase]
    cases r.phase <;> rfl
  queued := by
    rw [same.queued, told.queued]
    by_cases isNew : r.phase = .new
    · rw [if_pos isNew, if_neg (told.phase_eq_new_iff.mp isNew)]
    · rw [if_neg isNew, if_pos (Classical.not_not.mp (mt told.phase_eq_new_iff.mpr isNew))]
  once := by
    rw [told.launched]
    exact told.ascending
  ascending := v.mgr.ids_ascending
  ids := same.ids.trans told.ids

theorem Told.inPlace (told : Told es r) : InPlace es where
  waiting := fun pre e post eq kind => by
    obtain ⟨r₀, r₁, before, next⟩ := told.split eq
    obtain ⟨count, held⟩ := next.of_waiting kind
    rw [before.ids] at count held
    exact ⟨count, List.length_pos_iff.mpr held⟩
  queued := fun pre e post eq kind => by
    obtain ⟨r₀, r₁, before, next⟩ := told.split eq
    exact before.phase_eq_new_iff.mp (next.of_queued kind)
  launched := fun pre e post eq kind => by
    obtain ⟨r₀, r₁, before, next⟩ := told.split eq
    rw [before.phases]
    rcases next.of_launched kind with phase | phase <;> rw [phase] <;> decide
  ended := fun pre e post eq isOver => by
    obtain ⟨r₀, r₁, before, next⟩ := told.split eq
    refine next.of_terminated ?_
    rw [before.phases] at isOver
    revert isOver
    cases r₀.phase <;> decide

end Replay

/-! ## Runs -/

namespace Fleet

variable {managers : List ManagerPlan} {bots : List BotPlan} {ms : List Move}

/-- At every point of every run the events of a manager tell what it is like. -/
theorem replayed_play (has : m < managers.length) (bots : List BotPlan) (ms : List Move) :
    (((raw managers bots).play ms).view m).Replayed := by
  have first := untouched_raw has bots
  have steps := (steps_play_any (sound_raw managers bots) ms).2.2 m (has_raw.mpr has)
  have both := @Steps.invariant_of_regular _ _ _ _ (fun v => v.Enrolled ∧ v.Replayed) steps
    (fun step regular both => ⟨step.enrolled regular.queueing both.1,
      step.replayed regular.orderly both.1 both.2⟩) (regular_raw has bots)
    ⟨Or.inr fun id l found => absurd found first.launch?, {}, ?_, ?_⟩
  · exact both.2
  · rw [first.history]
    exact .nil
  · refine ⟨first.phase, by rw [first.queue]; rfl, ?_, nofun⟩
    exact Manager.ids_eq_nil_iff.mpr first.registry

/-- At every point of every run the events published so far determine the state of a manager:
its phase is the last one told of, its start queue is as long as bots were queued before the
start, and its registered bots are those launched and not removed. And each event comes where
it may. -/
theorem history_determines_state (has : m < managers.length) (bots : List BotPlan)
    (ms : List Move) :
    let mgr := ((raw managers bots).play ms).manager m
    mgr.IsToldBy mgr.history ∧ InPlace mgr.history := by
  obtain ⟨r, told, same⟩ := replayed_play has bots ms
  obtain ⟨passed, phase, queued, once, ascending, ids⟩ := told.isToldBy same
  exact ⟨⟨passed, phase, queued, once, ascending, ids⟩, told.inPlace⟩

/-- A bot is queued, launched at the start, waited for and removed. -/
theorem history_determines_state_of_one :
    let ms : List Move := [.call (.add 0 0), .call (.start 0), .turn, .turn, .turn,
      .wait 0 none false, .turn, .turn, .call (.finish 0 none), .turn, .turn]
    let mgr := ((raw [Sample.oneSlot] [Sample.bot false]).play ms).manager 0
    mgr.IsToldBy mgr.history ∧ InPlace mgr.history ∧
      toldPhases mgr.history = [.starting, .running, .stopping, .terminated] ∧
        countQueued mgr.history = 1 ∧ .waitingForBots 1 ∈ mgr.history := by
  have told := history_determines_state (m := 0) (show 0 < [Sample.oneSlot].length by decide)
    [Sample.bot false] [.call (.add 0 0), .call (.start 0), .turn, .turn, .turn,
      .wait 0 none false, .turn, .turn, .call (.finish 0 none), .turn, .turn]
  exact ⟨told.1, told.2, by decide, by decide, by decide⟩

end Fleet

end Flotilla
