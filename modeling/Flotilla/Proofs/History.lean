import Flotilla.Proofs.Registry
import Flotilla.Proofs.Telling

/-!
# What was published

`Manager.history` is everything a manager published, in order and without the numbers of the
events, and `Telling` says what a step adds to it. So the history names the phases the manager
moved to, in order (`Step.passes`), and, as long as no bot panics when it is asked its name, the
bots that left the registry (`View.Recorded`).
-/

namespace Flotilla

/-- Everything a manager published, without the numbers of the events. -/
def Manager.history (mgr : Manager) : List Event := mgr.bus.log.toList.map fun e => e.withSeq 0

/-- Whether an event tells that the manager moved to a phase. -/
def Event.tellsPhase (e : Event) : Bool := e.phase.isSome

/-- What a manager has told of its phases when it is in a phase. -/
def Phase.passed (phase : Phase) : List Event :=
  (Phase.all.tail.take phase.rank).map Event.stateChanged

namespace View

/-- The history is about launches there are. -/
def Known (v : View) : Prop :=
  ∀ e ∈ v.mgr.history, ∀ id, e.bot = some id → id < v.mgr.launches.length

/-- The history names the bots that left. -/
def Recorded (v : View) : Prop :=
  ∀ id l, v.launch? id = some l →
    (l.registered = false ↔ ∃ name, Event.botRemoved id name ∈ v.mgr.history)

end View

/-- What a step publishes about bots, where the registered launches are those whose task is not
over. -/
inductive Saying (m : Nat) (v v' : View) (es : List Event) : Prop
  | quiet
    (registered : ∀ id l l', v.launch? id = some l → v'.launch? id = some l' →
      l'.registered = l.registered)
    (about : ∀ e ∈ es, ∀ id, e.bot = some id →
      e.kind = .quitRequested ∧ v.mgr.phase = .running ∧ id < v.stages.length ∨
        e.kind = .botLaunched ∧ id = v.stages.length ∧ id < v'.stages.length)
  | left {id : Nat} {l : Launch} {ran : Bool} {outcome : RunOutcome} {licensed : Prop}
    {last : List Event} (found : v.launch? id = some l) (registered : l.registered = true)
    (why : v.MayLeave l ran (some outcome) licensed)
    (eq : v' = v.leave m id ran (some outcome))
    (said : es = Fleet.outcomeEvent id (v.nameOf l.bot) outcome ::
      .botRemoved id (v.nameOf l.bot) :: last)
    (about : ∀ e ∈ last, e.bot = none)

variable {L : Licence} {m : Nat} {v v' : View} {id : Nat} {l : Launch}

/-! ## Publishing -/

namespace View

theorem history_publish (v : View) (e : Event) :
    (v.publish e).mgr.history = v.mgr.history ++ [e.withSeq 0] := by
  show ((v.mgr.bus.log.push (e.withSeq v.mgr.bus.published)).toList.map _) = _
  rw [Array.toList_push, List.map_append]
  rfl

theorem history_of_bus (same : v'.mgr.bus = v.mgr.bus) : v'.mgr.history = v.mgr.history := by
  unfold Manager.history
  rw [same]

theorem history_publishAll (v : View) (es : List Event) :
    (v.publishAll es).mgr.history = v.mgr.history ++ es.map fun e => e.withSeq 0 := by
  induction es generalizing v with
  | nil => exact (List.append_nil _).symm
  | cons e es ih =>
      apply (ih (v.publish e)).trans
      rw [history_publish, List.append_assoc]
      rfl

end View

theorem View.history_of_publishAll {es : List Event} (bus : v'.mgr.bus = v.mgr.bus.publishAll es)
    (unnumbered : ∀ e ∈ es, e.seq = 0) : v'.mgr.history = v.mgr.history ++ es := by
  have same : es.map (fun e => e.withSeq 0) = es := by
    refine (List.map_congr_left fun e mem => ?_).trans (List.map_id es)
    rw [Event.withSeq, ← unnumbered e mem]
    rfl
  rw [← same, ← View.history_publishAll]
  exact View.history_of_bus (bus.trans (View.bus_publishAll v es).symm)

theorem eq_of_mem_ifDone {phase : Phase} {registry : List (Nat × Launch)} {e : Event}
    (mem : e ∈ (phase.ifDone registry).2) : e = .stateChanged .terminated := by
  unfold Phase.ifDone at mem
  split at mem
  · exact List.mem_singleton.mp mem
  · cases mem

/-- A manager that stops publishes changes of its phase and requests to quit. -/
theorem cases_of_mem_stop {asked : List Nat} {name : Nat → String}
    {registry : List (Nat × Launch)} {e : Event}
    (mem : e ∈ .stateChanged .stopping :: asked.map (fun id => .quitRequested id (name id)) ++
      (Phase.stopping.ifDone registry).2) :
    (∃ phase, e = .stateChanged phase) ∨ ∃ id ∈ asked, e = .quitRequested id (name id) := by
  rcases List.mem_append.mp mem with mem | mem
  · rcases List.mem_cons.mp mem with stopping | mem
    · exact Or.inl ⟨_, stopping⟩
    · obtain ⟨id, among, same⟩ := List.mem_map.mp mem
      exact Or.inr ⟨id, among, same.symm⟩
  · exact Or.inl ⟨_, eq_of_mem_ifDone mem⟩

/-- Of a launch that leaves the registry it is published how its run ended and that it left, and
then perhaps that the manager has come to its end. -/
theorem cases_of_mem_leave {id : Nat} {name : String} {outcome : RunOutcome} {phase : Phase}
    {registry : List (Nat × Launch)} {e : Event}
    (mem : e ∈ Fleet.outcomeEvent id name outcome :: .botRemoved id name ::
      (phase.ifDone registry).2) :
    e = Fleet.outcomeEvent id name outcome ∨ e = .botRemoved id name ∨
      e = .stateChanged .terminated := by
  rcases List.mem_cons.mp mem with ended | mem
  · exact Or.inl ended
  · rcases List.mem_cons.mp mem with removed | mem
    · exact Or.inr (Or.inl removed)
    · exact Or.inr (Or.inr (eq_of_mem_ifDone mem))

theorem unnumbered_outcomeEvent (id : Nat) (name : String) (outcome : RunOutcome) :
    (Fleet.outcomeEvent id name outcome).seq = 0 := by
  cases outcome <;> rfl

theorem phase_outcomeEvent (id : Nat) (name : String) (outcome : RunOutcome) :
    (Fleet.outcomeEvent id name outcome).phase = none := by
  cases outcome <;> rfl

theorem bot_outcomeEvent (id : Nat) (name : String) (outcome : RunOutcome) :
    (Fleet.outcomeEvent id name outcome).bot = some id := by
  cases outcome <;> rfl

/-! ## What a step publishes -/

/-- Events are published before they are numbered. -/
theorem Telling.unnumbered {es : List Event} (h : Telling L m v v' es) :
    ∀ e ∈ es, e.seq = 0 := by
  intro e mem
  cases h with
  | still upshot | lost licensed launching why upshot => cases mem
  | aside is upshot =>
      rw [List.mem_singleton.mp mem]
      exact is.unnumbered
  | waiting | queued | begun | launched | runs =>
      rw [List.mem_singleton.mp mem]
      rfl
  | stops licensed isRunning sorted registered upshot =>
      rcases cases_of_mem_stop mem with ⟨phase, rfl⟩ | ⟨id, -, rfl⟩
      · rfl
      · rfl
  | left found registered why ends eq upshot =>
      rcases cases_of_mem_leave mem with rfl | rfl | rfl
      · exact unnumbered_outcomeEvent _ _ _
      · rfl
      · rfl
  | strayed found stray why upshot =>
      rw [List.mem_singleton.mp mem]
      exact unnumbered_outcomeEvent _ _ _

theorem Telling.bus {es : List Event} (h : Telling L m v v' es) :
    v'.mgr.bus = v.mgr.bus.publishAll es := by
  cases h with
  | still upshot | aside _ upshot | waiting _ upshot | queued _ _ upshot | begun _ _ upshot
  | launched _ _ upshot | lost _ _ _ upshot | runs _ _ _ upshot | stops _ _ _ _ upshot
  | left _ _ _ _ _ upshot | strayed _ _ _ upshot => exact upshot.bus

theorem Telling.history {es : List Event} (h : Telling L m v v' es) :
    v'.mgr.history = v.mgr.history ++ es :=
  View.history_of_publishAll h.bus h.unnumbered

/-- What a manager that stops publishes. -/
theorem View.history_stop (v : View) (m : Nat) (asked : List Nat) :
    (v.stop m asked).mgr.history = v.mgr.history ++
      (.stateChanged .stopping :: asked.map fun id => .quitRequested id (v.launchName id)) ++
        if v.mgr.registry = [] then [.stateChanged .terminated] else [] := by
  have last : (Phase.stopping.ifDone v.mgr.registry).2 =
      if v.mgr.registry = [] then [.stateChanged .terminated] else [] := by
    unfold Phase.ifDone
    by_cases empty : v.mgr.registry = [] <;> simp [empty]
  rw [View.history_of_publishAll (Upshot.of_stop v m asked).bus, last, List.append_assoc]
  intro e mem
  rcases cases_of_mem_stop mem with ⟨phase, rfl⟩ | ⟨id, -, rfl⟩
  · rfl
  · rfl

/-- What is said of phases when a manager that stops turns out to be done, or not. -/
theorem passed_ifDone (phase : Phase) (registry : List (Nat × Launch)) :
    phase.passed ++ (phase.ifDone registry).2.filter Event.tellsPhase =
      (phase.ifDone registry).1.passed := by
  unfold Phase.ifDone
  split
  · rename_i done
    rw [done.1]
    rfl
  · exact List.append_nil _

theorem tellsPhase_eq_false {e : Event} (phase : e.phase = none) : ¬ e.tellsPhase = true := by
  rw [Event.tellsPhase, phase]
  exact Bool.false_ne_true

/-- What a step tells of phases is what the manager passed through. -/
theorem Telling.passes {es : List Event} (h : Telling L m v v' es) :
    v.mgr.phase.passed ++ es.filter Event.tellsPhase = v'.mgr.phase.passed := by
  have unchanged {e : Event} (phase : v'.mgr.phase = v.mgr.phase) (silent : e.phase = none) :
      v.mgr.phase.passed ++ [e].filter Event.tellsPhase = v'.mgr.phase.passed := by
    rw [phase, List.filter_cons_of_neg (tellsPhase_eq_false silent)]
    exact List.append_nil _
  cases h with
  | still upshot | lost licensed launching why upshot =>
      rw [upshot.phase]
      exact List.append_nil _
  | aside is upshot => exact unchanged upshot.phase is.phase
  | waiting held upshot | launched licensed launching upshot => exact unchanged upshot.phase rfl
  | queued licensed isNew upshot => exact unchanged (upshot.phase.trans isNew.symm) rfl
  | begun licensed isNew upshot =>
      rw [upshot.phase, isNew]
      rfl
  | runs licensed isStarting named upshot =>
      rw [upshot.phase, isStarting]
      rfl
  | @stops asked licensed isRunning sorted registered upshot =>
      have none : (asked.map fun id => Event.quitRequested id (v.launchName id)).filter
          Event.tellsPhase = [] := by
        refine List.filter_eq_nil_iff.mpr fun e mem => ?_
        obtain ⟨id, -, rfl⟩ := List.mem_map.mp mem
        nofun
      rw [upshot.phase, ← passed_ifDone, isRunning, List.filter_append,
        List.filter_cons_of_pos rfl, none]
      rfl
  | @left id l ran outcome found registered why ends eq upshot =>
      rw [upshot.phase, ← passed_ifDone,
        List.filter_cons_of_neg (tellsPhase_eq_false (phase_outcomeEvent _ _ _)),
        List.filter_cons_of_neg (tellsPhase_eq_false rfl)]
  | strayed found stray why upshot => exact unchanged upshot.phase (phase_outcomeEvent _ _ _)

/-- Who is registered is told by the roster. -/
theorem registered_of_roster {l' : Launch} {more : List (Nat × Bool)}
    (roster : v'.mgr.roster = v.mgr.roster ++ more) (found : v.launch? id = some l)
    (found' : v'.launch? id = some l') : l'.registered = l.registered := by
  have entry := View.getElem?_roster v id
  have entry' := View.getElem?_roster v' id
  have inside : id < v.mgr.roster.length := by
    rw [Manager.roster, List.length_map]
    exact View.lt_of_launch? found
  rw [roster, List.getElem?_append_left inside, entry, found, found'] at entry'
  exact (congrArg Prod.snd (Option.some.inj entry')).symm

/-- Where the registered launches are those whose task is not over, only they come to their
end. -/
theorem Telling.saying {es : List Event} (h : Telling L m v v' es) (accounted : v.Accounted) :
    Saying m v v' es := by
  have unchanged (roster : v'.mgr.roster = v.mgr.roster)
      (about : ∀ e ∈ es, ∀ id, e.bot = some id →
        e.kind = .quitRequested ∧ v.mgr.phase = .running ∧ id < v.stages.length) :
      Saying m v v' es := by
    have nothingMore : v'.mgr.roster = v.mgr.roster ++ [] := by rw [roster, List.append_nil]
    exact .quiet (fun id l l' => registered_of_roster nothingMore) fun e mem id bot =>
      Or.inl (about e mem id bot)
  cases h with
  | still upshot => exact unchanged upshot.roster fun e mem => absurd mem List.not_mem_nil
  | aside is upshot =>
      refine unchanged upshot.roster fun e mem id bot => ?_
      rw [List.mem_singleton.mp mem, is.bot] at bot
      cases bot
  | waiting held upshot | queued licensed isNew upshot | begun licensed isNew upshot
  | runs licensed isStarting named upshot =>
      refine unchanged upshot.roster fun e mem id bot => ?_
      rw [List.mem_singleton.mp mem] at bot
      cases bot
  | launched licensed launching upshot =>
      refine .quiet (fun id l l' => registered_of_roster upshot.roster) fun e mem id bot => ?_
      rw [List.mem_singleton.mp mem] at bot ⊢
      cases bot
      have longer := congrArg List.length upshot.roster
      simp only [Manager.roster, List.length_map, List.length_append, List.length_singleton]
        at longer
      refine Or.inr ⟨rfl, (View.length_stages v).symm, ?_⟩
      rw [View.length_stages]
      omega
  | lost licensed launching why upshot =>
      exact .quiet (fun id l l' => registered_of_roster upshot.roster) fun e mem =>
        absurd mem List.not_mem_nil
  | stops licensed isRunning sorted registered upshot =>
      refine unchanged upshot.roster fun e mem id bot => ?_
      rcases cases_of_mem_stop mem with ⟨phase, rfl⟩ | ⟨id', among, rfl⟩
      · cases bot
      · cases bot
        obtain ⟨l, found, -⟩ := registered id among
        refine ⟨rfl, isRunning, ?_⟩
        rw [View.length_stages]
        exact View.lt_of_launch? found
  | left found registered why ends eq upshot =>
      refine .left found registered why eq rfl fun e mem => ?_
      rw [eq_of_mem_ifDone mem]
      rfl
  | strayed found stray why upshot =>
      have registered := accounted _ _ found
      rw [stray, why.not_over] at registered
      cases registered

/-- What is told of the phases of a manager is told in order, and each phase once. -/
theorem Step.passes (h : Step L m v v')
    (phases : v.mgr.history.filter Event.tellsPhase = v.mgr.phase.passed) :
    v'.mgr.history.filter Event.tellsPhase = v'.mgr.phase.passed := by
  obtain ⟨es, telling⟩ := h.telling
  rw [telling.history, List.filter_append, phases, telling.passes]

/-! ## Who left -/

/-- What a step publishes about a bot is about one that was launched. -/
theorem Telling.known {es : List Event} (h : Telling L m v v' es) {e : Event} (mem : e ∈ es)
    (bot : e.bot = some id) : id < v'.mgr.launches.length := by
  have kept {es' : List Event} {phase : Phase} {queue : List Nat} {roster : List (Nat × Bool)}
      (upshot : Upshot v v' es' phase queue roster)
      (length : roster.length = v.mgr.roster.length) (found : ∃ l, v.launch? id = some l) :
      id < v'.mgr.launches.length := by
    obtain ⟨l, found⟩ := found
    rw [← Manager.length_roster, upshot.roster, length, Manager.length_roster]
    exact View.lt_of_launch? found
  cases h with
  | still | lost => cases mem
  | aside is upshot =>
      rw [List.mem_singleton.mp mem, is.bot] at bot
      cases bot
  | waiting | queued | begun | runs =>
      rw [List.mem_singleton.mp mem] at bot
      cases bot
  | launched licensed launching upshot =>
      rw [List.mem_singleton.mp mem] at bot
      cases bot
      rw [← v'.mgr.length_roster, upshot.roster, List.length_append, Manager.length_roster]
      exact Nat.lt_succ_self _
  | stops licensed isRunning sorted registered upshot =>
      rcases cases_of_mem_stop mem with ⟨phase, rfl⟩ | ⟨id', among, rfl⟩
      · cases bot
      · cases bot
        exact kept upshot rfl ((registered id among).imp fun _ => And.left)
  | @left id' l ran outcome found registered why ends eq upshot =>
      refine kept upshot (List.length_set ..) ⟨l, ?_⟩
      rcases cases_of_mem_leave mem with rfl | rfl | rfl
      · cases (bot_outcomeEvent _ _ _).symm.trans bot
        exact found
      · cases bot
        exact found
      · cases bot
  | strayed found stray why upshot =>
      rw [List.mem_singleton.mp mem, bot_outcomeEvent] at bot
      cases bot
      exact kept upshot rfl ⟨_, found⟩

theorem Step.known (h : Step L m v v') (known : v.Known) : v'.Known := by
  obtain ⟨es, telling⟩ := h.telling
  intro e mem id bot
  rw [telling.history, List.mem_append] at mem
  rcases mem with mem | mem
  · have inside := h.length_stages_le (by rw [View.length_stages]; exact known e mem id bot)
    rwa [View.length_stages] at inside
  · exact telling.known mem bot

/-- A launch that comes while every bot gives its name is registered. -/
theorem Fresh.registered (fresh : Fresh L v l) (calm : ¬ L.panics l.bot) (orderly : v.Orderly) :
    l.registered = true := by
  cases fresh with
  | @launched b named launching isOpen mute =>
      cases named with
      | false => exact absurd (mute rfl).1 calm
      | true => rfl
  | late launching isClosed =>
      rcases orderly.closed.mp isClosed with stops | stops <;>
        rw [stops] at launching <;> simp at launching

/-- The only bot that a step says has left is the one whose launch comes to its end. -/
theorem eq_of_botRemoved_mem {es last : List Event} {id' : Nat} {name name' : String}
    {outcome : RunOutcome}
    (said : es = Fleet.outcomeEvent id' name outcome :: .botRemoved id' name :: last)
    (about : ∀ e ∈ last, e.bot = none) (mem : Event.botRemoved id name' ∈ es) : id = id' := by
  rw [said] at mem
  rcases List.mem_cons.mp mem with is | mem
  · cases outcome <;> cases is
  · rcases List.mem_cons.mp mem with is | mem
    · cases is
      rfl
    · cases about _ mem

/-- The history keeps naming the bots that left. -/
theorem Step.recorded (h : Step L m v v') (calm : v'.Calm L) (accounted : v.Accounted)
    (orderly : v.Orderly) (known : v.Known) (recorded : v.Recorded) : v'.Recorded := by
  obtain ⟨es, telling⟩ := h.telling
  have history := telling.history
  have saying := telling.saying accounted
  intro id l' found'
  have told (name : String) : Event.botRemoved id name ∈ v'.mgr.history ↔
      Event.botRemoved id name ∈ v.mgr.history ∨ Event.botRemoved id name ∈ es := by
    rw [history, List.mem_append]
  simp only [told, exists_or]
  cases saying with
  | quiet registered about =>
      have silent : ¬ ∃ name, Event.botRemoved id name ∈ es := by
        intro happens
        rcases happens with ⟨name, mem⟩
        rcases about _ mem id rfl with ⟨kind, -⟩ | ⟨kind, -⟩ <;> cases kind
      rw [or_iff_left silent]
      rcases h.origin found' with ⟨l, found, -⟩ | ⟨eq, fresh⟩
      · rw [registered id l l' found found']
        exact recorded id l found
      · -- Of a launch that has just come nothing was said before.
        have unknown : ¬ ∃ name, Event.botRemoved id name ∈ v.mgr.history := by
          intro happens
          rcases happens with ⟨name, mem⟩
          have inside := known _ mem id rfl
          omega
        rw [iff_false_right unknown, fresh.registered (calm id l' found') orderly]
        exact Bool.noConfusion
  | @left id' l ran outcome licensed last found registered why eq said about =>
      rw [eq, View.launch?_leave] at found'
      obtain ⟨l₀, found₀, rfl⟩ := Option.map_eq_some_iff.mp found'
      by_cases same : id = id'
      · subst same
        rw [if_pos rfl]
        refine iff_of_true (Bool.and_false _) (Or.inr ⟨v.nameOf l.bot, ?_⟩)
        rw [said]
        exact List.mem_cons_of_mem _ List.mem_cons_self
      · have silent : ¬ ∃ name, Event.botRemoved id name ∈ es := by
          intro happens
          rcases happens with ⟨name, mem⟩
          exact same (eq_of_botRemoved_mem said about mem)
        rw [or_iff_left silent, if_neg same]
        have was := recorded id l₀ found₀
        split <;> exact was

end Flotilla
