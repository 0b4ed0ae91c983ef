import Flotilla.Proofs.Occurrence
import Flotilla.Proofs.Replay

/-!
# Who is registered and who is launched

A bot registered before the start is queued, and the start launches those in the queue; one
registered later is launched at once. `Enrolment` is what a manager keeps of this: the queue,
the bots launched so far, and their announcements. Nothing but a call of `add` or `start`
changes it (`Step.enrolment`), and what these change is computed (`Fleet.enrolment_add`,
`Fleet.enrolment_start`).
-/

namespace Flotilla

/-- The bots launched by a manager, each at the place of its id. -/
def Manager.bots (mgr : Manager) : List Nat := mgr.launches.map Launch.bot

/-- The announcements of launches that a manager published. -/
def Manager.announced (mgr : Manager) : List Event :=
  mgr.history.filter fun e => e.kind = .botLaunched

/-- A phase as far as registering depends on it: not started, starting, or started. -/
def Phase.toStart : Phase → Phase
  | .new => .new
  | .starting => .starting
  | .running | .stopping | .terminated => .running

/-- Who was registered with a manager and who was launched. -/
@[ext]
structure Enrolment where
  /-- How far the start is. -/
  phase : Phase
  /-- The bots to be launched at the start. -/
  queue : List Nat
  /-- The bots launched so far. -/
  bots : List Nat
  announced : List Event
  nameOf : Nat → String

/-- The announcements of launches under dense ids. -/
def announcements (nameOf : Nat → String) (bots : List Nat) : List Event :=
  bots.zipIdx.map fun x => .botLaunched x.2 (nameOf x.1)

namespace Enrolment

def enqueue (e : Enrolment) (b : Nat) : Enrolment := { e with queue := e.queue ++ [b] }

def launch (e : Enrolment) (b : Nat) : Enrolment :=
  { e with
    bots := e.bots ++ [b]
    announced := e.announced ++ [.botLaunched e.bots.length (e.nameOf b)] }

/-- A bot is registered: before the start it is queued, and later it is launched. -/
def register (e : Enrolment) (b : Nat) : Enrolment :=
  if e.phase = .new then e.enqueue b else e.launch b

/-- The bots in the queue are launched, and the manager runs. -/
def start (e : Enrolment) : Enrolment :=
  { e.queue.foldl launch { e with phase := .starting, queue := [] } with phase := .running }

/-- A manager has launched nobody before its start, and later those who were registered. -/
structure Holds (e : Enrolment) (registered : List Nat) : Prop where
  isNew : e.phase = .new → e.bots = [] ∧ e.announced = [] ∧ e.queue = registered
  isRunning : e.phase = .running →
    e.bots = registered ∧ e.announced = announcements e.nameOf registered

variable {e : Enrolment} {registered : List Nat}

theorem foldl_launch (e : Enrolment) (bots : List Nat) :
    bots.foldl launch e =
      { e with
        bots := e.bots ++ bots
        announced := e.announced ++
          (bots.zipIdx e.bots.length).map fun x => .botLaunched x.2 (e.nameOf x.1) } := by
  induction bots generalizing e with
  | nil => simp
  | cons b bots ih =>
      rw [List.foldl_cons, ih]
      simp [launch, List.zipIdx_cons]

theorem start_eq (e : Enrolment) (bots : e.bots = []) (announced : e.announced = []) :
    e.start =
      { phase := .running
        queue := []
        bots := e.queue
        announced := announcements e.nameOf e.queue
        nameOf := e.nameOf } := by
  unfold start
  rw [foldl_launch]
  simp [bots, announced, announcements]

theorem announcements_snoc (nameOf : Nat → String) (bots : List Nat) (b : Nat) :
    announcements nameOf (bots ++ [b]) =
      announcements nameOf bots ++ [.botLaunched bots.length (nameOf b)] := by
  simp [announcements, List.zipIdx_append]

theorem phase_register (e : Enrolment) (b : Nat) : (e.register b).phase = e.phase := by
  unfold register
  split <;> rfl

theorem Holds.register (holds : e.Holds registered) (b : Nat) :
    (e.register b).Holds (registered ++ [b]) := by
  constructor
  · intro isNew
    rw [phase_register] at isNew
    obtain ⟨bots, announced, queue⟩ := holds.isNew isNew
    rw [Enrolment.register, if_pos isNew]
    exact ⟨bots, announced, congrArg (· ++ [b]) queue⟩
  · intro isRunning
    rw [phase_register] at isRunning
    obtain ⟨bots, announced⟩ := holds.isRunning isRunning
    rw [Enrolment.register, if_neg (by rw [isRunning]; nofun)]
    refine ⟨congrArg (· ++ [b]) bots, ?_⟩
    rw [announcements_snoc]
    show e.announced ++ [.botLaunched e.bots.length (e.nameOf b)] = _
    rw [announced, bots]
    rfl

theorem Holds.start (holds : e.Holds registered) (isNew : e.phase = .new) :
    e.start.Holds registered := by
  obtain ⟨bots, announced, queue⟩ := holds.isNew isNew
  rw [start_eq e bots announced]
  exact ⟨nofun, fun _ => ⟨queue, by rw [queue]⟩⟩

end Enrolment

/-- Who was registered and launched, as far as a view tells. -/
def View.enrolment (v : View) : Enrolment where
  phase := v.mgr.phase.toStart
  queue := v.mgr.queue
  bots := v.mgr.bots
  announced := v.mgr.announced
  nameOf := v.nameOf

variable {L : Licence} {m : Nat} {v v' : View} {id : Nat} {l : Launch}

theorem Manager.bots_eq (mgr : Manager) : mgr.bots = mgr.roster.map Prod.fst := by
  unfold bots roster
  rw [List.map_map]
  rfl

/-! ## Where nobody is registered or launched -/

theorem Upshot.enrolment {es : List Event} {phase : Phase} {roster : List (Nat × Bool)}
    (h : Upshot v v' es phase v.mgr.queue roster) (names : v'.nameOf = v.nameOf)
    (history : v'.mgr.history = v.mgr.history ++ es)
    (silent : ∀ e ∈ es, e.kind ≠ .botLaunched) (start : phase.toStart = v.mgr.phase.toStart)
    (same : roster.map Prod.fst = v.mgr.roster.map Prod.fst) : v'.enrolment = v.enrolment := by
  have bots : v'.mgr.bots = v.mgr.bots := by
    rw [Manager.bots_eq, h.roster, same, ← Manager.bots_eq]
  have announced : v'.mgr.announced = v.mgr.announced := by
    have none : es.filter (fun e => e.kind = .botLaunched) = [] :=
      List.filter_eq_nil_iff.mpr fun e mem => by simpa using silent e mem
    unfold Manager.announced
    rw [history, List.filter_append, none, List.append_nil]
  unfold View.enrolment
  rw [h.phase, start, h.queue, bots, announced, names]

theorem kind_outcomeEvent (id : Nat) (name : String) (outcome : RunOutcome) :
    (Fleet.outcomeEvent id name outcome).kind ≠ .botLaunched := by
  cases outcome <;> nofun

theorem toStart_ifDone (phase : Phase) (registry : List (Nat × Launch)) :
    (phase.ifDone registry).1.toStart = phase.toStart := by
  unfold Phase.ifDone
  split
  · rename_i done
    rw [done.1]
    rfl
  · rfl

/-- A step by which nobody is registered or launched, and no start is made, changes nothing of
the enrolment. -/
theorem Telling.enrolment {es : List Event} (h : Telling L m v v' es)
    (names : v'.nameOf = v.nameOf) (closed : ¬ L.enrols m) : v'.enrolment = v.enrolment := by
  have history := h.history
  cases h with
  | still upshot =>
      exact upshot.enrolment names history (fun e mem => absurd mem List.not_mem_nil) rfl rfl
  | @aside e is upshot =>
      refine upshot.enrolment names history (fun e' mem => ?_) rfl rfl
      rw [List.mem_singleton.mp mem]
      exact is.kind_ne rfl nofun
  | waiting held upshot =>
      refine upshot.enrolment names history (fun e mem => ?_) rfl rfl
      rw [List.mem_singleton.mp mem]
      nofun
  | queued licensed | begun licensed | launched licensed | lost licensed | runs licensed =>
      exact absurd licensed closed
  | stops licensed isRunning sorted registered upshot =>
      refine upshot.enrolment names history (fun e mem => ?_) ?_ rfl
      · rcases cases_of_mem_stop mem with ⟨phase, rfl⟩ | ⟨id, -, rfl⟩
        · nofun
        · nofun
      · rw [toStart_ifDone, isRunning]
        rfl
  | @left id l ran outcome found registered why ends eq upshot =>
      refine upshot.enrolment names history (fun e mem => ?_) (toStart_ifDone _ _) ?_
      · rcases cases_of_mem_leave mem with rfl | rfl | rfl
        · exact kind_outcomeEvent _ _ _
        · nofun
        · nofun
      · have self := congrArg (List.map Prod.fst) (View.roster_set_self found)
        rw [List.map_set] at self ⊢
        exact self
  | strayed found stray why upshot =>
      refine upshot.enrolment names history (fun e mem => ?_) rfl rfl
      rw [List.mem_singleton.mp mem]
      exact kind_outcomeEvent _ _ _

theorem Step.enrolment (h : Step L m v v') (closed : ¬ L.enrols m) :
    v'.enrolment = v.enrolment := by
  obtain ⟨es, telling⟩ := h.telling
  exact telling.enrolment h.nameOf closed

theorem Steps.enrolment (h : Steps L m v v') (closed : ¬ L.enrols m) :
    v'.enrolment = v.enrolment := by
  induction h with
  | refl => rfl
  | tail _ step ih => exact (step.enrolment closed).trans ih

/-! ## What registering and starting do -/

namespace View

theorem announced_publish (v : View) (e : Event) :
    (v.publish e).mgr.announced =
      v.mgr.announced ++ [e.withSeq 0].filter fun e => e.kind = .botLaunched := by
  unfold Manager.announced
  rw [history_publish, List.filter_append]

theorem announced_publish_other (v : View) {e : Event} (other : e.kind ≠ .botLaunched) :
    (v.publish e).mgr.announced = v.mgr.announced := by
  have none : [e.withSeq 0].filter (fun e => e.kind = .botLaunched) = [] :=
    List.filter_cons_of_neg fun is => other (of_decide_eq_true is)
  rw [announced_publish, none, List.append_nil]

theorem enrolment_enqueue (v : View) (b : Nat) (name : String) :
    ((v.modify fun mgr => { mgr with queue := mgr.queue ++ [b] }).publish
      (.botQueued name)).enrolment = v.enrolment.enqueue b :=
  Enrolment.ext rfl rfl rfl (announced_publish_other _ nofun) rfl

theorem enrolment_launch (v : View) (m b : Nat) :
    (v.launch m b true).enrolment = v.enrolment.launch b := by
  have announced : (v.launch m b true).mgr.announced =
      v.mgr.announced ++ [.botLaunched v.mgr.bots.length (v.nameOf b)] := by
    unfold launch
    dsimp only
    rw [if_pos rfl, wake_nameOf, announced_publish, wake_mgr, Manager.bots, List.length_map]
    rfl
  refine Enrolment.ext ?_ ?_ ?_ announced (local_launch v m b true).nameOf
  · show (v.launch m b true).mgr.phase.toStart = v.mgr.phase.toStart
    rw [launch_mgr]
  · show (v.launch m b true).mgr.queue = v.mgr.queue
    rw [launch_mgr]
  · show (v.launch m b true).mgr.bots = v.mgr.bots ++ [b]
    rw [launch_mgr]
    exact List.map_append

theorem enrolment_launches (v : View) (m : Nat) (bots : List Nat) :
    (bots.foldl (fun v b => v.launch m b true) v).enrolment =
      bots.foldl Enrolment.launch v.enrolment := by
  induction bots generalizing v with
  | nil => rfl
  | cons b bots ih => rw [List.foldl_cons, List.foldl_cons, ih, enrolment_launch]

/-- A manager moves to a phase and publishes this. -/
theorem enrolment_advance (v : View) (phase : Phase) :
    ((v.modify fun mgr => { mgr with phase }).publish (.stateChanged phase)).enrolment =
      { v.enrolment with phase := phase.toStart } :=
  Enrolment.ext rfl rfl rfl (announced_publish_other _ nofun) rfl

theorem enrolment_clear (v : View) :
    (v.modify fun mgr => { mgr with queue := [] }).enrolment = { v.enrolment with queue := [] } :=
  rfl

end View

namespace Fleet

variable {f g : Fleet} {b : Nat} {span : Option Span} {mv : Move}

theorem launchBot_of_open (isOpen : (f.manager m).closed = false)
    (answers : f.panicOf? b .name = none) (span : Option Span) :
    (f.launchBot m b span).2 = none := by
  have asked : ((f.modifyManager m fun mgr =>
      { mgr with launches := mgr.launches ++ [{ bot := b }] }).wake
        (.bot ⟨m, (f.manager m).launches.length⟩)).askName b = .ok (f.bot b).plan.name := by
    show f.askName b = _
    unfold askName
    rw [answers]
  unfold launchBot
  rw [if_neg (ne_true_of_eq_false isOpen)]
  dsimp only
  rw [asked]

/-- A registration is accepted by a manager that is new or runs, or it changes nothing. -/
theorem enrolment_add (has : f.Has m) (orderly : (f.view m).Orderly) (b : Nat)
    (span : Option Span) :
    (f.add m b span).2 = none ∧
        ((f.manager m).phase = .new ∨ (f.manager m).phase = .running) ∧
        ((f.add m b span).1.view m).enrolment = (f.view m).enrolment.register b ∨
      (f.add m b span).2 ≠ none ∧ (f.add m b span).1.view m = f.view m := by
  unfold add
  split
  · rename_i isNew
    split
    · exact Or.inr ⟨nofun, rfl⟩
    · rename_i name answered
      refine Or.inl ⟨rfl, Or.inl isNew, ?_⟩
      dsimp only
      rw [view_publish_modify (f := f.say _ _ _ _) has (fun mgr =>
        { mgr with queue := mgr.queue ++ [b] }) _ fun _ => rfl, view_say, View.enrolment_enqueue]
      exact (if_pos (congrArg Phase.toStart isNew)).symm
  · rename_i isRunning
    split
    · exact Or.inr ⟨nofun, rfl⟩
    · rename_i name answered
      have isOpen : (f.manager m).closed = false := orderly.isOpen (Or.inr isRunning)
      have launched := launchBot_of_open (f := f.say .debug "already running; launching bot now"
        [("name", .text name)] span) isOpen (panicOf?_of_askName (m := m) answered).1 span
      refine Or.inl ⟨launched, Or.inr isRunning, ?_⟩
      rw [view_launchBot (f := f.say _ _ _ _) has _ _ launched, view_say, View.enrolment_launch]
      exact (if_neg (by rw [show (f.view m).enrolment.phase = .running from
        congrArg Phase.toStart isRunning]; nofun)).symm
  · exact Or.inr ⟨nofun, rfl⟩

/-- A manager that is new is started and launches the bots in its queue, or it goes on
starting, if one of them panics when it is asked its name. -/
theorem enrolment_start (has : f.Has m) (isNew : (f.manager m).phase = .new)
    (span : Option Span) :
    (f.start m span).2 = none ∧ ((f.start m span).1.view m).mgr.phase = .running ∧
        ((f.start m span).1.view m).enrolment = (f.view m).enrolment.start ∨
      (f.start m span).2 ≠ none ∧ ((f.start m span).1.view m).mgr.phase = .starting := by
  obtain ⟨queued, eq, started⟩ := start_of_new isNew span
  cases eq has
  have hasBegun : (f.begun m).Has m := ((steady_begun f m).has m).mpr has
  have launched := view_launchBots hasBegun span (f.manager m).queue
  have phase := phase_launchBots hasBegun span (f.manager m).queue
  have steady := steady_launchBots (f.begun m) m span (f.manager m).queue
  rw [started]
  generalize (f.begun m).launchBots m span (f.manager m).queue = result at launched phase steady ⊢
  have isStarting : ((f.begun m).view m).mgr.phase = .starting := by
    rw [view_begun has]
    rfl
  rcases result with ⟨g, _ | halt⟩
  · dsimp only at launched phase steady ⊢
    have goesOn : (g.manager m).phase = .starting := phase.trans isStarting
    unfold advance
    dsimp only
    rw [if_pos goesOn]
    dsimp only
    rw [view_say, view_publish_modify ((steady.has m).mpr hasBegun) (fun mgr =>
      { mgr with phase := .running }) _ fun _ => rfl]
    refine Or.inl ⟨rfl, rfl, ?_⟩
    rw [View.enrolment_advance, launched rfl, View.enrolment_launches, view_begun has,
      View.enrolment_clear, View.enrolment_advance]
    rfl
  · exact Or.inr ⟨nofun, phase.trans isStarting⟩

end Fleet

end Flotilla
