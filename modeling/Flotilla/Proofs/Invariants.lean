import Flotilla.Proofs.History
import Flotilla.Proofs.Slots
import Flotilla.Proofs.Waits

/-!
# What holds of a manager at every moment

The invariants of the modules before, put together: `View.Regular` holds of every manager at
every point of every run, `View.Clear` as long as none of the bots that the manager launches panics
when it is asked its name, and the slots of a pool are conserved in any case. All of them hold at
first, of a manager that is `View.Untouched`.
-/

namespace Flotilla

/-- What holds of a manager at every point of every run. -/
structure View.Regular (m : Nat) (v : View) : Prop where
  queueing : v.Queueing
  lined : v.Lined m
  ranked : v.Ranked
  orderly : v.Orderly
  tidy : v.Tidy
  patient : v.Patient m
  phases : v.mgr.history.filter Event.tellsPhase = v.mgr.phase.passed
  known : v.Known

/-- What holds of a manager as long as every bot that it launches gives its name when asked. -/
structure View.Clear (v : View) : Prop where
  accounted : v.Accounted
  recorded : v.Recorded

/-- What holds of a manager just built: nothing was launched, nobody waits, and nothing was
published. -/
structure View.Untouched (v : View) : Prop where
  launches : v.mgr.launches = []
  queue : v.mgr.queue = []
  phase : v.mgr.phase = .new
  isOpen : v.mgr.closed = false
  slotWaiters : v.mgr.slotWaiters = []
  history : v.mgr.history = []
  line : v.line = []
  running : v.running = none
  waits : v.waits = []

variable {L : Licence} {m : Nat} {v v' : View}

/-! ## The first moment -/

namespace View.Untouched

variable {id : Nat} {l : Launch} {stage : Stage}

theorem launch? (new : v.Untouched) : v.launch? id ≠ some l := by
  rw [View.launch?, new.launches]
  exact fun found => by cases found

theorem stages (new : v.Untouched) : v.stages = [] := by
  rw [View.stages, new.launches, List.map_nil]

theorem stage? (new : v.Untouched) : v.stages[id]? ≠ some stage := by
  rw [new.stages]
  exact fun found => by cases found

theorem registry (new : v.Untouched) : v.mgr.registry = [] := by
  rw [Manager.registry, new.launches]
  rfl

theorem not_isDue (new : v.Untouched) (t : Task) : ¬ v.IsDue t := by
  rw [View.IsDue, new.running, new.line]
  intro due
  rcases due with turn | mem
  · cases turn
  · cases mem

theorem regular (new : v.Untouched) : v.Regular m where
  queueing :=
    { nodup := by
        rw [new.slotWaiters]
        exact .nil
      mem := fun id => by
        rw [new.slotWaiters]
        exact iff_of_false List.not_mem_nil new.stage? }
  lined :=
    { due := fun id is => absurd is (new.not_isDue _)
      ready := fun id stage found => absurd found new.stage?
      calling := fun id calls found => absurd found new.stage?
      order := by
        rw [new.running, new.line]
        exact .nil }
  ranked :=
    { graded := fun _ i j a b _ found => absurd found new.stage?
      sorted := by
        rw [new.slotWaiters]
        exact .nil }
  orderly :=
    { queue := Or.inl new.queue
      closed := by simp [new.isOpen, new.phase]
      fresh := fun _ => new.registry
      held := fun stopping => by
        rw [new.phase] at stopping
        cases stopping
      empty := fun _ => new.registry }
  tidy :=
    { running := fun id l found => absurd found new.launch?
      pending := fun id l found => absurd found new.launch? }
  patient :=
    { clamped := fun w wt got => by
        rw [new.waits] at got
        cases got
      polling := fun w wt due got => by
        rw [new.waits] at got
        cases got
      done := fun w wt got => by
        rw [new.waits] at got
        cases got }
  phases := by
    rw [new.history, new.phase]
    rfl
  known := fun e mem => by
    rw [new.history] at mem
    cases mem

theorem clear (new : v.Untouched) : v.Clear where
  accounted := fun _ _ found => absurd found new.launch?
  recorded := fun _ _ found => absurd found new.launch?

end View.Untouched

/-! ## Steps -/

theorem Step.regular (h : Step L m v v') (regular : v.Regular m) : v'.Regular m where
  queueing := h.queueing regular.queueing
  lined := h.lined regular.queueing regular.lined
  ranked := h.ranked regular.queueing regular.lined regular.ranked
  orderly := h.orderly regular.orderly
  tidy := h.tidy regular.queueing regular.tidy
  patient := h.patient regular.queueing regular.patient
  phases := h.passes regular.phases
  known := h.known regular.known

theorem Steps.regular (h : Steps L m v v') (regular : v.Regular m) : v'.Regular m :=
  h.invariant Step.regular regular

/-- What is kept by every step of a manager that is regular holds after any number of steps. -/
theorem Steps.invariant_of_regular {Inv : View → Prop} (h : Steps L m v v')
    (kept : ∀ {x x' : View}, Step L m x x' → x.Regular m → Inv x → Inv x')
    (regular : v.Regular m) (first : Inv v) : Inv v' := by
  induction h with
  | refl => exact first
  | tail steps step ih => exact kept step (Steps.regular steps regular) ih

theorem Step.clear (h : Step L m v v') (calm : v'.Calm L) (regular : v.Regular m)
    (clear : v.Clear) : v'.Clear where
  accounted := h.accounted calm regular.queueing clear.accounted
  recorded := h.recorded calm clear.accounted regular.orderly regular.known clear.recorded

theorem Steps.clear (h : Steps L m v v') (calm : v'.Calm L) (regular : v.Regular m)
    (clear : v.Clear) : v'.Clear := by
  induction h with
  | refl => exact clear
  | tail steps step ih =>
      exact step.clear calm (Steps.regular steps regular) (ih (step.calm calm))

theorem Steps.conserved {size : Nat} (h : Steps L m v v') (regular : v.Regular m)
    (conserved : v.Conserved size) : v'.Conserved size :=
  Steps.invariant_of_regular h (fun step regular => step.conserved regular.queueing) regular
    conserved

/-! ## Runs -/

namespace Fleet

variable {f : Fleet} {managers : List ManagerPlan} {bots : List BotPlan} {ms : List Move}

theorem untouched_raw (has : m < managers.length) (bots : List BotPlan) :
    ((raw managers bots).view m).Untouched := by
  rw [view_raw has]
  refine ⟨rfl, rfl, rfl, rfl, ?_, rfl, rfl, rfl, rfl⟩
  show (managers[m].build.core).slotWaiters = []
  cases limit : managers[m].settings.limit <;>
    simp [Manager.slotWaiters, Manager.core, ManagerPlan.build, Manager.build, limit]

theorem regular_raw (has : m < managers.length) (bots : List BotPlan) :
    ((raw managers bots).view m).Regular m :=
  (untouched_raw has bots).regular

/-- At every point of every run every manager is regular. -/
theorem regular_play (has : m < managers.length) (bots : List BotPlan) (ms : List Move) :
    (((raw managers bots).play ms).view m).Regular m :=
  invariant has Step.regular (regular_raw has bots)

theorem clear_play (has : m < managers.length) (answers : (raw managers bots).Answering m ms) :
    (((raw managers bots).play ms).view m).Clear :=
  (steps_ofRun (sound_raw managers bots) (has_raw.mpr has) ms).clear
    (answers.calm (sound_raw managers bots) (List.prefix_refl ms)) (regular_raw has bots)
    (untouched_raw has bots).clear

/-- The slots of a pool are never more and never fewer than it was built with. -/
theorem conserved_play (has : m < managers.length) {size : Nat}
    (limit : managers[m].settings.limit = some size) (bots : List BotPlan) (ms : List Move) :
    (((raw managers bots).play ms).view m).Conserved size := by
  have first : ((raw managers bots).view m).Conserved size := by
    rw [view_raw has]
    refine ⟨{ free := size }, ?_, rfl⟩
    show managers[m].settings.limit.map _ = _
    rw [limit]
    rfl
  exact ((steps_play_any (sound_raw managers bots) ms).2.2 m (has_raw.mpr has)).conserved
    (regular_raw has bots) first

/-! ## Nothing can go on -/

theorem isDue_of_settled (settled : f.tasks.isSettled = true) (t : Task) :
    ¬ (f.view m).IsDue t := by
  obtain ⟨ready, running⟩ := Bool.and_eq_true_iff.mp settled
  intro due
  rcases due with turn | mem
  · have none : f.tasks.running = none := Option.isNone_iff_eq_none.mp running
    cases none.symm.trans turn
  · have empty : f.tasks.ready = [] := List.isEmpty_iff.mp ready
    have mem : t ∈ f.tasks.ready := (List.mem_filter.mp mem).1
    rw [empty] at mem
    cases mem

/-- In a settled fleet a launch waits for a slot of an open pool, is in its run and waits there,
or is over. -/
theorem stage_of_settled (settled : f.tasks.isSettled = true)
    (lined : (f.view m).Lined m) {id : Nat} {stage : Stage}
    (found : (f.view m).stages[id]? = some stage) :
    stage = .queued ∧ (f.manager m).closed = false ∨ (∃ heeds, stage = .waiting heeds) ∨
      stage = .over := by
  have rests : stage.isReady (f.manager m).closed = false := by
    cases ready : stage.isReady (f.manager m).closed with
    | false => rfl
    | true => exact absurd (lined.ready id stage found ready) (isDue_of_settled settled _)
  cases stage with
  | submitted | offered | permitted => cases rests
  | queued => exact Or.inl ⟨rfl, rests⟩
  | calling calls =>
      exact absurd (Or.inl (lined.calling id calls found)) (isDue_of_settled settled _)
  | waiting heeds => exact Or.inr (Or.inl ⟨heeds, rfl⟩)
  | «over» => exact Or.inr (Or.inr rfl)

/-- Of a closed pool only those who are in their runs are left when nothing can go on. -/
theorem isInRun_or_isOver_of_settled (settled : f.tasks.isSettled = true)
    (lined : (f.view m).Lined m) (isClosed : (f.manager m).closed = true) {id : Nat} {l : Launch}
    (found : (f.view m).launch? id = some l) : l.stage.isInRun = true ∨ l.stage.isOver = true := by
  rcases stage_of_settled settled lined (View.stages_of_launch? found) with
    ⟨-, isOpen⟩ | ⟨heeds, stage⟩ | stage
  · cases isClosed.symm.trans isOpen
  · rw [stage]
    exact Or.inl rfl
  · rw [stage]
    exact Or.inr rfl

end Fleet

end Flotilla
