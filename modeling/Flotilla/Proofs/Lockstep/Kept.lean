import Flotilla.Proofs.Feedback
import Flotilla.Proofs.Lockstep.Moves
import Flotilla.Proofs.Occurrence

/-!
# What every move keeps

A task that is due stays so until it has its turn (`Fleet.IsDue.move`), and a manager that nobody
has is never had again (`Fleet.isHeld_move`).
-/

namespace Flotilla.Fleet

variable {f g : Fleet} {m : Nat} {t : Task} {mv : Move}

/-! ## Tasks that are due -/

/-- Who stands in line in the one fleet stands in line in the other. -/
def KeepsLine (f g : Fleet) : Prop := ∀ t ∈ f.tasks.ready, t ∈ g.tasks.ready

/-- The same task is run, and nobody left the line. -/
def KeepsTasks (f g : Fleet) : Prop := g.tasks.running = f.tasks.running ∧ f.KeepsLine g

theorem keepsTasks_wake (f : Fleet) (t : Task) : f.KeepsTasks (f.wake t) :=
  ⟨Scheduler.running_wake _ _, fun _ mem => Scheduler.mem_ready_wake.mpr (Or.inl mem)⟩

theorem keepsTasks_wakeListener (f : Fleet) (m : Nat) : f.KeepsTasks (f.wakeListener m) := by
  unfold wakeListener
  split
  · exact keepsTasks_wake _ _
  · exact ⟨rfl, fun _ => id⟩

theorem KeepsTasks.trans {h : Fleet} (first : f.KeepsTasks g) (next : g.KeepsTasks h) :
    f.KeepsTasks h :=
  ⟨next.1.trans first.1, fun t mem => next.2 t (first.2 t mem)⟩

theorem keepsTasks_publish (f : Fleet) (m : Nat) (e : Event) : f.KeepsTasks (f.publish m e) :=
  keepsTasks_wakeListener (f.modifyManager m fun mgr => { mgr with bus := mgr.bus.publish e }) m

theorem KeepsTasks.of_eq {h : Fleet} (kept : f.KeepsTasks g) (same : h.tasks = g.tasks) :
    f.KeepsTasks h := by
  unfold KeepsTasks KeepsLine
  rw [same]
  exact kept

theorem MovesInStep.keepsTasks (f : Fleet) : MovesInStep (Both f.KeepsTasks) :=
  .ofKept
    (.ofKept
      (.ofKept (fun kept _ tasks _ => kept.of_eq tasks) (fun kept _ _ => kept)
        (fun kept _ => kept.trans (keepsTasks_wake _ _))
        fun kept _ m => kept.trans (keepsTasks_publish _ m _))
      (fun kept _ tasks _ => kept.of_eq tasks) (fun kept _ => kept)
      fun kept m => kept.trans (keepsTasks_wakeListener _ m))
    (fun kept _ _ => kept) fun kept _ => kept

theorem TurnsInStep.keepsLine (f : Fleet) : TurnsInStep (Both f.KeepsLine) := by
  have elsewhere {g h : Fleet} (kept : f.KeepsLine g) (_ : h.managers = g.managers)
      (tasks : h.tasks = g.tasks) : f.KeepsLine h :=
    fun t mem => tasks ▸ kept t mem
  have lock : Lockstep (Both f.KeepsLine) :=
    .ofKept (fun kept managers tasks _ => elsewhere kept managers tasks) (fun kept _ _ => kept)
      (fun kept _ t mem => (keepsTasks_wake _ _).2 t (kept t mem))
      fun kept _ m t mem => (keepsTasks_publish _ m _).2 t (kept t mem)
  exact .ofKept
    (.ofKept
      (.ofKept lock (fun kept managers tasks _ => elsewhere kept managers tasks)
        (fun kept _ => kept) fun kept m t mem => (keepsTasks_wakeListener _ m).2 t (kept t mem))
      (fun kept _ _ => kept) fun kept _ => kept)
    (.ofKept lock (fun kept managers tasks _ => elsewhere kept managers tasks)
      (fun kept _ _ => kept) fun kept => kept) fun kept _ _ => kept

/-- Nobody leaves the line in a turn. -/
theorem keepsLine_stepTask (f : Fleet) (t : Task) : f.KeepsLine (f.stepTask t) := by
  cases t with
  | listener m => exact (passesOn_stepListener f m).line
  | worker m i => exact (passesOn_stepWorker f m i).line
  | bot | wait | dismissal =>
      exact ((TurnsInStep.keepsLine f).stepTask ⟨rfl, fun _ => id⟩ rfl).2

theorem keepsTasks_releaseSubscriber (f : Fleet) (m i times : Nat) :
    f.KeepsTasks (f.releaseSubscriber m i times) := by
  unfold releaseSubscriber
  split
  · exact ⟨rfl, fun _ => id⟩
  · dsimp only
    split
    · exact keepsTasks_wake _ _
    · exact ⟨rfl, fun _ => id⟩

/-- A turn is a step of the task being run, or gives a task its turn, or nothing can go on. -/
theorem turn_cases (f : Fleet) :
    (∃ t, f.tasks.running = some t ∧ f.move .turn = f.stepTask t) ∨
      f.tasks.running = none ∧ (f.move .turn = f ∨
        ∃ tasks, f.tasks.next? = some tasks ∧ f.move .turn = { f with tasks }) := by
  cases turn : f.tasks.running with
  | some t => exact Or.inl ⟨t, rfl, move_turn turn⟩
  | none =>
      refine Or.inr ⟨rfl, ?_⟩
      unfold Fleet.move step?
      rw [turn]
      cases next : f.tasks.next? with
      | none => exact Or.inl rfl
      | some tasks => exact Or.inr ⟨tasks, rfl, rfl⟩

/-- A task that is due stays so until it has its turn. -/
theorem IsDue.move (due : f.IsDue t) (waits : mv = .turn → f.tasks.running ≠ some t) :
    (f.move mv).IsDue t := by
  have kept {g : Fleet} (kept : f.KeepsTasks g) : g.IsDue t := due.kept kept.2 kept.1
  cases mv with
  | release m i times => exact kept (keepsTasks_releaseSubscriber f m i times)
  | look => exact due
  | turn =>
      rcases turn_cases f with ⟨u, turn, eq⟩ | ⟨idle, eq | ⟨tasks, next, eq⟩⟩
      · rw [eq]
        refine Or.inr (keepsLine_stepTask f u t (due.inLine turn ?_))
        rintro rfl
        exact waits rfl turn
      · rw [eq]
        exact due
      · rw [eq]
        exact (isDue_of_next next idle).mpr due
  | _ => exact kept ((MovesInStep.keepsTasks f).move ⟨rfl, rfl, fun _ => id⟩ rfl).2

/-! ## Managers that nobody has -/

theorem isHeld_iff : f.isHeld m = true ↔
    m < f.managers.length ∧ (f.manager m).owned = true ∨
      ∃ wt ∈ f.waits, wt.manager = m ∧ wt.stage.isOver = false := by
  unfold isHeld isOwned
  rw [Bool.or_eq_true, List.any_eq_true]
  refine or_congr ?_ ?_
  · unfold manager
    rw [List.getD_eq_getElem?_getD]
    cases found : f.managers[m]? with
    | none =>
        refine iff_of_false nofun fun has => ?_
        rw [List.getElem?_eq_none_iff] at found
        omega
    | some mgr =>
        have has := (List.getElem?_eq_some_iff.mp found).choose
        simp [has]
  · simp

/-- Whoever nobody has in the one fleet nobody has in the other. -/
def KeepsAlone (f g : Fleet) : Prop := ∀ m, g.isHeld m = true → f.isHeld m = true

theorem KeepsAlone.trans {h : Fleet} (first : f.KeepsAlone g) (next : g.KeepsAlone h) :
    f.KeepsAlone h :=
  fun m held => first m (next m held)

/-- Who has a manager is said by the owner's mark and by those who wait. -/
theorem keepsAlone_of (count : g.managers.length = f.managers.length)
    (owned : ∀ m, (g.manager m).owned = true → (f.manager m).owned = true)
    (waits : ∀ wt ∈ g.waits, wt.stage.isOver = false →
      f.isHeld wt.manager = true) : f.KeepsAlone g := by
  intro m held
  rcases isHeld_iff.mp held with ⟨has, owns⟩ | ⟨wt, mem, rfl, goesOn⟩
  · exact isHeld_iff.mpr (Or.inl ⟨count ▸ has, owned m owns⟩)
  · exact waits wt mem goesOn

theorem isHeld_of_mem {wt : Wait} (mem : wt ∈ f.waits) (goesOn : wt.stage.isOver = false) :
    f.isHeld wt.manager = true :=
  isHeld_iff.mpr (Or.inr ⟨wt, mem, rfl, goesOn⟩)

theorem keepsAlone_modifyManager {h : Manager → Manager}
    (owned : ∀ x, (h x).owned = true → x.owned = true) (f : Fleet) (m : Nat) :
    f.KeepsAlone (f.modifyManager m h) := by
  refine keepsAlone_of (List.length_modify ..) (fun m' owns => ?_) fun wt mem goesOn =>
    isHeld_of_mem mem goesOn
  rcases manager_modifyManager_or f m m' h with same | ⟨-, changed⟩
  · rwa [same] at owns
  · rw [changed] at owns
    exact owned _ owns

theorem keepsAlone_wakeListener (f : Fleet) (m : Nat) : f.KeepsAlone (f.wakeListener m) := by
  unfold wakeListener
  split
  · exact keepsAlone_modifyManager
      (h := fun mgr => mgr.modifyRelay fun r => { r with listening := .reading }) (fun _ => id) f m
  · exact fun _ => id

theorem keepsAlone_publish (f : Fleet) (m : Nat) (e : Event) : f.KeepsAlone (f.publish m e) :=
  (keepsAlone_modifyManager (h := fun mgr => { mgr with bus := mgr.bus.publish e })
    (fun _ => id) f m).trans (keepsAlone_wakeListener _ m)

theorem keepsAlone_modifyWait {w : Nat} {h : Wait → Wait}
    (manager : ∀ wt, (h wt).manager = wt.manager)
    (stage : (f.wait w).stage.isOver = false ∨ ∀ wt, (h wt).stage = wt.stage) :
    f.KeepsAlone (f.modifyWait w h) := by
  refine keepsAlone_of rfl (fun _ => id) fun wt mem goesOn => ?_
  obtain ⟨i, found⟩ := List.mem_iff_getElem?.mp mem
  unfold modifyWait at found
  rw [List.getElem?_modify] at found
  obtain ⟨wt', there, eq⟩ := Option.map_eq_some_iff.mp found
  have mem' := List.mem_of_getElem? there
  split at eq
  · rename_i same
    subst same eq
    rw [manager]
    refine isHeld_of_mem mem' ?_
    rcases stage with stage | stage
    · rwa [wait, List.getD_eq_getElem?_getD, there, Option.getD_some] at stage
    · rwa [stage] at goesOn
  · cases eq
    exact isHeld_of_mem mem' goesOn

theorem TurnsInStep.keepsAlone (f : Fleet) : TurnsInStep (Both f.KeepsAlone) := by
  have elsewhere {g h : Fleet} (kept : f.KeepsAlone g) (managers : h.managers = g.managers)
      (_ : h.tasks = g.tasks) (waits : h.waits = g.waits) : f.KeepsAlone h := by
    refine kept.trans fun m held => ?_
    unfold isHeld isOwned at held ⊢
    rwa [managers, waits] at held
  have manager {g : Fleet} {h : Manager → Manager} (kept : f.KeepsAlone g)
      (apart : Manager.Apart h) (m : Nat) : f.KeepsAlone (g.modifyManager m h) :=
    kept.trans (keepsAlone_modifyManager (fun x owns => apart.owned x ▸ owns) g m)
  have lock : Lockstep (Both f.KeepsAlone) :=
    .ofKept (fun kept managers tasks times => elsewhere kept managers tasks times.waits) manager
      (fun kept _ => kept) fun kept _ m => kept.trans (keepsAlone_publish _ m _)
  refine .ofKept (.ofKept (.ofKept lock elsewhere ?_ ?_) ?_ ?_)
    (.ofKept lock (fun kept managers tasks times => elsewhere kept managers tasks times.waits)
      manager fun kept => kept) manager
  · intro g wt kept held
    refine kept.trans (keepsAlone_of rfl (fun _ => id) fun wt' mem goesOn => ?_)
    rcases List.mem_append.mp mem with mem | mem
    · exact isHeld_of_mem mem goesOn
    · rw [List.mem_singleton.mp mem]
      exact held
  · exact fun kept m => kept.trans (keepsAlone_wakeListener _ m)
  · exact fun kept manager stage => kept.trans (keepsAlone_modifyWait manager stage)
  · exact fun kept m => kept.trans
      (keepsAlone_modifyManager (h := fun x => { x with owned := false }) (by simp) _ m)

theorem keepsAlone_modifyRelay (f : Fleet) (m : Nat) (change : Relay → Relay) :
    f.KeepsAlone (f.modifyRelay m change) :=
  keepsAlone_modifyManager (h := fun mgr => mgr.modifyRelay change) (fun _ => id) f m

theorem keepsAlone_publishAll (f : Fleet) (m : Nat) (es : List Event) :
    f.KeepsAlone (f.publishAll m es) := by
  induction es generalizing f with
  | nil => exact fun _ => id
  | cons e es ih => exact (keepsAlone_publish f m e).trans (ih _)

theorem keepsAlone_stepListener (f : Fleet) (m : Nat) : f.KeepsAlone (f.stepListener m) := by
  have changed := keepsAlone_modifyRelay
  unfold stepListener
  split
  · exact fun _ => id
  · dsimp only
    split
    · split
      · exact ((changed f m _).trans (changed _ m _)).trans (keepsAlone_publishAll
          ((Fleet.modifyRelay _ m _).wakeAll _) m _)
      · exact changed f m _
      · unfold listenerRests
        split <;> exact (changed f m _).trans (changed _ m _)
    · exact changed f m _
    · exact changed f m _
    · exact fun _ => id
    · exact fun _ => id

theorem keepsAlone_stepWorker (f : Fleet) (m i : Nat) : f.KeepsAlone (f.stepWorker m i) := by
  unfold stepWorker
  split
  · exact fun _ => id
  · rename_i relay _
    rcases relay.fanout.work i with ⟨fanout, report, pace⟩
    have told := (keepsAlone_modifyRelay f m fun r => { r with fanout }).trans
      (keepsAlone_publishAll _ m report.toList)
    cases pace with
    | again | waits => exact told
    | «over» =>
        dsimp only
        unfold workerGone
        split <;> exact told

theorem keepsAlone_releaseSubscriber (f : Fleet) (m i times : Nat) :
    f.KeepsAlone (f.releaseSubscriber m i times) := by
  unfold releaseSubscriber
  split
  · exact fun _ => id
  · dsimp only
    split <;> exact keepsAlone_modifyRelay f m _

theorem keepsAlone_look (f : Fleet) :
    f.KeepsAlone { f with managers := f.managers.map lookAt } := by
  refine keepsAlone_of (List.length_map ..) (fun m owns => ?_) fun wt mem goesOn =>
    isHeld_of_mem mem goesOn
  rw [manager, List.getD_eq_getElem?_getD, List.getElem?_map] at owns
  rw [manager, List.getD_eq_getElem?_getD]
  cases found : f.managers[m]? with
  | none => rwa [found] at owns
  | some mgr =>
      rw [found] at owns
      exact owns

theorem keepsAlone_stepTask (f : Fleet) (t : Task) : f.KeepsAlone (f.stepTask t) := by
  cases t with
  | listener m => exact keepsAlone_stepListener f m
  | worker m i => exact keepsAlone_stepWorker f m i
  | bot | wait | dismissal =>
      exact ((TurnsInStep.keepsAlone f).stepTask ⟨rfl, fun _ => id⟩ rfl).2

/-- A manager that nobody has is never had again. -/
theorem isHeld_move (f : Fleet) (mv : Move) : f.KeepsAlone (f.move mv) := by
  cases mv with
  | release m i times => exact keepsAlone_releaseSubscriber f m i times
  | look => exact keepsAlone_look f
  | turn =>
      rcases turn_cases f with ⟨t, -, eq⟩ | ⟨-, eq | ⟨tasks, -, eq⟩⟩
      · rw [eq]
        exact keepsAlone_stepTask f t
      · rw [eq]
        exact fun _ => id
      · rw [eq]
        exact fun _ => id
  | _ => exact ((TurnsInStep.keepsAlone f).move ⟨rfl, fun _ => id⟩ rfl).2

/-! ## Owners -/

/-- The owner has the same managers in both fleets. -/
def KeepsOwned (f g : Fleet) : Prop :=
  g.managers.length = f.managers.length ∧ ∀ m, (g.manager m).owned = (f.manager m).owned

theorem KeepsOwned.trans {h : Fleet} (first : f.KeepsOwned g) (next : g.KeepsOwned h) :
    f.KeepsOwned h :=
  ⟨next.1.trans first.1, fun m => (next.2 m).trans (first.2 m)⟩

theorem keepsOwned_modifyManager {h : Manager → Manager} (owned : ∀ x, (h x).owned = x.owned)
    (f : Fleet) (m : Nat) : f.KeepsOwned (f.modifyManager m h) := by
  refine ⟨List.length_modify .., fun m' => ?_⟩
  rcases manager_modifyManager_or f m m' h with same | ⟨-, changed⟩
  · rw [same]
  · rw [changed, owned]

theorem keepsOwned_wakeListener (f : Fleet) (m : Nat) : f.KeepsOwned (f.wakeListener m) := by
  unfold wakeListener
  split
  · exact keepsOwned_modifyManager
      (h := fun mgr => mgr.modifyRelay fun r => { r with listening := .reading }) (fun _ => rfl) f m
  · exact ⟨rfl, fun _ => rfl⟩

theorem keepsOwned_publish (f : Fleet) (m : Nat) (e : Event) : f.KeepsOwned (f.publish m e) :=
  (keepsOwned_modifyManager (h := fun mgr => { mgr with bus := mgr.bus.publish e })
    (fun _ => rfl) f m).trans (keepsOwned_wakeListener _ m)

theorem KeepsOwned.of_managers {h : Fleet} (kept : f.KeepsOwned g)
    (managers : h.managers = g.managers) : f.KeepsOwned h := by
  refine kept.trans ⟨by rw [managers], fun m => ?_⟩
  unfold manager
  rw [managers]

theorem RunsInStep.keepsOwned (f : Fleet) : RunsInStep (Both f.KeepsOwned) := by
  have manager {g : Fleet} {h : Manager → Manager} (kept : f.KeepsOwned g)
      (apart : Manager.Apart h) (m : Nat) : f.KeepsOwned (g.modifyManager m h) :=
    kept.trans (keepsOwned_modifyManager apart.owned g m)
  have lock : Lockstep (Both f.KeepsOwned) :=
    .ofKept (fun kept managers _ _ => kept.of_managers managers) manager (fun kept _ => kept)
      fun kept _ m => kept.trans (keepsOwned_publish _ m _)
  exact .ofKept lock (fun kept managers _ _ => kept.of_managers managers) manager fun kept => kept

theorem WaiterInStep.keepsOwned (f : Fleet) (w : Nat) : WaiterInStep (Both f.KeepsOwned) w := by
  have runs := RunsInStep.keepsOwned f
  have waits : WaitsInStep (Both f.KeepsOwned) :=
    .ofKept runs.toLockstep (fun kept managers _ _ => kept.of_managers managers)
      (fun kept _ => kept) fun kept m => kept.trans (keepsOwned_wakeListener _ m)
  exact { MarksInStep.ofKept (w := w) waits fun kept _ _ => kept with
    park := runs.park
    wait := fun same => by rw [same.1]
    time := fun same => by rw [same.1] }

/-- The owner loses no manager in a turn of a launched bot or a waiter. -/
theorem keepsOwned_stepTask (f : Fleet) {t : Task} (away : t.isRelay = false) :
    f.KeepsOwned (f.stepTask t) := by
  have same : Both f.KeepsOwned f f := ⟨rfl, rfl, fun _ => rfl⟩
  have runs := RunsInStep.keepsOwned f
  cases t with
  | bot r =>
      refine (runs.stepBot same r (fun stage => ?_) fun c rest stage => ?_).2
      · exact runs.seekSlot_of_slots same (launched_of_stage (by rw [stage]; nofun)) rfl
          fun slots => ⟨rfl, keepsOwned_modifyManager (Manager.apart_slots slots).owned f _⟩
      · exact runs.stepBot_calling same stage (runs.perform_of_agrees same (.refl f) _ c)
  | wait w => exact ((WaiterInStep.keepsOwned f w).stepWait same).2
  | dismissal => exact (runs.stepDismissal same).2
  | listener | worker => cases away

end Flotilla.Fleet
