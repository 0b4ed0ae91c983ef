import Flotilla.Proofs.Line

/-!
# The registry and the tasks

`View.Tidy`: a launch in its run is registered and was admitted, and one that still waits for
its run was not.
`View.Accounted`: the registered launches are those whose task is not over, so the registry and
the tracker of the tasks agree (`View.Accounted.inFlight_eq`). The first is kept by every step,
the second only as long as no bot panics when it is asked its name: such a panic ends a task
whose launch stays registered, or leaves a task without a registered launch.
-/

namespace Flotilla

/-- Whether a launch of this stage was not run yet and its task is not over: its turn has not
come, it waits for a slot, or it was handed one and its turn has not come since. -/
def Stage.isPending : Stage → Bool
  | .submitted | .queued | .offered => true
  | _ => false

theorem Stage.isOver_of_isInRun {stage : Stage} (inRun : stage.isInRun = true) :
    stage.isOver = false := by
  cases stage <;> first | rfl | cases inRun

theorem Stage.isPending_of_isInRun {stage : Stage} (inRun : stage.isInRun = true) :
    stage.isPending = false := by
  cases stage <;> first | rfl | cases inRun

theorem Stage.isInRun_of_isPending {stage : Stage} (pending : stage.isPending = true) :
    stage.isInRun = false := by
  cases stage <;> first | rfl | cases pending

theorem Stage.isOver_of_isPending {stage : Stage} (pending : stage.isPending = true) :
    stage.isOver = false := by
  cases stage <;> first | rfl | cases pending

theorem Stage.isInRun_of_not_pending {stage : Stage} (started : stage.isPending ≠ true)
    (goesOn : stage.isOver = false) : stage.isInRun = true := by
  cases stage <;> first | rfl | exact absurd rfl started | cases goesOn

namespace View

/-- Launches are admitted when they are run, and not before, and a launch that is run is
registered. -/
structure Tidy (v : View) : Prop where
  running : ∀ id l, v.launch? id = some l → l.stage.isInRun = true →
    l.admitted = true ∧ l.registered = true
  pending : ∀ id l, v.launch? id = some l → l.stage.isPending = true → l.admitted = false

/-- The registered launches are those whose task is not over. -/
def Accounted (v : View) : Prop :=
  ∀ id l, v.launch? id = some l → l.registered = !l.stage.isOver

end View

variable {L : Licence} {m : Nat} {v v' : View} {id : Nat} {l l' : Launch}

/-- A task comes to its end where it is in its run or still waits for it. -/
theorem View.MayLeave.not_over {ran : Bool} {outcome : Option RunOutcome} {licensed : Prop}
    (h : v.MayLeave l ran outcome licensed) : l.stage.isOver = false := by
  rcases h with ⟨-, inRun, -⟩ | ⟨-, can, -⟩ | ⟨-, refuses, -⟩
  · exact Stage.isOver_of_isInRun inRun
  · rcases can.seat with offered | ⟨first, -⟩
    · rw [offered]
      rfl
    · rw [first]
      rfl
  · rcases refuses with ⟨stage | stage | stage, -⟩ | ⟨-, stage | ⟨stage, -⟩⟩ <;> rw [stage] <;> rfl

/-- The launch that is handed a slot was waiting for one. -/
theorem View.Queueing.of_offeree (queueing : v.Queueing) (first : v.offeree = some id)
    (found : v.launch? id = some l) : l.stage = .queued := by
  rw [View.offeree_eq] at first
  have waits := (queueing.mem id).mp (List.mem_of_mem_head? first)
  rw [View.stages_of_launch? found] at waits
  exact Option.some.inj waits

theorem Change.tidy (h : Change L m v id l l') (queueing : v.Queueing)
    (found : v.launch? id = some l)
    (running : l.stage.isInRun = true → l.admitted = true ∧ l.registered = true)
    (pending : l.stage.isPending = true → l.admitted = false) :
    (l'.stage.isInRun = true → l'.admitted = true ∧ l'.registered = true) ∧
      (l'.stage.isPending = true → l'.admitted = false) := by
  cases h with
  | same => exact ⟨running, pending⟩
  | permit waits => exact ⟨fun _ => running (by rw [waits]; rfl), nofun⟩
  | lineUp acts turn first => exact ⟨nofun, fun _ => pending (by rw [first]; rfl)⟩
  | offer acts first =>
      exact ⟨nofun, fun _ => pending (by rw [queueing.of_offeree first found]; rfl)⟩
  | enter acts licensed turn can => exact ⟨fun _ => ⟨rfl, can.registered⟩, nofun⟩
  | @proceed stage acts turn inRun goal =>
      refine ⟨fun _ => running inRun, fun waits => ?_⟩
      have inside := Stage.isPending_of_isInRun goal
      exact absurd waits (by simp [inside])
  | leave acts turn mute why => exact ⟨nofun, nofun⟩

theorem Step.tidy (h : Step L m v v') (queueing : v.Queueing) (tidy : v.Tidy) : v'.Tidy := by
  have kept (id : Nat) (l' : Launch) (found' : v'.launch? id = some l') :
      (l'.stage.isInRun = true → l'.admitted = true ∧ l'.registered = true) ∧
        (l'.stage.isPending = true → l'.admitted = false) := by
    rcases h.origin found' with ⟨l, found, change⟩ | ⟨-, fresh⟩
    · exact change.tidy queueing found (tidy.running id l found) (tidy.pending id l found)
    · cases fresh <;> exact ⟨nofun, fun _ => rfl⟩
  exact ⟨fun id l' found' => (kept id l' found').1, fun id l' found' => (kept id l' found').2⟩

theorem Change.accounted (h : Change L m v id l l') (calm : ¬ L.panics l.bot)
    (queueing : v.Queueing) (found : v.launch? id = some l) (was : l.registered = !l.stage.isOver) :
    l'.registered = !l'.stage.isOver := by
  cases h with
  | same => exact was
  | permit waits =>
      rw [waits] at was
      exact was
  | lineUp acts turn first =>
      rw [first] at was
      exact was
  | offer acts first =>
      rw [queueing.of_offeree first found] at was
      exact was
  | enter acts licensed turn can => exact can.registered
  | @proceed stage acts turn inRun goal =>
      rw [Stage.isOver_of_isInRun inRun] at was
      dsimp only
      rw [was, Stage.isOver_of_isInRun goal]
  | @leave ran outcome acts turn mute why =>
      cases outcome with
      | none => exact absurd (mute rfl) calm
      | some outcome => exact Bool.and_false _

theorem Step.accounted (h : Step L m v v') (calm : v'.Calm L) (queueing : v.Queueing)
    (accounted : v.Accounted) : v'.Accounted := by
  intro id l' found'
  rcases h.origin found' with ⟨l, found, change⟩ | ⟨-, fresh⟩
  · have calm := calm id l' found'
    rw [change.bot] at calm
    exact change.accounted calm queueing found (accounted id l found)
  · cases fresh with
    | @launched b named launching isOpen mute =>
        cases named with
        | false => exact absurd (mute rfl).1 (calm id _ found')
        | true => rfl
    | late launching isClosed => rfl

/-! ## The ids of the registered bots -/

/-- The ids of the registered bots. -/
def Manager.ids (mgr : Manager) : List Nat := mgr.handles.map Handle.id

theorem Manager.mem_ids {mgr : Manager} {id : Nat} :
    id ∈ mgr.ids ↔ ∃ l, mgr.launches[id]? = some l ∧ l.registered = true := by
  unfold Manager.ids Manager.handles
  rw [List.map_map, List.mem_map]
  constructor
  · intro mem
    rcases mem with ⟨⟨id', l⟩, mem, rfl⟩
    exact ⟨l, Manager.mem_registry.mp mem⟩
  · intro mem
    rcases mem with ⟨l, found⟩
    exact ⟨(id, l), Manager.mem_registry.mpr found, rfl⟩

theorem Manager.ids_eq_nil_iff {mgr : Manager} : mgr.ids = [] ↔ mgr.registry = [] := by
  unfold Manager.ids Manager.handles
  rw [List.map_eq_nil_iff, List.map_eq_nil_iff]

theorem Manager.length_ids (mgr : Manager) : mgr.ids.length = mgr.registry.length := by
  unfold Manager.ids Manager.handles
  rw [List.length_map, List.length_map]

/-! ## Counting -/

theorem length_registry (mgr : Manager) :
    mgr.registry.length = mgr.launches.countP Launch.registered := by
  have places (xs : List Launch) (k : Nat) : ((xs.zipIdx k).filterMap fun x =>
      if x.1.registered then some (x.2, x.1) else none).length =
        xs.countP Launch.registered := by
    induction xs generalizing k with
    | nil => rfl
    | cons x xs ih =>
        rw [List.zipIdx_cons, List.countP_cons]
        cases registered : x.registered <;> simp [registered, ih]
  exact places mgr.launches 0

/-- As many tasks are not over as launches are registered. -/
theorem View.Accounted.inFlight_eq (accounted : v.Accounted) :
    v.mgr.inFlight = v.mgr.registry.length := by
  rw [length_registry, Manager.inFlight]
  refine List.countP_congr fun l mem => ?_
  obtain ⟨id, found⟩ := List.mem_iff_getElem?.mp mem
  rw [accounted id l found]

theorem View.inFlight_eq_zero_iff :
    v.mgr.inFlight = 0 ↔ ∀ id l, v.launch? id = some l → l.stage.isOver = true := by
  rw [Manager.inFlight, List.countP_eq_zero]
  constructor
  · intro none id l found
    simpa using none l (List.mem_of_getElem? found)
  · intro all l mem
    obtain ⟨id, found⟩ := List.mem_iff_getElem?.mp mem
    simpa using all id l found

theorem View.isDrained_iff : v.mgr.isDrained = true ↔
    v.mgr.closed = true ∧ ∀ id l, v.launch? id = some l → l.stage.isOver = true := by
  rw [Manager.isDrained, Bool.and_eq_true, beq_iff_eq, View.inFlight_eq_zero_iff]

/-- Where the registry is the tasks that are not over, no such task is left when it is empty. -/
theorem View.Accounted.registry_eq_nil_iff (accounted : v.Accounted) :
    v.mgr.registry = [] ↔ ∀ id l, v.launch? id = some l → l.stage.isOver = true := by
  rw [View.registry_eq_nil_iff]
  constructor
  · intro none id l found
    have out := accounted id l found
    rw [none id l found] at out
    simpa using out
  · intro all id l found
    rw [accounted id l found, all id l found]
    rfl

end Flotilla
