import Flotilla.Proofs.Course

/-!
# The stages of the launches and the line

`Step.shift` sorts what a step may do to the stages of all launches together and to the slots:
a launch comes, takes a slot, waits for one, gives one back or hands it on. `Step.turning` sorts
what it may do to the line: it gets longer, its first task gets its turn, or the task being run
waits. The invariants about slots and about the order of the line are proved from the two.
-/

namespace Flotilla

/-- Whether a launch of this stage has a slot. -/
def Stage.isSeated : Stage → Bool
  | .offered | .calling _ | .waiting _ | .permitted _ => true
  | _ => false

theorem Stage.isSeated_of_isInRun {stage : Stage} (inRun : stage.isInRun = true) :
    stage.isSeated = true := by
  cases stage <;> first | rfl | cases inRun

/-- The stages of the launches of a manager. -/
def View.stages (v : View) : List Stage := v.mgr.launches.map Launch.stage

/-- A slot is free for a launch that asks for one. -/
def View.HasRoom (v : View) : Prop := ∀ p, v.mgr.slots = some p → 0 < p.free

/-- If the pool is drained, the waiters with a timer are told. -/
def View.Tells (v : View) (m : Nat) (v' : View) : Prop :=
  v'.mgr.isDrained = true → ∀ t ∈ v.timers, (v.waits.getD t.wait default).manager = m →
    Task.wait t.wait ∈ v'.line

/-- What a step may do to the stages of the launches and to the slots. -/
inductive Shift (m : Nat) (v v' : View) : Prop
  | still (stages : v'.stages = v.stages) (slots : v'.mgr.slots = v.mgr.slots)
  | came {stage : Stage} (stages : v'.stages = v.stages ++ [stage])
    (slots : v'.mgr.slots = v.mgr.slots)
    (kind : stage = .submitted ∧ v.mgr.closed = false ∧
        Task.bot ⟨m, v.stages.length⟩ ∈ v'.line ∨
      stage = .over ∧ v.mgr.closed = true)
  | switch {id : Nat} {a b : Stage} (was : v.stages[id]? = some a) (before : a.isSeated = true)
    (after : b.isInRun = true) (stages : v'.stages = v.stages.set id b)
    (slots : v'.mgr.slots = v.mgr.slots)
    (due : v.running = some (.bot ⟨m, id⟩) ∨
      (∃ heeds, b = .permitted heeds) ∧ Task.bot ⟨m, id⟩ ∈ v'.line)
  | lineUp {id : Nat} {p : Permits Nat} (turn : v.running = some (.bot ⟨m, id⟩))
    (was : v.stages[id]? = some .submitted) (isOpen : v.mgr.closed = false)
    (slots : v.mgr.slots = some p) (full : p.free = 0)
    (stages : v'.stages = v.stages.set id .queued)
    (joined : v'.mgr.slots = some (p.acquire id).1)
  | take {id : Nat} {calls : List Call} (turn : v.running = some (.bot ⟨m, id⟩))
    (was : v.stages[id]? = some .submitted) (room : v.HasRoom)
    (stages : v'.stages = v.stages.set id (.calling calls))
    (slots : v'.mgr.slots = v.mgr.slots.map fun p => (p.acquire id).1)
  | pass {id : Nat} (turn : v.running = some (.bot ⟨m, id⟩))
    (was : v.stages[id]? = some .submitted) (why : v.mgr.closed = true ∨ v.HasRoom)
    (stages : v'.stages = v.stages.set id .over) (slots : v'.mgr.slots = v.mgr.slots)
    (told : v.Tells m v')
  | giveUp {id : Nat} (was : v.stages[id]? = some .queued) (isClosed : v.mgr.closed = true)
    (stages : v'.stages = v.stages.set id .over)
    (slots : v'.mgr.slots = v.mgr.slots.map fun p => p.leave id) (told : v.Tells m v')
  | free {id : Nat} {a : Stage} (was : v.stages[id]? = some a) (seated : a.isSeated = true)
    (nobody : v.mgr.slotWaiters = []) (stages : v'.stages = v.stages.set id .over)
    (slots : v'.mgr.slots = v.mgr.slots.map fun p => p.release.1) (told : v.Tells m v')
  | handOn {id next : Nat} {a : Stage} {rest : List Nat} (was : v.stages[id]? = some a)
    (seated : a.isSeated = true) (first : v.mgr.slotWaiters = next :: rest)
    (stages : v'.stages = (v.stages.set next .offered).set id .over)
    (slots : v'.mgr.slots = v.mgr.slots.map fun p => p.release.1)
    (woken : Task.bot ⟨m, next⟩ ∈ v'.line) (told : v.Tells m v')

/-- What a step may do to the line and the task being run. -/
inductive Turning (m : Nat) (v v' : View) : Prop
  | goesOn (running : v'.running = v.running)
    (line : v.Lengthens (fun t => ∀ id, t = .bot ⟨m, id⟩ →
      (∃ l, v.launch? id = some l ∧ l.stage ≠ .submitted) ∨ id ∈ v.mgr.slotWaiters ∨
        id = v.stages.length ∧ id < v'.stages.length) v')
  | next {t : Task} {rest : List Task} (idle : v.running = none) (first : v.line = t :: rest)
    (eq : v' = { v with line := rest, running := some t })
  | elsewhere {t : Task} (idle : v.running = none) (away : t.concerns m = false)
    (eq : v' = { v with running := some t })
  | park (may : v.MayPark m) (eq : v' = v.park)

variable {L : Licence} {m : Nat} {v v' : View} {id : Nat} {l : Launch}

/-! ## Stages -/

namespace View

theorem getElem?_stages (v : View) (id : Nat) :
    v.stages[id]? = (v.launch? id).map Launch.stage := List.getElem?_map

theorem stages_of_launch? (found : v.launch? id = some l) : v.stages[id]? = some l.stage := by
  rw [getElem?_stages, found, Option.map_some]

theorem exists_launch? {stage : Stage} (h : v.stages[id]? = some stage) :
    ∃ l, v.launch? id = some l ∧ l.stage = stage := by
  rw [getElem?_stages] at h
  exact Option.map_eq_some_iff.mp h

theorem length_stages (v : View) : v.stages.length = v.mgr.launches.length := List.length_map _

theorem eq_set {xs ys : List Stage} {id : Nat} {b : Stage}
    (here : ys[id]? = xs[id]?.map fun _ => b) (away : ∀ j, j ≠ id → ys[j]? = xs[j]?) :
    ys = xs.set id b := by
  refine List.ext_getElem? fun j => ?_
  rw [List.getElem?_set]
  split
  · rename_i same
    subst same
    rw [here]
    split
    · rename_i inside
      rw [List.getElem?_eq_getElem inside, Option.map_some]
    · rename_i outside
      rw [List.getElem?_eq_none (by omega), Option.map_none]
  · rename_i ne
    exact away j (Ne.symm ne)

/-- Where one launch changes its stage, the stages are as before but for that one. -/
theorem stages_set {g : Nat → Launch → Launch} {b : Stage}
    (eq : ∀ j, v'.launch? j = (v.launch? j).map (g j))
    (here : ∀ l, (g id l).stage = b) (away : ∀ j, j ≠ id → ∀ l, (g j l).stage = l.stage) :
    v'.stages = v.stages.set id b := by
  refine eq_set ?_ fun j ne => ?_
  · rw [getElem?_stages, eq, Option.map_map, getElem?_stages, Option.map_map]
    exact congrArg (Option.map · _) (funext here)
  · rw [getElem?_stages, eq, Option.map_map, getElem?_stages]
    exact congrArg (Option.map · _) (funext (away j ne))

theorem stages_of_mgr (same : v'.mgr = v.mgr) : v'.stages = v.stages := by
  unfold stages
  rw [same]

theorem offeree_eq (v : View) : v.offeree = v.mgr.slotWaiters.head? := by
  unfold offeree Manager.slotWaiters
  cases v.mgr.slots <;> rfl

theorem successor_of_seated (found : v.launch? id = some l) (seated : l.stage.isSeated = true) :
    v.successor id = v.mgr.slotWaiters.head? ∧
      v.vacatedSlots id = v.mgr.slots.map fun p => p.release.1 := by
  unfold successor vacatedSlots
  rw [getD_launches found, offeree_eq]
  cases stage : l.stage <;> rw [stage] at seated <;> first | exact ⟨rfl, rfl⟩ | cases seated

theorem stages_leave (v : View) (m id : Nat) (ran : Bool) (outcome : Option RunOutcome) :
    (v.leave m id ran outcome).stages =
      match v.successor id with
      | none => v.stages.set id .over
      | some next => (v.stages.set next .offered).set id .over := by
  have launches := launch?_leave v m id ran outcome
  split
  · rename_i none
    refine stages_set launches (fun l => by rw [if_pos rfl]) fun j ne l => ?_
    rw [if_neg ne, if_neg (by rw [none]; nofun)]
  · rename_i next is
    have offered : (v.setStage next .offered).stages = v.stages.set next .offered :=
      stages_set (launch?_setStage v next · _) (fun l => by rw [if_pos rfl])
        fun j ne l => by rw [if_neg (Ne.symm ne)]
    rw [← offered]
    refine eq_set ?_ fun j ne => ?_
    · simp [getElem?_stages, launches, launch?_setStage, Option.map_map, Function.comp_def]
    · simp only [getElem?_stages, launches, launch?_setStage, Option.map_map, if_neg ne, is,
        Option.some.injEq]

theorem tells_endTask (v : View) (m id : Nat) : v.Tells m (v.endTask m id) := by
  intro drained t mem owner
  unfold endTask tellDrained at drained ⊢
  split at drained <;> rename_i held
  · rw [if_pos held]
    refine mem_line_wakeAll (List.mem_map_of_mem (List.mem_map_of_mem ?_))
    exact List.mem_filter.mpr ⟨mem, beq_iff_eq.mpr owner⟩
  · exact absurd drained held

theorem tells_leave (v : View) (m id : Nat) (ran : Bool) (outcome : Option RunOutcome) :
    v.Tells m (v.leave m id ran outcome) := by
  have given := local_vacated v m id ran
  have ended {x : View} (near : Local v x) : v.Tells m (x.endTask m id) := by
    have told := tells_endTask x m id
    unfold Tells at told
    rw [near.timers, near.waits] at told
    exact told
  rw [leave_eq]
  cases outcome with
  | none => exact ended given
  | some outcome =>
      exact ended (given.trans ((local_modify _ _).trans (local_unregister _ id _)))

end View

/-! ## Sorting the steps -/

theorem Shift.of_mgr (same : v'.mgr = v.mgr) : Shift m v v' :=
  .still (View.stages_of_mgr same) (by rw [same])

/-- The end of a launch, by what the launch had. -/
theorem Shift.of_leave {ran : Bool} {outcome : Option RunOutcome} {licensed : Prop}
    (turn : v.running = some (.bot ⟨m, id⟩)) (found : v.launch? id = some l)
    (why : v.MayLeave l ran outcome licensed) : Shift m v (v.leave m id ran outcome) := by
  have stages := View.stages_leave v m id ran outcome
  have slots : (v.leave m id ran outcome).mgr.slots = v.vacatedSlots id := by rw [View.leave_mgr]
  have was := View.stages_of_launch? found
  have told := View.tells_leave v m id ran outcome
  cases seated : l.stage.isSeated with
  | true =>
      obtain ⟨next, vacated⟩ := View.successor_of_seated found seated
      rw [vacated] at slots
      rw [next] at stages
      cases first : v.mgr.slotWaiters with
      | nil =>
          rw [first] at stages
          exact .free was seated first stages slots told
      | cons next' rest =>
          rw [first] at stages
          refine .handOn was seated first stages slots (View.mem_line_leave ?_ m ran outcome) told
          rw [next, first]
          rfl
  | false =>
      unfold View.vacatedSlots at slots
      unfold View.successor at stages
      rw [View.getD_launches found] at slots stages
      rcases why with ⟨-, inRun, -⟩ | ⟨-, can, -⟩ | ⟨-, refuses, -⟩
      · rw [Stage.isSeated_of_isInRun inRun] at seated
        cases seated
      · rcases can.seat with offered | ⟨first, room⟩
        · rw [offered] at seated
          cases seated
        · rw [first] at was stages slots
          exact .pass turn was (Or.inr room) stages slots told
      · rcases refuses with ⟨first | queued | offered, isClosed⟩ | ⟨-, offered | ⟨first, room⟩⟩
        · rw [first] at was stages slots
          exact .pass turn was (Or.inl isClosed) stages slots told
        · rw [queued] at was stages slots
          exact .giveUp was isClosed stages slots told
        · rw [offered] at seated
          cases seated
        · rw [offered] at seated
          cases seated
        · rw [first] at was stages slots
          exact .pass turn was (Or.inr room) stages slots told

/-- What a step may do to the stages of the launches and to the slots is sorted. -/
theorem Step.shift (h : Step L m v v') : Shift m v v' := by
  cases h with
  | tell | report | enqueue | begin | run => exact .still rfl rfl
  | @launch b named licensed launching isOpen mute =>
      have stages : (v.launch m b named).stages = v.stages ++ [.submitted] := by
        unfold View.stages
        rw [View.launch_mgr, List.map_append]
        rfl
      refine .came stages ?_ (Or.inl ⟨rfl, isOpen, ?_⟩)
      · rw [View.launch_mgr]
      · rw [View.length_stages]
        exact View.mem_line_launch v m b named
  | @launchLate b licensed launching isClosed =>
      have stages : (v.mgr.launches ++ [({ bot := b, stage := .over } : Launch)]).map Launch.stage =
          v.stages ++ [.over] := List.map_append
      exact .came stages rfl (Or.inr ⟨rfl, isClosed⟩)
  | @stop asked licensed isRunning sorted registered =>
      refine .still ?_ (by rw [View.stop_mgr])
      unfold View.stages
      rw [View.stop_mgr]
  | nudge | nudgeWait | spawn | mark | signal => exact .of_mgr (View.wake_mgr _ _)
  | next | elsewhere | park | listen | poll | settle => exact .of_mgr rfl
  | @permit id l heeds found waits =>
      have stages : ((v.setStage id (.permitted heeds)).wake (.bot ⟨m, id⟩)).stages =
          v.stages.set id (.permitted heeds) := by
        rw [View.stages_of_mgr (View.wake_mgr _ _)]
        exact View.stages_set (View.launch?_setStage v id · _) (fun l => by rw [if_pos rfl])
          fun j ne l => by rw [if_neg (Ne.symm ne)]
      refine .switch (View.stages_of_launch? found) (by rw [waits]; rfl) rfl stages ?_
        (Or.inr ⟨⟨heeds, rfl⟩, View.mem_line_wake_self _ _⟩)
      rw [View.wake_mgr]
      rfl
  | @lineUp id l p acts turn found first isOpen slots full =>
      have was := View.stages_of_launch? found
      rw [first] at was
      refine .lineUp turn was isOpen slots full ?_ rfl
      exact View.stages_set (View.launch?_setStage (v.setSlots _) id · _)
        (fun l => by rw [if_pos rfl]) fun j ne l => by rw [if_neg (Ne.symm ne)]
  | @enter id l calls acts licensed turn found can =>
      have was := View.stages_of_launch? found
      have stages : (((v.takeSlot id).markAdmitted id).setStage id (.calling calls)).stages =
          v.stages.set id (.calling calls) := by
        refine View.stages_set (g := fun j l => if id = j then
          { (if id = j then { l with admitted := true } else l) with stage := .calling calls }
            else (if id = j then { l with admitted := true } else l)) (fun j => ?_)
          (fun l => by rw [if_pos rfl]) fun j ne l => by simp only [if_neg (Ne.symm ne)]
        rw [View.launch?_setStage, View.markAdmitted, View.launch?_modifyLaunch,
          View.launch?_takeSlot, Option.map_map]
        rfl
      rcases can.seat with offered | ⟨first, room⟩
      · rw [offered] at was
        refine .switch was rfl rfl stages ?_ (Or.inl turn)
        show (v.takeSlot id).mgr.slots = _
        unfold View.takeSlot
        rw [View.getD_launches found, offered]
      · rw [first] at was
        refine .take turn was room stages ?_
        show (v.takeSlot id).mgr.slots = _
        unfold View.takeSlot
        rw [View.getD_launches found, first]
        rfl
  | @proceed id l stage acts turn found inRun goal =>
      have was := View.stages_of_launch? found
      refine .switch was (Stage.isSeated_of_isInRun inRun) ?_
        (View.stages_set (View.launch?_setStage v id · stage) (fun l => by rw [if_pos rfl])
          fun j ne l => by rw [if_neg (Ne.symm ne)]) rfl (Or.inl turn)
      rcases goal with ⟨calls, rfl⟩ | ⟨heeds, rfl⟩ <;> rfl
  | leave acts turn found mute ends why => exact .of_leave turn found why

/-- What a step may do to the line and the task being run is sorted. -/
theorem Step.turning (h : Step L m v v') : Turning m v v' := by
  have still {x : View} (running : x.running = v.running) (line : x.line = v.line) :
      Turning m v x := .goesOn running (.of_eq line)
  have waiter {w : Nat} (x : View) (running : x.running = v.running)
      (line : x.line = v.line) : Turning m v (x.wake (.wait w)) := by
    refine .goesOn ((View.wake_running _ _).trans running) ?_
    refine .trans (.of_eq line) ((View.lengthens_wake x _).mono ?_)
    rintro t rfl id eq
    cases eq
  cases h with
  | tell | report | enqueue | begin | launchLate | run | lineUp | proceed | listen | poll
  | settle => exact still rfl rfl
  | @launch b named licensed launching isOpen mute =>
      refine .goesOn (View.local_launch v m b named).running
        ((View.lengthens_launch v m b named).mono ?_)
      rintro t rfl id eq
      cases eq
      refine Or.inr (Or.inr ⟨(View.length_stages v).symm, ?_⟩)
      rw [View.length_stages, View.launch_mgr]
      simp
  | @stop asked licensed isRunning sorted registered =>
      refine .goesOn (View.local_stop v m asked).running
        ((View.lengthens_stop v m asked).mono ?_)
      rintro t mem id rfl
      obtain ⟨id', mem, eq⟩ := List.mem_map.mp mem
      cases eq
      exact Or.inr (Or.inl mem)
  | nudge found begun =>
      refine .goesOn (View.wake_running _ _) ((View.lengthens_wake v _).mono ?_)
      rintro t rfl id eq
      cases eq
      exact Or.inl ⟨_, found, begun⟩
  | nudgeWait w => exact waiter v rfl rfl
  | permit found waits =>
      refine .goesOn (View.wake_running _ _) (.trans (.of_eq rfl)
        ((View.lengthens_wake (v.setStage _ _) _).mono ?_))
      rintro t rfl id eq
      cases eq
      exact Or.inl ⟨_, found, by rw [waits]; nofun⟩
  | next acts idle first => exact .next idle first rfl
  | elsewhere acts idle away => exact .elsewhere idle away rfl
  | park acts may => exact .park may rfl
  | @enter id l calls acts licensed turn found can =>
      obtain ⟨slots, taken⟩ := v.exists_takeSlot id
      rw [taken]
      exact still rfl rfl
  | @leave id l ran outcome acts turn found mute ends why =>
      refine .goesOn (View.local_leave v m id ran outcome).running
        ((View.lengthens_leave v m id ran outcome).mono ?_)
      rintro t (⟨next, is, rfl⟩ | ⟨w, rfl⟩) id eq
      · cases eq
        refine Or.inr (Or.inl ?_)
        have first : v.offeree = some next := by
          unfold View.successor at is
          split at is
          · cases is
          · cases is
          · exact is
        rw [View.offeree_eq] at first
        exact List.mem_of_mem_head? first
      · cases eq
  | spawn | mark | signal => exact waiter _ rfl rfl

end Flotilla
