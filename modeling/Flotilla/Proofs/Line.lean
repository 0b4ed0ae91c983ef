import Flotilla.Proofs.Shift

/-!
# Who stands in line

`View.Queueing`: the launches that wait for a slot are those in the pool's queue. `View.Lined`:
every launch that can go on is run or stands in line, a launch that makes calls is being run,
and launches whose turn has not come stand in line in the order in which they were launched.
Both are kept by every step.

That nobody who can go on is forgotten is what makes a settled state one in which every bot is
inside its run, waits for a slot, or is done.
-/

namespace Flotilla

/-- Whether a launch of this stage can go on, in a pool that is closed or open. -/
def Stage.isReady (closed : Bool) : Stage → Bool
  | .submitted | .offered | .permitted _ => true
  | .queued => closed
  | _ => false

namespace View

/-- The launches that wait for a slot are those in the queue of the pool. -/
structure Queueing (v : View) : Prop where
  nodup : v.mgr.slotWaiters.Nodup
  mem : ∀ id, id ∈ v.mgr.slotWaiters ↔ v.stages[id]? = some .queued

/-- Of two launches of a manager whose turn has not come, the first was launched first. -/
def Ahead (v : View) (m : Nat) (t u : Task) : Prop :=
  ∀ i j, t = .bot ⟨m, i⟩ → u = .bot ⟨m, j⟩ → v.stages[i]? = some .submitted →
    v.stages[j]? = some .submitted → i ≤ j

/-- Who can go on stands in line, and new launches stand there in order. -/
structure Lined (m : Nat) (v : View) : Prop where
  due : ∀ id, v.IsDue (.bot ⟨m, id⟩) → id < v.stages.length
  ready : ∀ id stage, v.stages[id]? = some stage → stage.isReady v.mgr.closed = true →
    v.IsDue (.bot ⟨m, id⟩)
  calling : ∀ id calls, v.stages[id]? = some (.calling calls) →
    v.running = some (.bot ⟨m, id⟩)
  order : (v.running.toList ++ v.line).Pairwise (v.Ahead m)

end View

variable {L : Licence} {m : Nat} {v v' : View} {id j : Nat} {l : Launch}

/-! ## Waiting for a slot -/

namespace View

theorem getElem?_set_of_was {xs : List Stage} {a b : Stage} (was : xs[id]? = some a) (j : Nat) :
    (xs.set id b)[j]? = if j = id then some b else xs[j]? := by
  rw [List.getElem?_set]
  by_cases same : id = j
  · subst same
    rw [if_pos rfl, if_pos rfl, if_pos (List.getElem?_eq_some_iff.mp was).1]
  · rw [if_neg same, if_neg (Ne.symm same)]

/-- Where one launch changes its stage, a stage found later is the new one, or was there. -/
theorem stage_of_set {a b stage : Stage} (was : v.stages[id]? = some a)
    (stages : v'.stages = v.stages.set id b) (found : v'.stages[j]? = some stage) :
    j = id ∧ stage = b ∨ v.stages[j]? = some stage := by
  rw [stages, getElem?_set_of_was was] at found
  split at found
  · rename_i same
    exact Or.inl ⟨same, (Option.some.inj found).symm⟩
  · exact Or.inr found

theorem slotWaiters_of_slots (same : v'.mgr.slots = v.mgr.slots) :
    v'.mgr.slotWaiters = v.mgr.slotWaiters := by
  unfold Manager.slotWaiters
  rw [same]

theorem slotWaiters_map {g : Permits Nat → Permits Nat} {k : List Nat → List Nat}
    (same : v'.mgr.slots = v.mgr.slots.map g) (waiting : ∀ p, (g p).waiting = k p.waiting)
    (nil : k [] = []) : v'.mgr.slotWaiters = k v.mgr.slotWaiters := by
  unfold Manager.slotWaiters
  rw [same]
  cases v.mgr.slots with
  | none => exact nil.symm
  | some p => exact waiting p

theorem slotWaiters_lineUp {p : Permits Nat} (slots : v.mgr.slots = some p) (full : p.free = 0)
    (joined : v'.mgr.slots = some (p.acquire id).1) :
    v'.mgr.slotWaiters = v.mgr.slotWaiters ++ [id] := by
  unfold Manager.slotWaiters
  rw [joined, slots]
  exact (Permits.acquire_of_zero full id).2.2

theorem slotWaiters_take (room : v.HasRoom)
    (slots : v'.mgr.slots = v.mgr.slots.map fun p => (p.acquire id).1) :
    v'.mgr.slotWaiters = v.mgr.slotWaiters := by
  unfold Manager.slotWaiters
  rw [slots]
  cases free : v.mgr.slots with
  | none => rfl
  | some p => exact (Permits.acquire_of_pos (room p free) _).2.2

/-- While a slot is free nobody waits for one. -/
theorem slotWaiters_of_room (room : v.HasRoom) : v.mgr.slotWaiters = [] := by
  unfold HasRoom at room
  unfold Manager.slotWaiters
  cases slots : v.mgr.slots with
  | none => rfl
  | some p => exact p.waiting_of_pos (room p slots)

/-! ## The queue where a launch changes its stage -/

variable {a b : Stage} {next : Nat} {rest : List Nat}

/-- A launch that waits for a slot neither before nor after changes nothing. -/
theorem Queueing.set (queueing : v.Queueing) (found : v.stages[id]? = some a)
    (stages : v'.stages = v.stages.set id b) (before : a ≠ .queued) (after : b ≠ .queued)
    (waiters : v'.mgr.slotWaiters = v.mgr.slotWaiters) : v'.Queueing := by
  refine ⟨by rw [waiters]; exact queueing.nodup, fun j => ?_⟩
  rw [waiters, stages, getElem?_set_of_was found, queueing.mem]
  split
  · rename_i same
    subst same
    rw [found]
    simp [before, after]
  · rfl

/-- A launch that lines up is the last in the queue. -/
theorem Queueing.lineUp (queueing : v.Queueing) (found : v.stages[id]? = some .submitted)
    (stages : v'.stages = v.stages.set id .queued)
    (waiters : v'.mgr.slotWaiters = v.mgr.slotWaiters ++ [id]) : v'.Queueing := by
  have out : id ∉ v.mgr.slotWaiters := by
    rw [queueing.mem, found]
    nofun
  refine ⟨?_, fun j => ?_⟩
  · rw [waiters, List.nodup_append]
    refine ⟨queueing.nodup, by simp, fun a mem b mem' => ?_⟩
    rw [List.mem_singleton.mp mem']
    intro same
    subst same
    exact out mem
  · rw [waiters, stages, getElem?_set_of_was found, List.mem_append, queueing.mem,
      List.mem_singleton]
    split
    · rename_i same
      simp [same]
    · rename_i ne
      simp [ne]

/-- A launch that gives up leaves the queue. -/
theorem Queueing.giveUp (queueing : v.Queueing) (found : v.stages[id]? = some .queued)
    (stages : v'.stages = v.stages.set id .over)
    (waiters : v'.mgr.slotWaiters = v.mgr.slotWaiters.erase id) : v'.Queueing := by
  refine ⟨by rw [waiters]; exact queueing.nodup.sublist List.erase_sublist, fun j => ?_⟩
  rw [waiters, stages, getElem?_set_of_was found, queueing.nodup.mem_erase_iff, queueing.mem]
  split
  · rename_i same
    simp [same]
  · rename_i ne
    simp [ne]

/-- A launch that has a slot keeps its stage when the first in the queue is offered one. -/
theorem stage_of_seated (found : v.stages[id]? = some a)
    (seated : a.isSeated = true) (waits : v.stages[next]? = some .queued) :
    (v.stages.set next .offered)[id]? = some a := by
  rw [getElem?_set_of_was waits, if_neg]
  · exact found
  · intro same
    subst same
    cases found.symm.trans waits
    cases seated

/-- A launch that ends hands its slot on to the first in the queue. -/
theorem Queueing.handOn (queueing : v.Queueing) (found : v.stages[id]? = some a)
    (seated : a.isSeated = true) (first : v.mgr.slotWaiters = next :: rest)
    (stages : v'.stages = (v.stages.set next .offered).set id .over)
    (waiters : v'.mgr.slotWaiters = rest) : v'.Queueing := by
  have nodup := queueing.nodup
  have was (j : Nat) := queueing.mem j
  rw [first] at nodup was
  have waits := (was next).mp List.mem_cons_self
  have other : a ≠ .queued := by
    intro same
    subst same
    cases seated
  have found' := stage_of_seated found seated waits
  refine ⟨by rw [waiters]; exact (List.nodup_cons.mp nodup).2, fun j => ?_⟩
  rw [waiters, stages, getElem?_set_of_was found', getElem?_set_of_was waits]
  have here := was j
  rw [List.mem_cons] at here
  split
  · rename_i same
    subst same
    rw [found] at here
    simp only [Option.some.injEq, other, iff_false, not_or] at here
    simp [here.2]
  · split
    · rename_i same
      subst same
      simp [(List.nodup_cons.mp nodup).1]
    · rename_i ne
      simpa [ne] using here

end View

theorem Step.queueing (h : Step L m v v') (queueing : v.Queueing) : v'.Queueing := by
  cases h.shift with
  | still stages slots =>
      refine ⟨?_, fun j => ?_⟩
      · rw [View.slotWaiters_of_slots slots]
        exact queueing.nodup
      · rw [View.slotWaiters_of_slots slots, stages]
        exact queueing.mem j
  | @came stage stages slots kind =>
      refine ⟨?_, fun j => ?_⟩
      · rw [View.slotWaiters_of_slots slots]
        exact queueing.nodup
      · rw [View.slotWaiters_of_slots slots, stages, queueing.mem, List.getElem?_append]
        split
        · rfl
        · have other : stage ≠ .queued := by
            rcases kind with ⟨rfl, -⟩ | ⟨rfl, -⟩ <;> nofun
          rw [List.getElem?_eq_none (by omega), List.getElem?_singleton]
          split <;> simp [other]
  | switch found before after stages slots due =>
      refine queueing.set found stages ?_ ?_ (View.slotWaiters_of_slots slots)
      · intro same
        subst same
        cases before
      · intro same
        subst same
        cases after
  | @lineUp id p turn found isOpen slots full stages joined =>
      exact queueing.lineUp found stages (View.slotWaiters_lineUp slots full joined)
  | take turn found room stages slots =>
      exact queueing.set found stages nofun nofun (View.slotWaiters_take room slots)
  | pass turn found why stages slots told =>
      exact queueing.set found stages nofun nofun (View.slotWaiters_of_slots slots)
  | @giveUp id found isClosed stages slots told =>
      exact queueing.giveUp found stages
        (View.slotWaiters_map (k := fun ids => ids.erase id) slots (fun _ => rfl) rfl)
  | @free id a found seated nobody stages slots told =>
      refine queueing.set found stages ?_ nofun ?_
      · intro same
        subst same
        cases seated
      · rw [View.slotWaiters_map (k := List.tail) slots Permits.release_waiting rfl, nobody]
        rfl
  | handOn found seated first stages slots woken told =>
      apply queueing.handOn found seated first stages
      rw [View.slotWaiters_map (k := List.tail) slots Permits.release_waiting rfl, first]
      rfl

/-! ## Standing in line -/

/-- A launch whose stage is new is being run, was woken, or is over. -/
theorem Shift.origin {stage : Stage} (h : Shift m v v') (found : v'.stages[id]? = some stage) :
    v.stages[id]? = some stage ∨ v.running = some (.bot ⟨m, id⟩) ∨
      (Task.bot ⟨m, id⟩ ∈ v'.line ∧ ∀ calls, stage ≠ .calling calls) ∨ stage = .over := by
  cases h with
  | still stages slots =>
      rw [stages] at found
      exact Or.inl found
  | @came fresh stages slots kind =>
      rw [stages, List.getElem?_append] at found
      split at found
      · exact Or.inl found
      · rw [List.getElem?_singleton] at found
        split at found
        · rename_i last
          cases found
          have eq : id = v.stages.length := by omega
          subst eq
          rcases kind with ⟨rfl, -, woken⟩ | ⟨rfl, -⟩
          · exact Or.inr (Or.inr (Or.inl ⟨woken, nofun⟩))
          · exact Or.inr (Or.inr (Or.inr rfl))
        · cases found
  | switch was before after stages slots due =>
      rcases View.stage_of_set was stages found with ⟨same, new⟩ | old
      · subst same new
        rcases due with turn | ⟨⟨heeds, rfl⟩, woken⟩
        · exact Or.inr (Or.inl turn)
        · exact Or.inr (Or.inr (Or.inl ⟨woken, nofun⟩))
      · exact Or.inl old
  | lineUp turn was isOpen slots full stages joined | take turn was room stages slots =>
      rcases View.stage_of_set was stages found with ⟨same, -⟩ | old
      · rw [same]
        exact Or.inr (Or.inl turn)
      · exact Or.inl old
  | pass turn was why stages slots told | giveUp was isClosed stages slots told
  | free was seated nobody stages slots told =>
      rcases View.stage_of_set was stages found with ⟨-, ended⟩ | old
      · exact Or.inr (Or.inr (Or.inr ended))
      · exact Or.inl old
  | @handOn id' next a rest was seated first stages slots woken told =>
      rw [stages, List.getElem?_set] at found
      split at found
      · split at found
        · exact Or.inr (Or.inr (Or.inr (Option.some.inj found).symm))
        · cases found
      · rw [List.getElem?_set] at found
        split at found
        · rename_i same
          split at found
          · cases found
            rw [← same]
            exact Or.inr (Or.inr (Or.inl ⟨woken, nofun⟩))
          · cases found
        · exact Or.inl found

/-- A launch whose turn has not come was in that stage before, or has just come. -/
theorem Step.submitted (h : Step L m v v') (found : v'.stages[id]? = some .submitted) :
    v.stages[id]? = some .submitted ∨ id = v.stages.length := by
  obtain ⟨l', found', stage⟩ := View.exists_launch? found
  rcases h.origin found' with ⟨l, was, change⟩ | ⟨eq, -⟩
  · left
    rw [View.stages_of_launch? was]
    apply Classical.byContradiction
    intro begun
    exact change.begun (fun eq => begun (congrArg some eq)) stage
  · right
    rw [View.length_stages]
    exact eq

theorem Step.length_stages_le (h : Step L m v v') (inside : id < v.stages.length) :
    id < v'.stages.length := by
  rw [View.length_stages] at inside ⊢
  obtain ⟨l', found', -⟩ := h.change (List.getElem?_eq_getElem inside)
  exact View.lt_of_launch? found'

theorem View.Queueing.lt (queueing : v.Queueing) (mem : id ∈ v.mgr.slotWaiters) :
    id < v.stages.length :=
  (List.getElem?_eq_some_iff.mp ((queueing.mem id).mp mem)).1

/-- Where only the task being run and the line change, it is enough that nobody who is due is
lost. -/
theorem View.Lined.of_mgr (lined : v.Lined m) (mgr : v'.mgr = v.mgr)
    (due : ∀ t, v'.IsDue t → v.IsDue t ∨ t.concerns m = false)
    (ready : ∀ id stage, v.stages[id]? = some stage → stage.isReady v.mgr.closed = true →
      v'.IsDue (.bot ⟨m, id⟩))
    (calling : ∀ id calls, v.stages[id]? = some (.calling calls) →
      v'.running = some (.bot ⟨m, id⟩))
    (order : (v'.running.toList ++ v'.line).Pairwise (v.Ahead m)) : v'.Lined m := by
  have stages := View.stages_of_mgr mgr
  refine ⟨fun id is => ?_, fun id stage => ?_, fun id calls => ?_, ?_⟩
  · rw [stages]
    rcases due _ is with is | away
    · exact lined.due id is
    · simp [Task.concerns] at away
  · rw [stages, mgr]
    exact ready id stage
  · rw [stages]
    exact calling id calls
  · unfold View.Ahead at order ⊢
    rw [stages]
    exact order

/-! ## Where the line gets longer -/

section Lengthens

variable (h : Step L m v v') (queueing : v.Queueing) (lined : v.Lined m)
  (running : v'.running = v.running)
  (line : v.Lengthens (fun t => ∀ id, t = .bot ⟨m, id⟩ →
    (∃ l, v.launch? id = some l ∧ l.stage ≠ .submitted) ∨ id ∈ v.mgr.slotWaiters ∨
      id = v.stages.length ∧ id < v'.stages.length) v')

include h queueing lined running line

theorem Step.lt_of_isDue (is : v'.IsDue (.bot ⟨m, id⟩)) : id < v'.stages.length := by
  obtain ⟨more, eq, all⟩ := line
  unfold View.IsDue at is
  rw [running, eq, List.mem_append, ← or_assoc] at is
  rcases is with is | mem
  · exact h.length_stages_le (lined.due id is)
  · rcases all _ mem id rfl with ⟨l, found, -⟩ | waits | ⟨-, inside⟩
    · exact h.length_stages_le (List.getElem?_eq_some_iff.mp (View.stages_of_launch? found)).1
    · exact h.length_stages_le (queueing.lt waits)
    · exact inside

omit line in
theorem Step.isDue_of_ready (stays : ∀ t, v.IsDue t → v'.IsDue t) {stage : Stage}
    (found : v'.stages[id]? = some stage) (ready : stage.isReady v'.mgr.closed = true) :
    v'.IsDue (.bot ⟨m, id⟩) := by
  rcases h.shift.origin found with was | turn | ⟨woken, -⟩ | rfl
  · rcases h.closes with same | closes
    · rw [same] at ready
      exact stays _ (lined.ready id stage was ready)
    · cases stage with
      | queued => exact Or.inr (closes id ((queueing.mem id).mpr was))
      | submitted | offered | permitted => exact stays _ (lined.ready id _ was rfl)
      | calling | waiting | «over» => cases ready
  · rw [← running] at turn
    exact Or.inl turn
  · exact Or.inr woken
  · cases ready

/-- New launches join the line at its end, and of them one at a time. -/
theorem Step.order : (v'.running.toList ++ v'.line).Pairwise (v'.Ahead m) := by
  obtain ⟨more, eq, all⟩ := line
  have old {id : Nat} {t : Task} (mem : t ∈ v.running.toList ++ v.line)
      (is : t = .bot ⟨m, id⟩) : id < v.stages.length := by
    subst is
    refine lined.due id ((List.mem_append.mp mem).imp_left fun mem => ?_)
    exact Option.mem_toList.mp mem
  have fresh {id : Nat} {t : Task} (mem : t ∈ more) (is : t = .bot ⟨m, id⟩)
      (first : v'.stages[id]? = some .submitted) : id = v.stages.length := by
    rcases h.submitted first with was | eq
    · rcases all t mem id is with ⟨l, found, begun⟩ | waits | ⟨eq, -⟩
      · rw [View.stages_of_launch? found] at was
        exact absurd (Option.some.inj was) begun
      · rw [(queueing.mem id).mp waits] at was
        cases was
      · exact eq
    · exact eq
  rw [running, eq, ← List.append_assoc, List.pairwise_append]
  refine ⟨lined.order.imp_of_mem fun mem mem' ahead i j is is' first first' => ?_,
    List.pairwise_of_forall_mem_list ?_, ?_⟩
  · have before := (h.submitted first).resolve_right (Nat.ne_of_lt (old mem is))
    have before' := (h.submitted first').resolve_right (Nat.ne_of_lt (old mem' is'))
    exact ahead i j is is' before before'
  · intro t mem u mem' i j is is' first first'
    exact Nat.le_of_eq ((fresh mem is first).trans (fresh mem' is' first').symm)
  · intro t mem u mem' i j is is' first first'
    rw [fresh mem' is' first']
    exact Nat.le_of_lt (old mem is)

theorem Step.lined_of_lengthens : v'.Lined m := by
  have stays (t : Task) (is : v.IsDue t) : v'.IsDue t := by
    unfold View.IsDue
    rw [running]
    exact is.imp_right line.mem
  refine ⟨fun id => h.lt_of_isDue queueing lined running line,
    fun id stage => h.isDue_of_ready queueing lined running stays, fun id calls found => ?_,
    h.order queueing lined running line⟩
  rw [running]
  rcases h.shift.origin found with was | turn | ⟨-, other⟩ | ended
  · exact lined.calling id calls was
  · exact turn
  · exact absurd rfl (other calls)
  · cases ended

end Lengthens

/-- The task being run has a reason to wait, so it is not one that can go on. -/
theorem View.MayPark.not_ready (may : v.MayPark m) {stage : Stage}
    (turn : v.running = some (.bot ⟨m, id⟩)) (found : v.stages[id]? = some stage) :
    stage.isReady v.mgr.closed = false ∧ ∀ calls, stage ≠ .calling calls := by
  obtain ⟨l, found', rfl⟩ := View.exists_launch? found
  rcases may.launch id l turn found' with stage | ⟨heeds, stage⟩ | ⟨stage, isOpen⟩
  · rw [stage]
    exact ⟨rfl, fun calls eq => by cases eq⟩
  · rw [stage]
    exact ⟨rfl, fun calls eq => by cases eq⟩
  · rw [stage]
    exact ⟨isOpen, fun calls eq => by cases eq⟩

theorem Step.lined (h : Step L m v v') (queueing : v.Queueing) (lined : v.Lined m) :
    v'.Lined m := by
  cases h.turning with
  | goesOn running line => exact h.lined_of_lengthens queueing lined running line
  | @next t rest idle first eq =>
      subst eq
      refine lined.of_mgr rfl (fun u is => Or.inl (Or.inr ?_)) (fun id stage found ready => ?_)
        (fun id calls found => ?_) ?_
      · rw [first]
        rcases is with is | mem
        · cases is
          exact List.mem_cons_self
        · exact List.mem_cons_of_mem t mem
      · rcases lined.ready id stage found ready with is | mem
        · rw [idle] at is
          cases is
        · rw [first] at mem
          exact (List.mem_cons.mp mem).imp (fun eq => congrArg some eq.symm) fun mem => mem
      · have is := lined.calling id calls found
        rw [idle] at is
        cases is
      · have order := lined.order
        rw [idle, first] at order
        exact order
  | @elsewhere t idle away eq =>
      subst eq
      refine lined.of_mgr rfl (fun u is => ?_) (fun id stage found ready => ?_)
        (fun id calls found => ?_) ?_
      · rcases is with is | mem
        · cases is
          exact Or.inr away
        · exact Or.inl (Or.inr mem)
      · refine Or.inr ((lined.ready id stage found ready).resolve_left fun turn => ?_)
        rw [idle] at turn
        cases turn
      · have is := lined.calling id calls found
        rw [idle] at is
        cases is
      · have order := lined.order
        rw [idle] at order
        refine List.pairwise_cons.mpr ⟨?_, order⟩
        rintro u - i j rfl
        simp [Task.concerns] at away
  | park may eq =>
      subst eq
      refine lined.of_mgr rfl (fun u is => Or.inl (Or.inr ?_)) (fun id stage found ready => ?_)
        (fun id calls found => ?_) ?_
      · exact is.resolve_left fun turn => by cases turn
      · refine Or.inr ((lined.ready id stage found ready).resolve_left fun turn => ?_)
        rw [(may.not_ready turn found).1] at ready
        cases ready
      · exact absurd rfl ((may.not_ready (lined.calling id calls found) found).2 calls)
      · exact lined.order.sublist (List.sublist_append_right _ _)

end Flotilla
