import Flotilla.Proofs.Registry

/-!
# Waiters and the drained pool

`View.Patient`: a waiter that polls its manager has a timer, and as soon as its token is
cancelled or the pool is drained its task is run or stands in line; a waiter that returned
without an error left a drained pool behind. Every step keeps this, for any interval between
two reports and after any number of them.

`Step.waits` sorts what a step may do to one waiter.
-/

namespace Flotilla

/-- Whether a waiter of this stage is past its call of `stop`. -/
def WaitStage.hasStopped : WaitStage → Bool
  | .polling _ | .over _ => true
  | _ => false

namespace View

/-- A waiter's next report is set. -/
def HasTimer (v : View) (w : Nat) : Prop := ∃ t ∈ v.timers, t.wait = w

/-- No waiter of a manager misses its end, or its own cancellation. -/
structure Patient (m : Nat) (v : View) : Prop where
  clamped : ∀ (w : Nat) (wt : Wait), v.waits[w]? = some wt →
    Settings.shortestPoll.nanos ≤ wt.poll.nanos
  polling : ∀ (w : Nat) (wt : Wait) (due : Nat), v.waits[w]? = some wt → wt.manager = m →
    wt.stage = .polling due →
      v.mgr.closed = true ∧ v.HasTimer w ∧
        (wt.cancelled = true ∨ v.mgr.isDrained = true → v.IsDue (.wait w))
  done : ∀ (w : Nat) (wt : Wait), v.waits[w]? = some wt → wt.manager = m → wt.stage = .over .ok →
    v.mgr.isDrained = true

end View

/-- What a step may do to a waiter. -/
inductive WaitChange (m : Nat) (v v' : View) (w : Nat) (wt : Wait) : Wait → Prop
  | same : WaitChange m v v' w wt wt
  | mark {wt' : Wait} (stage : wt'.stage = wt.stage) (manager : wt'.manager = wt.manager)
    (poll : wt'.poll = wt.poll) (woken : Task.wait w ∈ v'.line) : WaitChange m v v' w wt wt'
  | listen (first : wt.stage = .submitted) :
    WaitChange m v v' w wt { wt with stage := .listening }
  | signal {s : Signal} (listens : wt.stage = .listening) :
    WaitChange m v v' w wt { wt with stage := .signalled s }
  | poll {due : Nat} (turn : v'.running = some (.wait w))
    (stopped : wt.manager = m → v.mgr.closed = true ∨ ∃ due', wt.stage = .polling due')
    (timed : v'.HasTimer w) : WaitChange m v v' w wt { wt with stage := .polling due }
  | settle {result : WaitResult}
    (drained : result = .ok → wt.manager = m → v.mgr.isDrained = true) :
    WaitChange m v v' w wt { wt with stage := .over result }

/-- What a step may do to the waiters: nothing, one comes, or one changes. -/
inductive Waiting (m : Nat) (v v' : View) : Prop
  | kept (waits : v'.waits = v.waits)
  | came {wt : Wait} (waits : v'.waits = v.waits ++ [wt]) (fresh : wt.stage = .submitted)
    (clamped : Settings.shortestPoll.nanos ≤ wt.poll.nanos)
  | changed {w : Nat} {g : Wait → Wait} (waits : v'.waits = v.waits.modify w g)
    (change : ∀ wt, v.waits[w]? = some wt → WaitChange m v v' w wt (g wt))

variable {L : Licence} {m : Nat} {v v' : View} {w : Nat} {wt wt' : Wait}

/-! ## One waiter -/

theorem Step.waiting (h : Step L m v v') : Waiting m v v' := by
  cases h with
  | spawn acts fresh clamped => exact .came (View.wake_waits _ _) fresh clamped
  | @mark w g acts stage manager poll =>
      refine .changed (w := w) (g := g) (View.wake_waits _ _) fun wt _ => ?_
      exact .mark (stage wt) (manager wt) (poll wt) (View.mem_line_wake_self _ _)
  | @listen w wt acts turn found first =>
      refine .changed (w := w) rfl fun wt' found' => ?_
      cases found.symm.trans found'
      exact .listen first
  | @signal w wt s acts found listens =>
      refine .changed (w := w) (g := fun wt => { wt with stage := .signalled s })
        (View.wake_waits _ _) fun wt' found' => ?_
      cases found.symm.trans found'
      exact .signal listens
  | @poll w due wt acts turn found stopped =>
      refine .changed (w := w) rfl fun wt' found' => ?_
      cases found.symm.trans found'
      exact .poll turn stopped ⟨_, List.mem_append_right _ (List.mem_singleton_self _), rfl⟩
  | @settle w wt result acts turn found drained =>
      refine .changed (w := w) rfl fun wt' found' => ?_
      cases found.symm.trans found'
      exact .settle drained
  | launch => exact .kept (View.local_launch _ _ _ _).waits
  | stop => exact .kept (View.local_stop _ _ _).waits
  | leave => exact .kept (View.local_leave _ _ _ _ _).waits
  | nudge | nudgeWait | permit => exact .kept (View.wake_waits _ _)
  | @enter id =>
      obtain ⟨slots, taken⟩ := v.exists_takeSlot id
      refine .kept ?_
      rw [taken]
      rfl
  | _ => exact .kept rfl

/-- A waiter after a step was there before, or it has just come. -/
theorem Step.waits (h : Step L m v v') (found' : v'.waits[w]? = some wt') :
    (∃ wt, v.waits[w]? = some wt ∧ WaitChange m v v' w wt wt') ∨ v.waits.length ≤ w ∧
      wt'.stage = .submitted ∧ Settings.shortestPoll.nanos ≤ wt'.poll.nanos := by
  cases h.waiting with
  | kept waits =>
      rw [waits] at found'
      exact Or.inl ⟨wt', found', .same⟩
  | came waits fresh clamped =>
      rw [waits, List.getElem?_append] at found'
      split at found'
      · exact Or.inl ⟨wt', found', .same⟩
      · rename_i beyond
        rw [List.getElem?_singleton] at found'
        split at found'
        · cases found'
          exact Or.inr ⟨Nat.le_of_not_lt beyond, fresh, clamped⟩
        · cases found'
  | changed waits change =>
      rw [waits, List.getElem?_modify] at found'
      obtain ⟨wt, found, rfl⟩ := Option.map_eq_some_iff.mp found'
      refine Or.inl ⟨wt, found, ?_⟩
      split
      · rename_i same
        subst same
        exact change wt found
      · exact .same

/-- Waiters come, and none is forgotten. -/
theorem Step.length_waits_le (h : Step L m v v') : v.waits.length ≤ v'.waits.length := by
  cases h.waiting with
  | kept waits => exact Nat.le_of_eq (by rw [waits])
  | came waits fresh clamped =>
      rw [waits, List.length_append]
      exact Nat.le_add_right _ _
  | changed waits change => exact Nat.le_of_eq (by rw [waits, List.length_modify])

theorem WaitChange.hasStopped (h : WaitChange m v v' w wt wt')
    (stopped : wt.stage.hasStopped = true) : wt'.stage.hasStopped = true := by
  cases h with
  | same => exact stopped
  | mark stage manager poll woken =>
      rw [stage]
      exact stopped
  | listen first =>
      rw [first] at stopped
      cases stopped
  | signal listens =>
      rw [listens] at stopped
      cases stopped
  | poll turn due timed => rfl
  | settle drained => rfl

/-- A waiter that is past its call of `stop` does not call it again. -/
theorem Steps.hasStopped (h : Steps L m v v') (found : v.waits[w]? = some wt)
    (stopped : wt.stage.hasStopped = true) (found' : v'.waits[w]? = some wt') :
    wt'.stage.hasStopped = true := by
  induction h generalizing wt' with
  | refl =>
      cases found.symm.trans found'
      exact stopped
  | @tail x y steps step ih =>
      rcases step.waits found' with ⟨wtx, foundx, change⟩ | ⟨beyond, -⟩
      · exact change.hasStopped (ih foundx)
      · have inside := (List.getElem?_eq_some_iff.mp found).1
        have grows : v.waits.length ≤ x.waits.length :=
          Steps.invariant steps (fun step le => Nat.le_trans le step.length_waits_le)
            (Nat.le_refl _)
        omega

/-- A timer stays set until its waiter is done. -/
theorem Step.hasTimer (h : Step L m v v') (timed : v.HasTimer w)
    (goesOn : ∀ wt' result, v'.waits[w]? = some wt' → wt'.stage ≠ .over result) :
    v'.HasTimer w := by
  have kept (same : v'.timers = v.timers) : v'.HasTimer w := by
    unfold View.HasTimer
    rw [same]
    exact timed
  obtain ⟨t, mem, owner⟩ := timed
  have stays {w' : Nat} (ne : w' ≠ w) : t ∈ v.timers.filter fun t => t.wait != w' := by
    rw [List.mem_filter]
    exact ⟨mem, bne_iff_ne.mpr fun eq => ne (eq.symm.trans owner)⟩
  cases h with
  | @poll w' due wt acts turn found stopped =>
      by_cases same : w' = w
      · subst same
        exact ⟨_, List.mem_append_right _ (List.mem_singleton_self _), rfl⟩
      · exact ⟨t, List.mem_append_left _ (stays same), owner⟩
  | @settle w' wt result acts turn found drained =>
      by_cases same : w' = w
      · subst same
        refine absurd rfl (goesOn { wt with stage := .over result } result ?_)
        show (v.waits.modify w' _)[w']? = _
        simp [found]
      · exact ⟨t, stays same, owner⟩
  | launch => exact kept (View.local_launch _ _ _ _).timers
  | stop => exact kept (View.local_stop _ _ _).timers
  | leave => exact kept (View.local_leave _ _ _ _ _).timers
  | nudge | nudgeWait | permit | spawn | mark | signal => exact kept (View.wake_timers _ _)
  | @enter id =>
      obtain ⟨slots, taken⟩ := v.exists_takeSlot id
      apply kept
      rw [taken]
      rfl
  | _ => exact kept rfl

/-- A task that is due stays due, unless it is the one being run and has a reason to wait. -/
theorem Turning.due {t : Task} (h : Turning m v v') (is : v.IsDue t) :
    v'.IsDue t ∨ v.running = some t ∧ v.MayPark m ∧ v' = v.park := by
  cases h with
  | goesOn running line =>
      left
      unfold View.IsDue
      rw [running]
      exact is.imp_right line.mem
  | @next t' rest idle first eq =>
      left
      subst eq
      rcases is with is | mem
      · rw [idle] at is
        cases is
      · rw [first] at mem
        exact (List.mem_cons.mp mem).imp (fun same => congrArg some same.symm) id
  | elsewhere idle away eq =>
      left
      subst eq
      refine Or.inr (is.resolve_left ?_)
      rw [idle]
      nofun
  | park may eq =>
      rcases is with is | mem
      · exact Or.inr ⟨is, may, eq⟩
      · subst eq
        exact Or.inl (Or.inr mem)

/-! ## The drained pool -/

theorem View.isDrained_iff_stages : v.mgr.isDrained = true ↔
    v.mgr.closed = true ∧
      ∀ (id : Nat) (stage : Stage), v.stages[id]? = some stage → stage.isOver = true := by
  rw [View.isDrained_iff]
  refine and_congr_right fun _ => ⟨fun all id stage found => ?_, fun all id l found => ?_⟩
  · obtain ⟨l, found', rfl⟩ := View.exists_launch? found
    exact all id l found'
  · exact all id l.stage (View.stages_of_launch? found)

/-- A pool that is drained stays drained. -/
theorem Step.drained (h : Step L m v v') (queueing : v.Queueing)
    (drained : v.mgr.isDrained = true) : v'.mgr.isDrained = true := by
  rw [View.isDrained_iff] at drained ⊢
  obtain ⟨isClosed, all⟩ := drained
  refine ⟨h.closed isClosed, fun id l' found' => ?_⟩
  rcases h.origin found' with ⟨l, found, change⟩ | ⟨-, fresh⟩
  · have ended := all id l found
    cases change with
    | same => exact ended
    | permit waits =>
        rw [waits] at ended
        cases ended
    | lineUp acts turn first =>
        rw [first] at ended
        cases ended
    | offer acts first =>
        rw [queueing.of_offeree first found] at ended
        cases ended
    | enter acts licensed turn can =>
        have isOpen := can.isOpen
        rw [isClosed] at isOpen
        cases isOpen
    | proceed acts turn inRun goal =>
        rw [Stage.isOver_of_isInRun inRun] at ended
        cases ended
    | leave acts turn mute why => rfl
  · cases fresh with
    | launched launching isOpen mute =>
        rw [isClosed] at isOpen
        cases isOpen
    | late launching => rfl

/-- A pool that was closed is drained by the last task that comes to its end, and then the
waiters are told. -/
theorem Step.drains (h : Step L m v v') (isClosed : v.mgr.closed = true)
    (drained : v'.mgr.isDrained = true) : v.mgr.isDrained = true ∨ v.Tells m v' := by
  rw [View.isDrained_iff_stages]
  obtain ⟨-, all⟩ := View.isDrained_iff_stages.mp drained
  have new {id : Nat} {a b : Stage} (was : v.stages[id]? = some a)
      (stages : v'.stages = v.stages.set id b) : b.isOver = true := by
    apply all id b
    rw [stages, View.getElem?_set_of_was was, if_pos rfl]
  cases h.shift with
  | still stages slots =>
      rw [stages] at all
      exact Or.inl ⟨isClosed, all⟩
  | came stages slots kind =>
      refine Or.inl ⟨isClosed, fun id stage found => all id stage ?_⟩
      rw [stages, List.getElem?_append_left (List.getElem?_eq_some_iff.mp found).1]
      exact found
  | switch was before after stages slots due =>
      have ended := new was stages
      rw [Stage.isOver_of_isInRun after] at ended
      cases ended
  | lineUp turn was isOpen slots full stages joined => cases new was stages
  | take turn was room stages slots => cases new was stages
  | pass _ _ _ _ _ told | giveUp _ _ _ _ told | free _ _ _ _ _ told
  | handOn _ _ _ _ _ _ told => exact Or.inr told

/-! ## Nobody waits in vain -/

theorem Step.patient (h : Step L m v v') (queueing : v.Queueing) (patient : v.Patient m) :
    v'.Patient m := by
  -- Whoever was due stays due while it polls and has something to do.
  have stays {w due : Nat} {wt' : Wait} (found' : v'.waits[w]? = some wt')
      (owner : wt'.manager = m) (polls : wt'.stage = .polling due)
      (needs : wt'.cancelled = true ∨ v'.mgr.isDrained = true) (is : v.IsDue (.wait w)) :
      v'.IsDue (.wait w) := by
    rcases h.turning.due is with is | ⟨turn, may, eq⟩
    · exact is
    · subst eq
      exact Or.inr (may.wait w wt' due turn found' owner polls needs)
  refine ⟨fun w wt' found' => ?_, fun w wt' due found' owner polls => ?_,
    fun w wt' found' owner done => ?_⟩
  · rcases h.waits found' with ⟨wt, found, change⟩ | ⟨-, -, clamped⟩
    · have clamped := patient.clamped w wt found
      cases change with
      | mark stage manager poll woken =>
          rw [poll]
          exact clamped
      | _ => exact clamped
    · exact clamped
  · rcases h.waits found' with ⟨wt, found, change⟩ | ⟨-, fresh, -⟩
    · cases change with
      | same =>
          obtain ⟨isClosed, timed, told⟩ := patient.polling w wt' due found owner polls
          refine ⟨h.closed isClosed, h.hasTimer timed fun wt result found'' ended => ?_,
            fun needs => ?_⟩
          · cases found'.symm.trans found''
            cases polls.symm.trans ended
          · rcases needs with cancelled | drained
            · exact stays found' owner polls (Or.inl cancelled) (told (Or.inl cancelled))
            · rcases h.drains isClosed drained with was | tells
              · exact stays found' owner polls (Or.inr drained) (told (Or.inr was))
              · obtain ⟨t, mem, rfl⟩ := timed
                refine Or.inr (tells drained t mem ?_)
                rw [List.getD_eq_getElem?_getD, found]
                exact owner
      | mark stage manager poll woken =>
          have owner' := manager.symm.trans owner
          rw [stage] at polls
          obtain ⟨isClosed, timed, -⟩ := patient.polling w _ due found owner' polls
          refine ⟨h.closed isClosed, h.hasTimer timed fun wt'' result found'' ended => ?_,
            fun _ => Or.inr woken⟩
          cases found'.symm.trans found''
          rw [stage, polls] at ended
          cases ended
      | poll turn stopped timed =>
          refine ⟨h.closed ?_, timed, fun _ => Or.inl turn⟩
          rcases stopped owner with isClosed | ⟨due', polled⟩
          · exact isClosed
          · exact (patient.polling w wt due' found owner polled).1
      | listen | signal | settle => cases polls
    · rw [fresh] at polls
      cases polls
  · rcases h.waits found' with ⟨wt, found, change⟩ | ⟨-, fresh, -⟩
    · cases change with
      | same => exact h.drained queueing (patient.done w wt' found owner done)
      | mark stage manager poll woken =>
          rw [manager] at owner
          rw [stage] at done
          exact h.drained queueing (patient.done w wt found owner done)
      | settle drained => exact h.drained queueing (drained (WaitStage.over.inj done) owner)
      | listen | signal | poll => cases done
    · rw [fresh] at done
      cases done

end Flotilla
