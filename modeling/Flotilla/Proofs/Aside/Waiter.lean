import Flotilla.Proofs.Aside.Turns
import Flotilla.Proofs.Awaiting
import Flotilla.Proofs.Timers

/-!
# A waiter that is left out

Two fleets are compared but for one waiter, who came to stop a manager and waits differently in the
two, or gave up in one of them. Its first turn, in which it stops the manager, is the same in both
fleets; the turns after that make no difference (`Fleet.SameBut.stepWait_right`).

Whoever is left has the manager on both sides, unless its owner forsook it: then it may be that
only the waiter has it, and only on one side. By that time its pool is closed, and a call to a
manager whose pool is closed changes nothing (`Fleet.perform_of_closed`), so all that differs is
the answer.
-/

namespace Flotilla

namespace Fleet

variable {a : Aside} {f g g' : Fleet} {m w : Nat} {t : Task}

/-! ## Turns of the waiter -/

theorem Aside.hides_waiter (is : a.waiter = some w) (acting : a.acting = true) :
    a.hides (.wait w) = true := by
  simp [Aside.hides, is, acting]

namespace SameBut

section Acting

variable (is : a.waiter = some w) (acting : a.acting = true) (same : SameBut a f g)
  (turn : (f.tasks.shown a.hides).2 = none)

include is acting in
/-- Its own timers do not count. -/
theorem counts_timersBut (timers : List Timer) :
    (timers.filter fun t => t.wait != w).filter a.counts = timers.filter a.counts := by
  rw [List.filter_filter]
  refine List.filter_congr fun t _ => ?_
  by_cases own : t.wait = w
  · simp [Aside.counts, own, Aside.hides_waiter is acting]
  · simp [own]

include is acting same turn

theorem endWait_right (result : WaitResult) : SameBut a f (g.endWait w result) := by
  have ended := same.modifyWait_right (k := fun wt => { wt with stage := .over result }) is
    fun _ => rfl
  have dropped := ended.setTimers_right (·.filter fun t => t.wait != w)
    (counts_timersBut is acting)
  exact (dropped.leave_right _).park_right turn

theorem lookAround_right (goes : SameBut a f g') : SameBut a f (g.lookAround w g') := by
  unfold Fleet.lookAround
  split
  · exact endWait_right is acting (same.say_right _ _ _ _) turn _
  · split
    · exact endWait_right is acting same turn .ok
    · exact goes

omit acting turn in
theorem reportOutstanding_right (m : Nat) (poll : Duration) (labels : List String) :
    SameBut a f (g.reportOutstanding m poll labels) := by
  unfold Fleet.reportOutstanding
  split
  · exact same
  · refine (same.say_right _ _ _ _).publish_right ?_ m
    unfold Aside.hears
    rw [is]
    rfl

theorem pollBots_right : SameBut a f (g.pollBots w) := by
  unfold Fleet.pollBots
  dsimp only
  split
  · exact endWait_right is acting same turn _
  · rename_i labels _
    have reported := reportOutstanding_right is same (g.wait w).manager (g.wait w).poll labels
    refine lookAround_right is acting reported turn (park_right ?_ turn)
    generalize g.reportOutstanding (g.wait w).manager (g.wait w).poll labels = g' at reported ⊢
    generalize g'.clock + (g.wait w).poll.ceilMillis = due
    have timed := reported.setTimers_right
      (fun timers => (timers.filter fun t => t.wait != w) ++ [⟨w, due⟩]) fun timers => by
        rw [List.filter_append, counts_timersBut is acting]
        simp [Aside.counts, Aside.hides_waiter is acting]
    exact timed.modifyWait_right (k := fun wt => { wt with stage := .polling due }) is fun _ => rfl

/-- Past its call of `stop`, a turn of the waiter makes no difference. -/
theorem stepWait_right (past : (g.wait w).stage.hasStopped = true) :
    SameBut a f (g.stepWait w) := by
  unfold Fleet.stepWait
  dsimp only
  split
  · exact same.park_right turn
  · split
    · exact endWait_right is acting same turn .aborted
    · split
      · rename_i first
        rw [first] at past
        cases past
      · rename_i got
        rw [got] at past
        cases past
      · refine lookAround_right is acting same turn ?_
        split
        · exact pollBots_right is acting same turn
        · exact same.park_right turn
      · exact same.park_right turn
      · exact same.park_right turn

end Acting

section First

variable (is : a.waiter = some w) (acting : a.acting = true)

include is acting

/-- Both sides have a turn that makes no difference. -/
theorem endWait_both (same : SameBut a f g) (turn : (f.tasks.shown a.hides).2 = none)
    (result result' : WaitResult) : SameBut a (f.endWait w result) (g.endWait w result') := by
  have one := (endWait_right is acting same turn result').symm
  exact (endWait_right is acting one ((congrArg Prod.snd one.tasks).symm.trans turn) result).symm

theorem pollBots_both (same : SameBut a f g) (turn : (f.tasks.shown a.hides).2 = none) :
    SameBut a (f.pollBots w) (g.pollBots w) := by
  have one := (pollBots_right is acting same turn).symm
  exact (pollBots_right is acting one ((congrArg Prod.snd one.tasks).symm.trans turn)).symm

/-- The call of `stop` is the same on both sides, and what the waiter does next makes no
difference. -/
theorem beginWaiting_both (same : SameBut a f g) (turn : f.tasks.running = some (.wait w)) :
    SameBut a (f.beginWaiting w) (g.beginWaiting w) := by
  have owner : (g.wait w).manager = (f.wait w).manager := congrArg Prod.fst (same.errand w)
  obtain ⟨f', g', halt, eq, eq', stopped⟩ :=
    (Lockstep.sameBut a).stop same (f.wait w).manager none
  have kept := ((MovesInStep.keepsTasks f).stop ⟨rfl, rfl, fun _ => id⟩ (f.wait w).manager
    none).fleets.2.1
  rw [eq] at kept
  have turn' := Scheduler.shown_of_hidden (kept.trans turn) (Aside.hides_waiter is acting)
  unfold Fleet.beginWaiting
  rw [owner, eq, eq']
  cases halt with
  | some halt => exact endWait_both is acting stopped turn' _ _
  | none => exact pollBots_both is acting stopped turn'

end First

end SameBut

theorem stepWait_of_submitted (first : (f.wait w).stage = .submitted)
    (purpose : (f.wait w).purpose = .stop) :
    f.stepWait w = if (f.wait w).aborted then f.endWait w .aborted else f.beginWaiting w := by
  unfold stepWait
  simp [first, purpose, WaitStage.isOver]

/-- The first turn of the waiter is the same on both sides. -/
theorem SameBut.stepWait_both (is : a.waiter = some w) (acting : a.acting = true)
    (same : SameBut a f g) (turn : f.tasks.running = some (.wait w))
    (first : (f.wait w).stage = .submitted) (first' : (g.wait w).stage = .submitted)
    (purpose : (f.wait w).purpose = .stop) (aborted : (g.wait w).aborted = (f.wait w).aborted) :
    SameBut a (f.stepWait w) (g.stepWait w) := by
  have purpose' : (g.wait w).purpose = .stop := (congrArg Prod.snd (same.errand w)).trans purpose
  rw [stepWait_of_submitted first purpose, stepWait_of_submitted first' purpose', aborted]
  split
  · exact endWait_both is acting same 
      (Scheduler.shown_of_hidden turn (Aside.hides_waiter is acting)) _ _
  · exact beginWaiting_both is acting same turn

/-! ## After the first turn -/

theorem hasStopped_of_hasStopped (past : f.HasStopped w) :
    (f.wait w).stage.hasStopped = true := by
  obtain ⟨wt, found, past⟩ := past
  rw [wait_of_found found]
  exact past

theorem past_beginWaiting (goesOn : (f.wait w).stage.isOver = false) :
    ((f.beginWaiting w).wait w).stage.hasStopped = true := by
  obtain ⟨g, _, halt, eq, -, -, stopped⟩ :=
    (Lockstep.keepsTimes f).stop ⟨rfl, .refl f⟩ (f.wait w).manager none
  have goesOn' : (g.wait w).stage.isOver = false := by rwa [stopped.wait]
  unfold beginWaiting
  rw [eq]
  cases halt with
  | some halt =>
      dsimp only
      rw [stage_endWait goesOn']
      rfl
  | none => exact hasStopped_of_hasStopped (hasStopped_pollBots (found_of_wait rfl goesOn'))

/-- A manager of which it is too early to be stopped. -/
def Unstarted (f : Fleet) (m : Nat) : Prop :=
  (f.manager m).phase = .new ∨ (f.manager m).phase = .starting

/-- How a waiter comes to its end in its first turn whose manager was not stopped. -/
inductive EndsEarly : WaitResult → Prop
  | aborted : EndsEarly .aborted
  | refused {phase : Phase} (unstarted : phase = .new ∨ phase = .starting) :
    EndsEarly (.halted (.refused (.illegalState "stop" phase)))

theorem InOrder.phase_of_closed (order : f.InOrder m) (closed : (f.manager m).closed = true) :
    (f.manager m).phase = .stopping ∨ (f.manager m).phase = .terminated :=
  order.regular.orderly.closed.mp closed

theorem InOrder.closed_move (order : f.InOrder m) (closed : (f.manager m).closed = true)
    (mv : Move) : ((f.move mv).manager m).closed = true :=
  Steps.closed ((steps_move order.sound mv).2.2 m order.has) closed

theorem InOrder.closed_stepTask (order : f.InOrder m) (turn : f.tasks.running = some t)
    (closed : (f.manager m).closed = true) : ((f.stepTask t).manager m).closed = true := by
  rw [← move_turn turn]
  exact order.closed_move closed .turn

/-- After the first turn of a waiter the pool of its manager is closed, unless that turn was the
last one. Which of these it is, is told by the manager and by whether the task was dropped. -/
theorem stepWait_submitted (order : f.InOrder m) (turn : f.tasks.running = some (.wait w))
    (first : (f.wait w).stage = .submitted) (errand : (f.wait w).errand = (m, .stop)) :
    ((f.stepWait w).wait w).stage.hasStopped = true ∧
      (((f.wait w).aborted = false ∧ ¬f.Unstarted m ∧
          ((f.stepWait w).manager m).closed = true) ∨
        ((f.wait w).aborted = true ∧ ((f.stepWait w).wait w).stage = .over .aborted) ∨
        ((f.wait w).aborted = false ∧ f.Unstarted m ∧
          ((f.stepWait w).wait w).stage =
            .over (.halted (.refused (.illegalState "stop" (f.manager m).phase))))) := by
  have owner : (f.wait w).manager = m := congrArg Prod.fst errand
  have purpose : (f.wait w).purpose = .stop := congrArg Prod.snd errand
  have goesOn : (f.wait w).stage.isOver = false := by rw [first]; rfl
  have step := stepWait_of_submitted first purpose
  cases aborted : (f.wait w).aborted with
  | true =>
      rw [step, aborted, if_pos rfl, stage_endWait goesOn]
      exact ⟨rfl, Or.inr (Or.inl ⟨rfl, rfl⟩)⟩
  | false =>
      rw [aborted, if_neg Bool.false_ne_true] at step
      have past : ((f.stepWait w).wait w).stage.hasStopped = true :=
        step ▸ past_beginWaiting goesOn
      have refused (idle : (f.manager m).phase ≠ .running) :
          ((f.stepWait w).wait w).stage =
            .over (.halted (.refused (.illegalState "stop" (f.manager m).phase))) := by
        rw [step, beginWaiting, owner, stop_of_not_running idle]
        exact stage_endWait goesOn _
      have stays (closed : (f.manager m).closed = true) :
          ((f.stepWait w).manager m).closed = true := order.closed_stepTask turn closed
      refine ⟨past, ?_⟩
      unfold Unstarted
      cases phase : (f.manager m).phase with
      | new => exact Or.inr (Or.inr ⟨rfl, Or.inl rfl, phase ▸ refused (by rw [phase]; nofun)⟩)
      | starting => exact Or.inr (Or.inr ⟨rfl, Or.inr rfl, phase ▸ refused (by rw [phase]; nofun)⟩)
      | running =>
          have stops : StopsRunning m f .turn :=
            ⟨f, none, owner ▸ .byWaiter turn first purpose aborted, phase⟩
          have closed := stops.closed order.sound
          rw [move_turn turn] at closed
          exact Or.inl ⟨rfl, by simp, closed⟩
      | stopping =>
          exact Or.inl ⟨rfl, by simp, stays (order.regular.orderly.closed.mpr (Or.inl phase))⟩
      | terminated =>
          exact Or.inl ⟨rfl, by simp, stays (order.regular.orderly.closed.mpr (Or.inr phase))⟩

/-! ## Calls to a manager whose pool is closed -/

/-- A call to a manager that was stopped changes nothing. -/
theorem perform_of_closed (order : f.InOrder m) (closed : (f.manager m).closed = true)
    (span : Option Span) {c : Call} (callee : callee? c = some m) : (f.perform span c).1 = f := by
  have refused (op : String) (source target : Phase) (early : source = .new ∨ source = .running) :
      f.advance m op source target = (f, some (.refused (.illegalState op (f.manager m).phase))) := by
    unfold advance
    refine if_neg fun same => ?_
    rcases order.phase_of_closed closed with phase | phase <;> rcases early with early | early <;>
      cases (early.symm.trans same.symm).trans phase
  unfold perform
  split
  · rfl
  · cases c with
    | add m' b =>
        cases callee
        dsimp only
        unfold add
        rcases order.phase_of_closed closed with phase | phase <;> rw [phase]
    | start m' =>
        cases callee
        dsimp only
        unfold start
        rw [refused "start" .new .starting (Or.inl rfl)]
    | stop m' =>
        cases callee
        dsimp only
        unfold stop
        rw [refused "stop" .running .stopping (Or.inr rfl)]
    | handles m' =>
        dsimp only
        split <;> rfl
    | finish => cases callee
    | phase | queued | inFlight | number | ids | capacities | wraps | unknown => rfl

/-! ## Two fleets in which a waiter waits differently -/

/-- One waiter is left out, with its turns once it is past its call of `stop`. -/
def besides (f : Fleet) (w : Nat) (forsaken timed : Bool) : Aside :=
  { waiter := some w, acting := (f.wait w).stage.hasStopped, forsaken, timed }

/-- Where a waiter stands in two fleets: its turn has not come yet, or it came, and then it closed
the pool of its manager or was the last one. -/
inductive Stands (m w : Nat) (f g : Fleet) : Prop
  | unbegun (first : (f.wait w).stage = .submitted) (first' : (g.wait w).stage = .submitted)
    (aborted : (g.wait w).aborted = (f.wait w).aborted)
    (due : f.IsDue (.wait w)) (due' : g.IsDue (.wait w))
  | stopped (past : (f.wait w).stage.hasStopped = true)
    (past' : (g.wait w).stage.hasStopped = true)
    (closed : (f.manager m).closed = true) (closed' : (g.manager m).closed = true)
  | early {result : WaitResult} (ends : EndsEarly result)
    (done : (f.wait w).stage = .over result) (done' : (g.wait w).stage = .over result)

/-- Two fleets are the same but for a waiter who came to stop a manager. If its owner has forsaken
the manager, it may be there on one side only; if the time is not the same, only such tasks can go
on as are left out. -/
structure SameButWait (m w : Nat) (forsaken timed : Bool) (f g : Fleet) : Prop where
  same : SameBut (f.besides w forsaken timed) f g
  order : f.InOrder m
  order' : g.InOrder m
  owned : forsaken = !f.isOwned m
  errand : (f.wait w).errand = (m, .stop)
  stands : Stands m w f g
  still : timed = false → f.tasks.shown (f.besides w forsaken timed).hides = ([], none)

variable {forsaken timed : Bool} {f' : Fleet}

theorem besides_of_wait (wait : g.wait w = f.wait w) :
    g.besides w forsaken timed = f.besides w forsaken timed := by
  rw [besides, wait]
  rfl

namespace Stands

theorem symm (stands : Stands m w f g) : Stands m w g f := by
  cases stands with
  | unbegun first first' aborted due due' => exact .unbegun first' first aborted.symm due' due
  | stopped past past' closed closed' => exact .stopped past' past closed' closed
  | early ends done done' => exact .early ends done' done

theorem past (stands : Stands m w f g) :
    (g.wait w).stage.hasStopped = (f.wait w).stage.hasStopped := by
  cases stands with
  | unbegun first first' => rw [first, first']
  | stopped past past' => rw [past, past']
  | early _ done done' => rw [done, done']

theorem besides (stands : Stands m w f g) :
    g.besides w forsaken timed = f.besides w forsaken timed := by
  rw [Fleet.besides, stands.past]
  rfl

/-- Where the waiter stays as it is, it stands where it stood. -/
theorem kept (stands : Stands m w f g) (wait : f'.wait w = f.wait w) (wait' : g'.wait w = g.wait w)
    (due : f.IsDue (.wait w) → f'.IsDue (.wait w)) (due' : g.IsDue (.wait w) → g'.IsDue (.wait w))
    (closed : (f.manager m).closed = true → (f'.manager m).closed = true)
    (closed' : (g.manager m).closed = true → (g'.manager m).closed = true) :
    Stands m w f' g' := by
  cases stands with
  | unbegun first first' aborted isDue isDue' =>
      exact .unbegun (wait ▸ first) (wait' ▸ first') (by rw [wait, wait', aborted]) (due isDue)
        (due' isDue')
  | stopped past past' isClosed isClosed' =>
      exact .stopped (wait ▸ past) (wait' ▸ past') (closed isClosed) (closed' isClosed')
  | early ends done done' => exact .early ends (wait ▸ done) (wait' ▸ done')

end Stands

/-! ## Who has the manager -/

namespace SameButWait

variable (alike : SameButWait m w forsaken timed f g)

include alike

theorem symm : SameButWait m w forsaken timed g f where
  same := by
    rw [alike.stands.besides]
    exact alike.same.symm
  order := alike.order'
  order' := alike.order
  owned := alike.owned.trans (congrArg (!·) (alike.same.accords.isOwned m)).symm
  errand := (alike.same.errand w).trans alike.errand
  stands := alike.stands.symm
  still untimed := by
    rw [alike.stands.besides, alike.same.tasks]
    exact alike.still untimed

/-- Whoever somebody has on one side somebody has on the other, unless it was forsaken and is
stopped. -/
theorem held_of_held {k : Nat} (held : f.isHeld k = true) :
    g.isHeld k = true ∨ k = m ∧ forsaken = true ∧ (f.manager m).closed = true := by
  have owned (k : Nat) (owns : f.isOwned k = true) : g.isHeld k = true := by
    unfold isHeld
    rw [alike.same.accords.isOwned, owns]
    rfl
  unfold isHeld at held
  rw [Bool.or_eq_true, List.any_eq_true] at held
  rcases held with owns | ⟨wt, mem, waits⟩
  · exact Or.inl (owned k owns)
  obtain ⟨waits, goesOn⟩ := Bool.and_eq_true_iff.mp waits
  obtain rfl := eq_of_beq waits
  obtain ⟨w', found⟩ := List.mem_iff_getElem?.mp mem
  by_cases own : w = w'
  · -- Only the waiter that is left out may have it on one side only.
    subst own
    have here : f.wait w = wt := wait_of_found found
    have manager : wt.manager = m := here ▸ congrArg Prod.fst alike.errand
    rw [manager]
    cases owns : f.isOwned m with
    | true => exact Or.inl (owned m owns)
    | false =>
        have gone : forsaken = true := by rw [alike.owned, owns]; rfl
        cases alike.stands with
        | unbegun first first' =>
            have manager' : (g.wait w).manager = m :=
              congrArg Prod.fst ((alike.same.errand w).trans alike.errand)
            exact Or.inl (manager' ▸ isHeld_of_mem (List.mem_of_getElem? (found_of_wait first' rfl))
              (by rw [first']; rfl))
        | stopped _ _ closed => exact Or.inr ⟨rfl, gone, closed⟩
        | early _ done =>
            rw [← here, done] at goesOn
            cases goesOn
  · have found' : g.waits[w']? = some wt := by
      rw [alike.same.waits_getElem? fun same => own (Option.some.inj same)]
      exact found
    exact Or.inl (isHeld_of_mem (List.mem_of_getElem? found') (by simpa using goesOn))

/-- Either somebody has a manager on both sides or on neither, or it is the one that was forsaken
and is stopped. -/
theorem held (k : Nat) : g.isHeld k = f.isHeld k ∨
    k = m ∧ forsaken = true ∧ (f.manager m).closed = true ∧ (g.manager m).closed = true := by
  have closed := alike.same.accords.closed m
  cases here : f.isHeld k with
  | true => exact (alike.held_of_held here).imp_right fun ⟨is, gone, isClosed⟩ =>
      ⟨is, gone, isClosed, closed.trans isClosed⟩
  | false =>
      cases there : g.isHeld k with
      | false => exact Or.inl rfl
      | true =>
          rcases alike.symm.held_of_held there with held | ⟨is, gone, isClosed⟩
          · rw [here] at held
            cases held
          · exact Or.inr ⟨is, gone, closed.symm.trans isClosed, isClosed⟩

end SameButWait

theorem perform_of_not_held {c : Call} (callee : callee? c = some m) (alone : f.isHeld m = false)
    (span : Option Span) : f.perform span c = (f, .noManager) := by
  unfold perform
  rw [callee, Option.any_some, alone]
  rfl

/-- A call keeps the two sides the same, and the answer is the same too, unless it is made to the
manager that was forsaken. -/
theorem SameButWait.perform (alike : SameButWait m w forsaken timed f g) (span : Option Span)
    (c : Call) : ∃ f' g' r r', f.perform span c = (f', r) ∧ g.perform span c = (g', r') ∧
      SameBut (f.besides w forsaken timed) f' g' ∧
        r.SameBut (forsaken && callee? c == some m) r' := by
  by_cases held : ∀ k, callee? c = some k → g.isHeld k = f.isHeld k
  · obtain ⟨f', g', r, eq, eq', same⟩ := (Lockstep.sameBut _).perform alike.same span c held
      fun k _ => alike.same.settings k
    exact ⟨f', g', r, r, eq, eq', same, .same r⟩
  · obtain ⟨k, differs⟩ := Classical.not_forall.mp held
    obtain ⟨callee, differs⟩ := Classical.not_imp.mp differs
    obtain ⟨rfl, gone, closed, closed'⟩ := (alike.held k).resolve_left differs
    have stays := perform_of_closed alike.order closed span callee
    have stays' := perform_of_closed alike.order' closed' span callee
    have is : (forsaken && callee? c == some k) = true := by simp [gone, callee]
    rw [is]
    refine ⟨f, g, _, _, Prod.ext stays rfl, Prod.ext stays' rfl, alike.same, ?_⟩
    cases here : f.isHeld k with
    | false =>
        rw [perform_of_not_held callee here]
        exact .left rfl _
    | true =>
        cases there : g.isHeld k with
        | false =>
            rw [perform_of_not_held callee there]
            exact .right rfl _
        | true => exact absurd (there.trans here.symm) differs

end Fleet

end Flotilla
