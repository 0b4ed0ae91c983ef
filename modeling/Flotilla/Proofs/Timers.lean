import Flotilla.Proofs.Lockstep.Kept
import Flotilla.Proofs.Sessions

/-!
# Timers

Only its own turns change a waiter's timer and where the waiter is (`Fleet.WaitTurn`,
`Fleet.sameTimes_stepTask`). So nobody misses a timer: a waiter whose timer is overdue stands in
line (`Fleet.Timely`), every timer of a fleet that settled is still to come
(`Fleet.Timely.ahead`), and when the clock has run to a limit no timer is left that is due until
then (`Fleet.Rested.runClock`).
-/

namespace Flotilla

/-- Whether a move is made to a waiter. -/
def Move.concerns (w : Nat) : Move → Bool
  | .cancel w' | .abort w' | .signal _ w' => w' == w
  | _ => false

namespace Fleet

/-- A waiter is put at a stage, and the timers are set. -/
def setWait (f : Fleet) (w : Nat) (stage : WaitStage) (timers : List Timer) : Fleet :=
  (f.setTimers timers).modifyWait w fun wt => { wt with stage }

/-- The timers of everybody but a waiter. -/
def timersBut (f : Fleet) (w : Nat) : List Timer := f.timers.filter fun t => t.wait != w

/-- When a waiter that reports now is to report again. -/
def nextReport (f : Fleet) (w : Nat) : Nat := f.clock + (f.wait w).poll.ceilMillis

/-- What a turn of a waiter does to those who wait, to the timers and to the clock. -/
inductive WaitTurn (f : Fleet) (w : Nat) : Fleet → Prop
  | rests {g : Fleet} (times : f.SameTimes g)
    (early : ∀ due, (f.wait w).stage = .polling due → f.clock < due) : WaitTurn f w g
  | listens {g : Fleet} (first : (f.wait w).stage = .submitted)
    (times : (f.setWait w .listening f.timers).SameTimes g) : WaitTurn f w g
  | polls {g : Fleet} (goesOn : (f.wait w).stage.isOver = false)
    (times : (f.setWait w (.polling (f.nextReport w))
      (f.timersBut w ++ [⟨w, f.nextReport w⟩])).SameTimes g) : WaitTurn f w g
  | ends {g : Fleet} (result : WaitResult)
    (times : (f.setWait w (.over result) (f.timersBut w)).SameTimes g) : WaitTurn f w g

/-- What a move that is not a turn does to those who wait, to the timers and to the clock. -/
inductive WaitMove (f : Fleet) (mv : Move) : Fleet → Prop
  | stays {g : Fleet} (times : f.SameTimes g) : WaitMove f mv g
  | comes {g : Fleet} (wt : Wait) (first : wt.stage = .submitted)
    (times : (f.addWait wt).1.SameTimes g) : WaitMove f mv g
  | changes {g : Fleet} (w : Nat) (change : Wait → Wait) (made : mv.concerns w = true)
    (keeps : (change (f.wait w)).stage = (f.wait w).stage ∨
      (f.wait w).stage = .listening ∧ ∃ s, (change (f.wait w)).stage = .signalled s)
    (times : (f.modifyWait w change).SameTimes g) : WaitMove f mv g
  | passes {g : Fleet} (time : Nat) (is : mv = .strike time ∨ mv = .setClock time)
    (waits : g.waits = f.waits) : WaitMove f mv g

/-- Nobody misses a timer: its waiter waits for it, and once it is overdue stands in line. -/
structure Timely (f : Fleet) : Prop where
  polling : ∀ t ∈ f.timers, (f.wait t.wait).stage = .polling t.due
  woken : ∀ t ∈ f.timers, t.due ≤ f.clock → f.IsDue (.wait t.wait)

/-- A fleet is sound and a manager of it regular, as they are in every run. -/
structure InOrder (m : Nat) (f : Fleet) : Prop where
  sound : f.Sound
  has : f.Has m
  regular : (f.view m).Regular m

/-- A fleet in order between two commands. -/
structure Between (m : Nat) (f : Fleet) : Prop extends InOrder m f, Timely f where
  idle : f.tasks.running = none

/-- A fleet in order at rest. -/
structure Rested (m : Nat) (f : Fleet) : Prop extends InOrder m f, Timely f where
  settled : f.tasks.isSettled = true

variable {f g h : Fleet} {m w : Nat} {t : Task} {timer : Timer} {mv : Move}

/-! ## Fleets in order -/

theorem inOrder_play {managers : List ManagerPlan} (has : m < managers.length)
    (bots : List BotPlan) (ms : List Move) : ((raw managers bots).play ms).InOrder m :=
  ⟨sound_play managers bots ms, has_play.mpr has, regular_play has bots ms⟩

theorem InOrder.move (order : f.InOrder m) (mv : Move) : (f.move mv).InOrder m := by
  obtain ⟨sound, has, steps⟩ := steps_move order.sound mv
  exact ⟨sound, (has m).mpr order.has, (steps m order.has).regular order.regular⟩

theorem InOrder.play (order : f.InOrder m) (ms : List Move) : (f.play ms).InOrder m := by
  induction ms generalizing f with
  | nil => exact order
  | cons mv ms ih => exact ih (order.move mv)

theorem InOrder.stepTask (order : f.InOrder m) (turn : f.tasks.running = some t) :
    (f.stepTask t).InOrder m := by
  rw [← move_turn turn]
  exact order.move .turn

theorem InOrder.ceilMillis_pos (order : f.InOrder m) (goesOn : (f.wait w).stage.isOver = false) :
    0 < (f.wait w).poll.ceilMillis := by
  have clamped := order.regular.patient.clamped w _ (found_of_wait rfl goesOn)
  refine Nat.pos_of_ne_zero fun none => ?_
  have long : (f.wait w).poll.nanos ≤ 0 := by
    simpa [none] using (f.wait w).poll.le_ceilMillis
  exact absurd (Nat.le_trans clamped long) (by decide)

/-! ## Turns of others -/

theorem RunsInStep.keepsTimes (f : Fleet) : RunsInStep (Both f.SameTimes) :=
  .ofKept (Lockstep.keepsTimes f) (fun kept _ _ times => kept.trans times)
    (fun kept _ _ => kept.trans ⟨rfl, rfl, rfl⟩) fun kept => kept.trans ⟨rfl, rfl, rfl⟩

theorem sameTimes_stepBot (f : Fleet) (r : RunName) : f.SameTimes (f.stepBot r) := by
  have lock := RunsInStep.keepsTimes f
  have same : Both f.SameTimes f f := ⟨rfl, .refl f⟩
  refine (lock.stepBot same r (fun stage => ?_) fun c rest stage => ?_).2
  · exact lock.seekSlot_of_slots same (launched_of_stage (by rw [stage]; nofun)) rfl fun slots =>
      ⟨rfl, rfl, rfl, rfl⟩
  · exact lock.stepBot_calling same stage (lock.perform_of_agrees same (.refl f) _ c)

/-- The turns of all others leave those who wait as they are, and the time. -/
theorem sameTimes_stepTask (other : ∀ w, t ≠ .wait w) : f.SameTimes (f.stepTask t) := by
  cases t with
  | bot r => exact sameTimes_stepBot f r
  | wait w => exact absurd rfl (other w)
  | listener m => exact (passesOn_stepListener f m).times
  | worker m i => exact (passesOn_stepWorker f m i).times
  | dismissal => exact ((RunsInStep.keepsTimes f).stepDismissal ⟨rfl, .refl f⟩).2

/-! ## Turns of a waiter -/

theorem SameTimes.wait (times : f.SameTimes g) (w : Nat) : g.wait w = f.wait w :=
  wait_of_waits times.waits w

theorem SameTimes.setWait (times : f.SameTimes g) (w : Nat) (stage : WaitStage)
    (timers : List Timer) : (f.setWait w stage timers).SameTimes (g.setWait w stage timers) :=
  ⟨times.clock, rfl, congrArg (·.modify w fun wt => { wt with stage }) times.waits⟩

theorem SameTimes.timersBut (times : f.SameTimes g) (w : Nat) : g.timersBut w = f.timersBut w := by
  rw [Fleet.timersBut, times.timers]
  rfl

theorem SameTimes.nextReport (times : f.SameTimes g) (w : Nat) :
    g.nextReport w = f.nextReport w := by
  rw [Fleet.nextReport, times.clock, times.wait]
  rfl

theorem WaitTurn.after (times : f.SameTimes g) (turn : WaitTurn g w h) : WaitTurn f w h := by
  cases turn with
  | rests next early =>
      refine .rests (times.trans next) ?_
      rw [← times.wait, ← times.clock]
      exact early
  | listens first next =>
      rw [times.wait] at first
      rw [times.timers] at next
      exact .listens first ((times.setWait w _ _).trans next)
  | polls goesOn next =>
      rw [times.wait] at goesOn
      rw [times.timersBut, times.nextReport] at next
      exact .polls goesOn ((times.setWait w _ _).trans next)
  | ends result next =>
      rw [times.timersBut] at next
      exact .ends result ((times.setWait w _ _).trans next)

theorem waitTurn_endWait (f : Fleet) (w : Nat) (result : WaitResult) :
    WaitTurn f w (f.endWait w result) := by
  refine .ends result ?_
  unfold endWait
  dsimp only
  split
  · exact ⟨rfl, rfl, rfl⟩
  · unfold wakeListener
    split <;> exact ⟨rfl, rfl, rfl⟩

theorem waitTurn_lookAround (goes : WaitTurn f w g) : WaitTurn f w (f.lookAround w g) := by
  unfold lookAround
  split
  · exact .after (g := f.say _ _ _ _) ⟨rfl, rfl, rfl⟩ (waitTurn_endWait _ w _)
  · split
    · exact waitTurn_endWait f w .ok
    · exact goes

theorem waitTurn_pollBots (goesOn : (f.wait w).stage.isOver = false) :
    WaitTurn f w (f.pollBots w) := by
  unfold pollBots
  dsimp only
  split
  · exact waitTurn_endWait f w _
  · rename_i labels _
    have reported := (Lockstep.keepsTimes f).reportOutstanding ⟨rfl, .refl f⟩ (f.wait w).manager
      (f.wait w).poll labels
    refine .after reported.2 (waitTurn_lookAround (.polls ?_ ?_))
    · rwa [reported.2.wait]
    · rw [nextReport, reported.2.wait]
      exact ⟨rfl, rfl, rfl⟩

theorem waitTurn_beginWaiting (goesOn : (f.wait w).stage.isOver = false) :
    WaitTurn f w (f.beginWaiting w) := by
  obtain ⟨g, _, halt, eq, -, -, stopped⟩ :=
    (Lockstep.keepsTimes f).stop ⟨rfl, .refl f⟩ (f.wait w).manager none
  unfold beginWaiting
  rw [eq]
  cases halt with
  | some halt => exact .after stopped (waitTurn_endWait g w _)
  | none => exact .after stopped (waitTurn_pollBots (by rwa [stopped.wait]))

theorem waitTurn_beginListening (first : (f.wait w).stage = .submitted) :
    WaitTurn f w (f.beginListening w) := by
  obtain ⟨g, _, halt, eq, -, -, started⟩ :=
    (Lockstep.keepsTimes f).start ⟨rfl, .refl f⟩ (f.wait w).manager none
  unfold beginListening
  rw [eq]
  cases halt with
  | some halt => exact .after started (waitTurn_endWait g w _)
  | none => exact .after started (.listens (by rwa [started.wait]) ⟨rfl, rfl, rfl⟩)

theorem sameTimes_heeded (f : Fleet) (m : Nat) (s : Signal) : f.SameTimes (f.heeded m s) := by
  unfold heeded
  exact SameTimes.trans (g := (f.say _ _ _ _).say _ _ _ _) ⟨rfl, rfl, rfl⟩
    (passesOn_publish _ _ _).times

theorem waitTurn_heedSignal (goesOn : (f.wait w).stage.isOver = false) (s : Signal) :
    WaitTurn f w (f.heedSignal w s) := by
  rw [heedSignal_eq]
  have told := sameTimes_heeded f (f.wait w).manager s
  exact .after told (waitTurn_beginWaiting (by rwa [told.wait]))

theorem waitTurn_stepWait (f : Fleet) (w : Nat) : WaitTurn f w (f.stepWait w) := by
  have parks (early : ∀ due, (f.wait w).stage = .polling due → f.clock < due) :
      WaitTurn f w f.park :=
    .rests ⟨rfl, rfl, rfl⟩ early
  unfold stepWait
  dsimp only
  cases stage : (f.wait w).stage with
  | «over» result => exact parks fun due is => nomatch stage.symm.trans is
  | submitted =>
      cases (f.wait w).aborted with
      | true => exact waitTurn_endWait f w .aborted
      | false =>
          cases (f.wait w).purpose with
          | stop => exact waitTurn_beginWaiting (by rw [stage]; rfl)
          | untilSignal => exact waitTurn_beginListening stage
  | listening =>
      cases (f.wait w).aborted with
      | true => exact waitTurn_endWait f w .aborted
      | false => exact parks fun due is => nomatch stage.symm.trans is
  | signalled s =>
      cases (f.wait w).aborted with
      | true => exact waitTurn_endWait f w .aborted
      | false => exact waitTurn_heedSignal (by rw [stage]; rfl) s
  | polling due =>
      cases (f.wait w).aborted with
      | true => exact waitTurn_endWait f w .aborted
      | false =>
          refine waitTurn_lookAround ?_
          split
          · exact waitTurn_pollBots (by rw [stage]; rfl)
          · refine parks fun due' is => ?_
            cases stage.symm.trans is
            omega

/-! ## Waiters that change or come -/

theorem wait_modifyWait (inside : w < f.waits.length) (change : Wait → Wait) :
    (f.modifyWait w change).wait w = change (f.wait w) := by
  show (f.waits.modify w change).getD w default = change (f.waits.getD w default)
  simp [List.getD_eq_getElem?_getD, inside]

theorem wait_modifyWait_ne {w' : Nat} (ne : w ≠ w') (change : Wait → Wait) :
    (f.modifyWait w change).wait w' = f.wait w' := by
  show (f.waits.modify w change).getD w' default = f.waits.getD w' default
  simp [List.getD_eq_getElem?_getD, ne]

theorem wait_addWait (f : Fleet) (wt : Wait) : (f.addWait wt).1.wait f.waits.length = wt := by
  show (f.waits ++ [wt]).getD f.waits.length default = wt
  simp [List.getD_eq_getElem?_getD]

theorem wait_addWait_ne (ne : w ≠ f.waits.length) (wt : Wait) :
    (f.addWait wt).1.wait w = f.wait w := by
  show (f.waits ++ [wt]).getD w default = f.waits.getD w default
  rw [List.getD_eq_getElem?_getD, List.getD_eq_getElem?_getD, List.getElem?_append]
  split
  · rfl
  · rename_i beyond
    rw [List.getElem?_eq_none (by simpa using by omega), List.getElem?_eq_none (by omega)]

theorem wait_setWait_ne {w' : Nat} (ne : w ≠ w') (stage : WaitStage) (timers : List Timer) :
    (f.setWait w stage timers).wait w' = f.wait w' :=
  wait_modifyWait_ne (f := f.setTimers timers) ne _

/-! ## What a turn leaves alone -/

theorem wait_setWait (goesOn : (f.wait w).stage.isOver = false) (stage : WaitStage)
    (timers : List Timer) : (f.setWait w stage timers).wait w = { f.wait w with stage } := by
  show (f.waits.modify w _).getD w default = _
  rw [List.getD_eq_getElem?_getD, List.getElem?_modify_eq, found_of_wait rfl goesOn]
  rfl

theorem errand_setWait (f : Fleet) (w w' : Nat) (stage : WaitStage) (timers : List Timer) :
    ((f.setWait w stage timers).wait w').errand = (f.wait w').errand := by
  show ((f.waits.modify w _).getD w' default).errand = (f.waits.getD w' default).errand
  rw [List.getD_eq_getElem?_getD, List.getD_eq_getElem?_getD, List.getElem?_modify]
  cases f.waits[w']? with
  | none => rfl
  | some wt => by_cases same : w = w' <;> simp [same, Wait.errand]

/-- A waiter stays as it is in the turns of others. -/
theorem wait_stepTask (other : t ≠ .wait w) : (f.stepTask t).wait w = f.wait w := by
  cases t with
  | wait w' =>
      have ne : w' ≠ w := fun same => other (congrArg Task.wait same)
      cases waitTurn_stepWait f w' with
      | rests times => exact times.wait w
      | listens _ times | polls _ times | ends _ times =>
          exact (times.wait w).trans (wait_setWait_ne ne _ _)
  | bot | listener | worker | dismissal =>
      refine SameTimes.wait (sameTimes_stepTask ?_) w
      exact fun _ is => nomatch is

/-- A waiter stays with what it came for. -/
theorem errand_stepTask (f : Fleet) (t : Task) (w : Nat) :
    ((f.stepTask t).wait w).errand = (f.wait w).errand := by
  by_cases own : t = .wait w
  · subst own
    cases waitTurn_stepWait f w with
    | rests times => exact congrArg Wait.errand (times.wait w)
    | listens _ times | polls _ times | ends _ times =>
        exact (congrArg Wait.errand (times.wait w)).trans (errand_setWait ..)
  · rw [wait_stepTask own]

theorem clock_stepTask (f : Fleet) (t : Task) : (f.stepTask t).clock = f.clock := by
  cases t with
  | wait w =>
      cases waitTurn_stepWait f w with
      | rests times | listens _ times | polls _ times | ends _ times => exact times.clock
  | bot | listener | worker | dismissal =>
      exact SameTimes.clock (sameTimes_stepTask fun _ is => nomatch is)

theorem clock_turn (f : Fleet) : (f.move .turn).clock = f.clock := by
  rcases turn_cases f with ⟨t, -, eq⟩ | ⟨-, eq | ⟨tasks, -, eq⟩⟩
  · rw [eq, clock_stepTask]
  · rw [eq]
  · rw [eq]

theorem clock_settle (f : Fleet) : f.settle.clock = f.clock := by
  rw [settle_eq_play, settling]
  induction restBudget generalizing f with
  | zero => rfl
  | succ n ih => exact (ih (f.move .turn)).trans (clock_turn f)

/-! ## Nobody misses a timer -/

/-- Nobody comes to miss a timer where the timers stay, and whoever waits for one goes on to do so
and stays in line. -/
theorem Timely.of_timers (timely : f.Timely) (timers : g.timers = f.timers)
    (clock : g.clock = f.clock)
    (stages : ∀ w due, (f.wait w).stage = .polling due → (g.wait w).stage = .polling due)
    (line : ∀ w, f.IsDue (.wait w) → g.IsDue (.wait w)) : g.Timely where
  polling t mem := stages _ _ (timely.polling t (timers ▸ mem))
  woken t mem late := line _ (timely.woken t (timers ▸ mem) (clock ▸ late))

theorem Timely.of_times (timely : f.Timely) (times : f.SameTimes g)
    (line : ∀ w, f.IsDue (.wait w) → g.IsDue (.wait w)) : g.Timely :=
  timely.of_timers times.timers times.clock (fun w due stage => by rw [times.wait, stage]) line

theorem isDue_stepTask {u : Task} (turn : f.tasks.running = some t) (due : f.IsDue u)
    (other : t ≠ u) : (f.stepTask t).IsDue u :=
  Or.inr (keepsLine_stepTask f t u (due.inLine turn other))

theorem mem_timersBut : timer ∈ f.timersBut w ↔ timer ∈ f.timers ∧ timer.wait ≠ w := by
  rw [timersBut, List.mem_filter, bne_iff_ne]

/-- The timers of others, of whom nothing changes in the turn of a waiter. -/
theorem Timely.others (timely : f.Timely) (turn : f.tasks.running = some (.wait w))
    (mem : timer ∈ f.timers) (other : timer.wait ≠ w) :
    ((f.stepTask (.wait w)).wait timer.wait).stage = .polling timer.due ∧
      (timer.due ≤ f.clock → (f.stepTask (.wait w)).IsDue (.wait timer.wait)) := by
  have ne : Task.wait w ≠ .wait timer.wait := fun same => other (Task.wait.inj same).symm
  refine ⟨?_, fun late => isDue_stepTask turn (timely.woken timer mem late) ne⟩
  rw [wait_stepTask ne]
  exact timely.polling timer mem

theorem Timely.stepWait (timely : f.Timely) (order : f.InOrder m)
    (turn : f.tasks.running = some (.wait w)) : (f.stepTask (.wait w)).Timely := by
  have others {t : Timer} (mem : t ∈ f.timers) (other : t.wait ≠ w) := timely.others turn mem other
  have clock := clock_stepTask f (.wait w)
  have turned : WaitTurn f w (f.stepTask (.wait w)) := waitTurn_stepWait f w
  generalize f.stepTask (.wait w) = g at others clock turned
  cases turned with
  | rests times early =>
      refine ⟨fun t mem => ?_, fun t mem late => ?_⟩
      · rw [times.wait]
        exact timely.polling t (times.timers ▸ mem)
      · rw [times.timers] at mem
        rw [clock] at late
        by_cases own : t.wait = w
        · have before := early t.due (own ▸ timely.polling t mem)
          omega
        · exact (others mem own).2 late
  | listens first times =>
      have mems (t : Timer) (mem : t ∈ g.timers) : t ∈ f.timers ∧ t.wait ≠ w := by
        have mem : t ∈ f.timers := by rwa [times.timers] at mem
        refine ⟨mem, fun own => ?_⟩
        have stage := timely.polling t mem
        rw [own, first] at stage
        cases stage
      exact ⟨fun t mem => (others (mems t mem).1 (mems t mem).2).1,
        fun t mem late => (others (mems t mem).1 (mems t mem).2).2 (clock ▸ late)⟩
  | polls goesOn times =>
      have mems (t : Timer) (mem : t ∈ g.timers) :
          (t ∈ f.timers ∧ t.wait ≠ w) ∨ t = ⟨w, f.nextReport w⟩ := by
        rw [times.timers] at mem
        exact (List.mem_append.mp mem).imp mem_timersBut.mp List.mem_singleton.mp
      refine ⟨fun t mem => ?_, fun t mem late => ?_⟩
      · rcases mems t mem with ⟨mem, other⟩ | rfl
        · exact (others mem other).1
        · rw [times.wait, wait_setWait goesOn]
      · rcases mems t mem with ⟨mem, other⟩ | rfl
        · exact (others mem other).2 (clock ▸ late)
        · have pos := order.ceilMillis_pos goesOn
          rw [clock] at late
          exact absurd late (Nat.not_le_of_gt (Nat.lt_add_of_pos_right pos))
  | ends result times =>
      have mems (t : Timer) (mem : t ∈ g.timers) : t ∈ f.timers ∧ t.wait ≠ w :=
        mem_timersBut.mp (by rwa [times.timers] at mem)
      exact ⟨fun t mem => (others (mems t mem).1 (mems t mem).2).1,
        fun t mem late => (others (mems t mem).1 (mems t mem).2).2 (clock ▸ late)⟩

theorem Timely.stepTask (timely : f.Timely) (order : f.InOrder m)
    (turn : f.tasks.running = some t) : (f.stepTask t).Timely := by
  cases t with
  | wait w => exact timely.stepWait order turn
  | bot | listener | worker | dismissal =>
      exact timely.of_times (sameTimes_stepTask fun _ is => nomatch is) fun w due =>
        isDue_stepTask turn due nofun

theorem Timely.turn (timely : f.Timely) (order : f.InOrder m) : (f.move .turn).Timely := by
  rcases turn_cases f with ⟨t, turn, eq⟩ | ⟨idle, eq | ⟨tasks, next, eq⟩⟩
  · rw [eq]
    exact timely.stepTask order turn
  · rw [eq]
    exact timely
  · rw [eq]
    exact timely.of_times ⟨rfl, rfl, rfl⟩ fun w due => (isDue_of_next next idle).mpr due

/-- Whoever's timer is due is woken when the clock is set. -/
theorem Timely.strike (timely : f.Timely) (time : Nat) : (f.strike time).Timely where
  polling t mem := timely.polling t mem
  woken t mem late := by
    refine Scheduler.isDue_wakeAll.mpr (Or.inr ?_)
    exact List.mem_map.mpr ⟨t, List.mem_filter.mpr ⟨mem, decide_eq_true late⟩, rfl⟩

/-! ## Moves -/

theorem sameTimes_releaseSubscriber (f : Fleet) (m i times : Nat) :
    f.SameTimes (f.releaseSubscriber m i times) := by
  unfold releaseSubscriber
  split
  · exact .refl f
  · dsimp only
    split <;> exact ⟨rfl, rfl, rfl⟩

theorem sameTimes_dropManager (f : Fleet) (m : Nat) : f.SameTimes (f.dropManager m) := by
  unfold dropManager wakeListener
  dsimp only
  split
  · exact ⟨rfl, rfl, rfl⟩
  · split <;> exact ⟨rfl, rfl, rfl⟩

theorem polling_modifyWait {change : Wait → Wait}
    (keeps : ∀ due, (f.wait w).stage = .polling due → (change (f.wait w)).stage = .polling due)
    (w' due : Nat) (is : (f.wait w').stage = .polling due) :
    ((f.modifyWait w change).wait w').stage = .polling due := by
  have found := found_of_wait is rfl
  show ((f.waits.modify w change).getD w' default).stage = _
  rw [List.getD_eq_getElem?_getD, List.getElem?_modify, found]
  by_cases same : w = w'
  · subst same
    simp [keeps due is]
  · simp [same, is]

theorem cancelWait_cases (f : Fleet) (w : Nat) : (f.cancelWait w).1 = f ∨
    (f.cancelWait w).1 = (f.modifyWait w fun wt => { wt with cancelled := true }).wake (.wait w) := by
  unfold cancelWait
  split
  · exact Or.inl rfl
  · split
    · exact Or.inr rfl
    · exact Or.inl rfl

theorem abortWait_cases (f : Fleet) (w : Nat) : (f.abortWait w).1 = f ∨
    (f.abortWait w).1 = (f.modifyWait w fun wt => { wt with aborted := true }).wake (.wait w) := by
  unfold abortWait
  split
  · exact Or.inl rfl
  · split
    · exact Or.inl rfl
    · exact Or.inr rfl

theorem signalWait_of_not_listening (deaf : (f.wait w).stage ≠ .listening) (s : Signal) :
    f.signalWait s w = f := by
  unfold signalWait
  split
  · rename_i listens
    exact absurd listens deaf
  · rfl

theorem waitMove (stays : mv ≠ .turn) : WaitMove f mv (f.move mv) := by
  have same (eq : f.move mv = f) : WaitMove f mv (f.move mv) := .stays (eq.symm ▸ .refl f)
  have marked {w : Nat} {change : Wait → Wait} (made : mv.concerns w = true)
      (stage : ∀ wt, (change wt).stage = wt.stage)
      (eq : f.move mv = (f.modifyWait w change).wake (.wait w)) : WaitMove f mv (f.move mv) := by
    rw [eq]
    exact .changes w change made (Or.inl (stage _)) ⟨rfl, rfl, rfl⟩
  cases mv with
  | call c =>
      have lock := Lockstep.keepsTimes f
      exact .stays (lock.perform_of_agrees ⟨rfl, .refl f⟩ (.refl f) none c).fleets.2
  | wait m poll cancelled =>
      show WaitMove f _ (f.spawnWait m poll cancelled).1
      unfold spawnWait
      split
      · exact .comes _ rfl (.refl _)
      · exact .stays (.refl f)
  | runUntilSignal m =>
      show WaitMove f _ (f.spawnRun m).1
      unfold spawnRun
      split
      · exact .comes _ rfl (.refl _)
      · exact .stays (.refl f)
  | cancel w => exact (cancelWait_cases f w).elim same (marked (beq_self_eq_true w) fun _ => rfl)
  | abort w => exact (abortWait_cases f w).elim same (marked (beq_self_eq_true w) fun _ => rfl)
  | signal s w =>
      show WaitMove f _ (f.signalWait s w)
      unfold signalWait
      split
      · rename_i listens
        exact .changes w (fun wt => { wt with stage := .signalled s }) (beq_self_eq_true w)
          (Or.inr ⟨listens, s, rfl⟩) ⟨rfl, rfl, rfl⟩
      · exact .stays (.refl f)
  | drop m => exact .stays (sameTimes_dropManager f m)
  | release m i n => exact .stays (sameTimes_releaseSubscriber f m i n)
  | strike time => exact .passes time (Or.inl rfl) rfl
  | setClock time => exact .passes time (Or.inr rfl) rfl
  | turn => exact absurd rfl stays
  | arm | disarm | look => exact .stays ⟨rfl, rfl, rfl⟩

/-- Nobody is done but by a turn. -/
theorem over_of_move {result : WaitResult} (stays : mv ≠ .turn)
    (done : ((f.move mv).wait w).stage = .over result) : (f.wait w).stage = .over result := by
  cases waitMove (f := f) stays with
  | stays times => rwa [times.wait] at done
  | comes wt first times =>
      rw [times.wait] at done
      by_cases came : w = f.waits.length
      · rw [came, wait_addWait, first] at done
        cases done
      · rwa [wait_addWait_ne came] at done
  | changes w' change made keeps times =>
      rw [times.wait] at done
      by_cases same : w' = w
      · subst same
        by_cases inside : w' < f.waits.length
        · rw [wait_modifyWait inside] at done
          rcases keeps with stage | ⟨-, s, stage⟩
          · rwa [← stage]
          · cases stage.symm.trans done
        · rwa [modifyWait, List.modify_eq_self (Nat.le_of_not_lt inside)] at done
      · rwa [wait_modifyWait_ne same] at done
  | passes time is waits => rwa [wait_of_waits waits] at done

/-- Nobody comes to miss a timer, whatever is done, unless the clock is set without a look at the
timers. -/
theorem Timely.move (timely : f.Timely) (order : f.InOrder m)
    (told : ∀ time, mv ≠ .setClock time) : (f.move mv).Timely := by
  by_cases turn : mv = .turn
  · rw [turn]
    exact timely.turn order
  have line (w : Nat) (due : f.IsDue (.wait w)) : (f.move mv).IsDue (.wait w) :=
    due.move fun is => absurd is turn
  cases waitMove (f := f) turn with
  | stays times => exact timely.of_times times line
  | comes wt first times =>
      refine timely.of_timers times.timers times.clock (fun w due is => ?_) line
      have inside := (List.getElem?_eq_some_iff.mp (found_of_wait is rfl)).choose
      rw [times.wait, wait_addWait_ne (Nat.ne_of_lt inside), is]
  | changes w change made keeps times =>
      refine timely.of_timers times.timers times.clock (fun w' due is => ?_) line
      rw [times.wait]
      refine polling_modifyWait (fun due is => ?_) w' due is
      rcases keeps with stage | ⟨listens, -⟩
      · rw [stage, is]
      · cases listens.symm.trans is
  | passes time is =>
      rcases is with rfl | rfl
      · exact timely.strike time
      · exact absurd rfl (told time)

theorem Timely.play (timely : f.Timely) (order : f.InOrder m) {ms : List Move}
    (told : ∀ mv ∈ ms, ∀ time, mv ≠ .setClock time) : (f.play ms).Timely := by
  induction ms generalizing f with
  | nil => exact timely
  | cons mv ms ih =>
      exact ih (timely.move order (told mv List.mem_cons_self)) (order.move mv) fun mv' mem =>
        told mv' (List.mem_cons_of_mem mv mem)

theorem timely_raw (managers : List ManagerPlan) (bots : List BotPlan) :
    (raw managers bots).Timely :=
  ⟨fun _ mem => (nomatch mem), fun _ mem => nomatch mem⟩

/-! ## Time -/

/-- In a fleet that settled, every timer is still to come. -/
theorem Timely.ahead (timely : f.Timely) (settled : f.tasks.isSettled = true) :
    ∀ t ∈ f.timers, f.clock < t.due := by
  intro t mem
  refine Nat.lt_of_not_le fun late => ?_
  exact Scheduler.not_isDue_of_isSettled settled _ (timely.woken t mem late)

theorem Timely.settle (timely : f.Timely) (order : f.InOrder m)
    (ends : f.settle.tasks.isSettled = true) : f.settle.Rested m := by
  have told : ∀ mv ∈ settling, ∀ time, mv ≠ .setClock time := by
    intro mv mem time
    rw [List.eq_of_mem_replicate mem]
    nofun
  rw [settle_eq_play] at ends ⊢
  exact ⟨order.play settling, timely.play order told, ends⟩

theorem Rested.strike (rested : f.Rested m) {time : Nat}
    (ends : (f.strike time).settle.tasks.isSettled = true) : (f.strike time).settle.Rested m :=
  (rested.toTimely.strike time).settle (rested.toInOrder.move (.strike time)) ends

theorem nextDue?_eq_some {limit time : Nat} (next : f.nextDue? limit = some time) :
    (∃ t ∈ f.timers, t.due = time) ∧ f.clock < time ∧ time ≤ limit ∧
      ∀ t ∈ f.timers, f.clock < t.due → t.due ≤ limit → time ≤ t.due := by
  obtain ⟨mem, least⟩ := List.min?_eq_some_iff.mp next
  obtain ⟨mem, coming⟩ := List.mem_filter.mp mem
  rw [Bool.and_eq_true, decide_eq_true_iff, decide_eq_true_iff] at coming
  obtain ⟨t, mem, due⟩ := List.mem_map.mp mem
  refine ⟨⟨t, mem, due⟩, coming.1, coming.2, fun t' mem' late soon => least _ ?_⟩
  exact List.mem_filter.mpr ⟨List.mem_map_of_mem mem', by simp [late, soon]⟩

theorem nextDue?_eq_none {limit : Nat} (next : f.nextDue? limit = none) :
    ∀ t ∈ f.timers, f.clock < t.due → limit < t.due := by
  intro t mem late
  refine Nat.lt_of_not_le fun soon => ?_
  have none := List.min?_eq_none_iff.mp next
  have mem' : t.due ∈ (f.timers.map Timer.due).filter fun due => f.clock < due && due ≤ limit :=
    List.mem_filter.mpr ⟨List.mem_map_of_mem mem, by simp [late, soon]⟩
  rw [none] at mem'
  cases mem'

theorem runClock_of_last {limit n : Nat} (last : f.nextDue? limit = none) :
    runClock limit n f = f := by
  cases n with
  | zero => rfl
  | succ n => simp only [runClock, last]

/-- What one strike leaves to be done until the clock has come to a limit. -/
structure Round (m limit n time : Nat) (f : Fleet) : Prop where
  soon : time ≤ limit
  eq : runClock limit (n + 1) f = runClock limit n (f.strike time).settle
  rested : (f.strike time).settle.Rested m
  long : limit ≤ (f.strike time).settle.clock + n
  ends : ∀ x ∈ clockRests limit n (f.strike time).settle, x.tasks.isSettled = true

theorem Rested.round {limit n time : Nat} (rested : f.Rested m) (long : limit ≤ f.clock + n)
    (ends : ∀ x ∈ clockRests limit n f, x.tasks.isSettled = true)
    (next : f.nextDue? limit = some time) : ∃ n₀, n = n₀ + 1 ∧ Round m limit n₀ time f := by
  obtain ⟨-, later, soon, -⟩ := nextDue?_eq_some next
  cases n with
  | zero => omega
  | succ n =>
      simp only [clockRests, next, List.forall_mem_cons] at ends
      refine ⟨n, rfl, soon, by simp only [runClock, next], rested.strike ends.1, ?_, ends.2⟩
      rw [clock_settle]
      show limit ≤ time + n
      omega

/-- When the clock has run to a limit, no timer is left that is due until then. -/
theorem Rested.runClock {limit n : Nat} (rested : f.Rested m) (long : limit ≤ f.clock + n)
    (ends : ∀ x ∈ clockRests limit n f, x.tasks.isSettled = true) :
    (runClock limit n f).Rested m ∧ ∀ t ∈ (Fleet.runClock limit n f).timers, limit < t.due := by
  induction n generalizing f with
  | zero =>
      refine ⟨rested, fun t mem => Nat.lt_of_le_of_lt long ?_⟩
      exact rested.toTimely.ahead rested.settled t mem
  | succ n ih =>
      cases next : f.nextDue? limit with
      | none =>
          rw [runClock_of_last next]
          refine ⟨rested, fun t mem => nextDue?_eq_none next t mem ?_⟩
          exact rested.toTimely.ahead rested.settled t mem
      | some time =>
          obtain ⟨n₀, same, round⟩ := rested.round long ends next
          cases same
          rw [round.eq]
          exact ih round.rested round.long round.ends

/-! ## Commands -/

theorem Rested.between (rested : f.Rested m) : f.Between m :=
  { rested with
    idle := Option.isNone_iff_eq_none.mp (Bool.and_eq_true_iff.mp rested.settled).2 }

namespace Between

variable (between : f.Between m)

include between

theorem move (mv : Move) (told : ∀ time, mv ≠ .setClock time) (stays : mv ≠ .turn) :
    (f.move mv).Between m where
  toInOrder := between.toInOrder.move mv
  toTimely := between.toTimely.move between.toInOrder told
  idle := by
    refine Eq.trans ?_ between.idle
    cases mv with
    | release m i times => exact (keepsTasks_releaseSubscriber f m i times).1
    | look => rfl
    | turn => exact absurd rfl stays
    | _ => exact ((MovesInStep.keepsTasks f).move ⟨rfl, rfl, fun _ => id⟩ rfl).2.1

theorem sleep {millis : Nat} (ends : ∀ x ∈ f.rests (.sleep millis), x.tasks.isSettled = true) :
    (f.sleep millis).Between m := by
  obtain ⟨settled, later⟩ := List.forall_mem_cons.mp ends
  obtain ⟨rested, ahead⟩ := (between.toTimely.settle between.toInOrder settled).runClock
    (Nat.le_of_eq (congrArg (· + millis) (clock_settle f).symm)) later
  exact
    { toInOrder := rested.toInOrder.move (.setClock (f.clock + millis))
      polling := rested.polling
      woken := fun t mem late => absurd late (Nat.not_le_of_gt (ahead t mem))
      idle := rested.between.idle }

theorem signals (s : Signal) (ws : List Nat) : (f.play (ws.map (Move.signal s))).Between m := by
  induction ws generalizing f with
  | nil => exact between
  | cons w ws ih => exact ih (between.move (.signal s w) nofun nofun)

theorem raise {s : Signal} (ends : ∀ x ∈ f.rests (.raise s), x.tasks.isSettled = true) :
    (f.raise s).1.Between m := by
  obtain ⟨settled, later⟩ := List.forall_mem_cons.mp ends
  have rested := between.toTimely.settle between.toInOrder settled
  unfold Fleet.raise
  dsimp only
  split
  · rename_i listens
    rw [if_pos listens] at later
    have signalled := rested.between.signals s (List.range f.settle.waits.length)
    rw [← foldl_signalWait_eq_play] at signalled
    exact (signalled.toTimely.settle signalled.toInOrder (later _ List.mem_cons_self)).between
  · exact rested.between

/-- A command leaves a fleet in order. -/
theorem carryOut (c : Command) (ends : ∀ x ∈ f.rests c, x.tasks.isSettled = true) :
    (f.carryOut c).1.Between m := by
  cases c with
  | settle =>
      exact (between.toTimely.settle between.toInOrder (ends _ List.mem_cons_self)).between
  | sleep millis => exact between.sleep ends
  | raise s => exact between.raise ends
  | call c => exact between.move (.call c) nofun nofun
  | wait m poll cancelled => exact between.move (.wait m poll cancelled) nofun nofun
  | runUntilSignal m => exact between.move (.runUntilSignal m) nofun nofun
  | cancel w => exact between.move (.cancel w) nofun nofun
  | abort w => exact between.move (.abort w) nofun nofun
  | drop m => exact between.move (.drop m) nofun nofun
  | release m i times => exact between.move (.release m i times) nofun nofun
  | arm b what => exact between.move (.arm b what) nofun nofun
  | disarm b what => exact between.move (.disarm b what) nofun nofun
  | compare => exact between

theorem observe (c : Command) (ends : ∀ x ∈ f.rests c, x.tasks.isSettled = true) :
    (f.observe c).1.Between m :=
  (between.carryOut c ends).move .look nofun nofun

theorem observeAll {cs : List Command} (ends : ∀ x ∈ f.sessionRests cs, x.tasks.isSettled = true) :
    (f.observeAll cs).1.Between m := by
  induction cs generalizing f with
  | nil => exact between
  | cons c cs ih =>
      obtain ⟨now, later⟩ := List.forall_mem_append.mp ends
      exact ih (between.observe c now) later

end Between

theorem between_build {managers : List ManagerPlan} (has : m < managers.length)
    (bots : List BotPlan) (ends : (build managers bots).tasks.isSettled = true) :
    (build managers bots).Between m :=
  ((timely_raw managers bots).settle (inOrder_play has bots []) ends).between

end Fleet

end Flotilla
