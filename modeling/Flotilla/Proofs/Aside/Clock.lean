import Flotilla.Proofs.Aside.Waiter

/-!
# Time, with a waiter left out

Two fleets that are the same but for a waiter are so again when both have settled
(`Fleet.SameButWait.settle`). The waiter's timers are not compared, so while the clock runs it may
strike in one fleet where it does not in the other; then nobody but the waiter is woken, and the
turns that follow make no difference. When the clock has come to its limit in both, the time is the
same again (`Fleet.SameButWait.sleep`).
-/

namespace Flotilla.Fleet

variable {f g f' g' : Fleet} {m w : Nat} {forsaken timed : Bool} {t : Task}

/-! ## Turns -/

theorem stepWait_of_over {result : WaitResult} (done : (f.wait w).stage = .over result) :
    f.stepWait w = f.park := by
  unfold stepWait
  simp [done, WaitStage.isOver]

theorem hasStopped_setWait {stage : WaitStage} {timers : List Timer}
    (later : stage.hasStopped = true) : ((f.setWait w stage timers).wait w).stage.hasStopped = true := by
  show ((f.waits.modify w _).getD w default).stage.hasStopped = true
  rw [List.getD_eq_getElem?_getD, List.getElem?_modify_eq]
  cases f.waits[w]? with
  | none => rfl
  | some wt => exact later

/-- A waiter that is past its call of `stop` stays so. -/
theorem past_stepWait (past : (f.wait w).stage.hasStopped = true) :
    ((f.stepWait w).wait w).stage.hasStopped = true := by
  cases waitTurn_stepWait f w with
  | rests times => rwa [times.wait]
  | listens first =>
      rw [first] at past
      cases past
  | polls _ times | ends _ times =>
      rw [times.wait]
      exact hasStopped_setWait rfl

theorem Stands.unbegun_of_not_past (stands : Stands m w f g)
    (first : (f.wait w).stage.hasStopped = false) :
    (f.wait w).stage = .submitted ∧ (g.wait w).stage = .submitted ∧
      (g.wait w).aborted = (f.wait w).aborted := by
  cases stands with
  | unbegun first first' aborted => exact ⟨first, first', aborted⟩
  | stopped past =>
      rw [past] at first
      cases first
  | early _ done =>
      rw [done] at first
      cases first

namespace SameButWait

variable (alike : SameButWait m w forsaken timed f g)

include alike

/-- A turn that is left out makes no difference. -/
theorem apart (turn : g.tasks.running = some t)
    (is : (f.besides w forsaken timed).hides t = true) :
    SameButWait m w forsaken timed f (g.stepTask t) := by
  have hidden := alike.same.idle_of_hidden turn is
  have closed' := fun closed => alike.order'.closed_stepTask turn closed
  by_cases own : t = .wait w
  · subst own
    have past : (f.wait w).stage.hasStopped = true := (Bool.and_eq_true_iff.mp is).1
    have past' := alike.stands.past.trans past
    refine { alike with
      same := alike.same.stepWait_right rfl past hidden past'
      order' := alike.order'.stepTask turn
      stands := ?_ }
    cases stands : alike.stands with
    | unbegun first =>
        rw [first] at past
        cases past
    | stopped past past' closed isClosed' =>
        exact .stopped past (past_stepWait past') closed (closed' isClosed')
    | early ends done done' =>
        refine .early ends done ?_
        rw [show g.stepTask (.wait w) = g.park from stepWait_of_over done']
        exact done'
  · have relay : t.isRelay = true := by
      cases t with
      | listener | worker => rfl
      | wait w' =>
          have same : w = w' := Option.some.inj (eq_of_beq (Bool.and_eq_true_iff.mp is).2)
          exact absurd (congrArg Task.wait same.symm) own
      | bot | dismissal => cases is
    exact { alike with
      same := alike.same.stepTask_right hidden relay
      order' := alike.order'.stepTask turn
      stands := alike.stands.kept rfl (wait_stepTask own) id (fun due => isDue_stepTask turn due own)
        id closed' }

/-- A step of a launched bot's task. -/
theorem stepBot (r : RunName) :
    SameBut (f.besides w forsaken timed) (f.stepBot r) (g.stepBot r) := by
  have runs := RunsInStep.sameBut (f.besides w forsaken timed)
  refine runs.stepBot alike.same r (fun stage => ?_) fun c rest stage => ?_
  · exact runs.seekSlot_of_slots alike.same (launched_of_stage (by rw [stage]; nofun))
      (alike.same.slots _) fun slots =>
        alike.same.modifyManager (by rw [alike.same.managers r.manager]) (alike.same.told _)
  · obtain ⟨f', g', reply, reply', eq, eq', same, replies⟩ := alike.perform (some (f.spanOf r)) c
    unfold Fleet.stepBot
    rw [alike.same.accords.launch, stage]
    dsimp only
    rw [alike.same.accords.spanOf, eq, eq']
    dsimp only
    rw [same.accords.launch]
    refine runs.setStage (same.note (.called _ (replies.mono fun is => ?_))) r _
    exact (Bool.and_eq_true_iff.mp is).1

/-- A turn of somebody else keeps the two sides the same. -/
theorem stepOther (now : timed = true) (away : t.isRelay = false) (other : t ≠ .wait w) :
    SameBut (f.besides w forsaken timed) (f.stepTask t) (g.stepTask t) := by
  cases t with
  | bot r => exact alike.stepBot r
  | wait w' =>
      refine (WaiterInStep.sameBut now fun same => other ?_).stepWait alike.same
      exact congrArg Task.wait (Option.some.inj same).symm
  | dismissal => exact (RunsInStep.sameBut _).stepDismissal alike.same
  | listener | worker => cases away

/-- The first turn of the waiter. -/
theorem stepFirst (turn : f.tasks.running = some (.wait w))
    (turn' : g.tasks.running = some (.wait w)) (first : (f.wait w).stage.hasStopped = false) :
    SameBut ((f.stepTask (.wait w)).besides w forsaken timed) (f.stepTask (.wait w))
        (g.stepTask (.wait w)) ∧
      Stands m w (f.stepTask (.wait w)) (g.stepTask (.wait w)) := by
  obtain ⟨first, first', aborted⟩ := alike.stands.unbegun_of_not_past first
  have errand' := (alike.same.errand w).trans alike.errand
  obtain ⟨past, after⟩ := stepWait_submitted alike.order turn first alike.errand
  obtain ⟨past', after'⟩ := stepWait_submitted alike.order' turn' first' errand'
  have same : SameBut { f.besides w forsaken timed with acting := true } f g :=
    alike.same.mono rfl (fun _ => rfl) id id
  refine ⟨?_, ?_⟩
  · have stepped := same.stepWait_both rfl rfl turn first first' (congrArg Prod.snd alike.errand)
      aborted
    unfold Fleet.besides
    rw [show ((f.stepTask (.wait w)).wait w).stage.hasStopped = true from past]
    exact stepped
  · -- The same of the three things happens on both sides.
    have unstarted : g.Unstarted m ↔ f.Unstarted m := by
      unfold Unstarted
      rw [alike.same.accords.phase]
    rw [aborted, unstarted, alike.same.accords.phase] at after'
    rcases after with ⟨kept, begun, closed⟩ | ⟨dropped, done⟩ | ⟨kept, early, done⟩ <;>
      rcases after' with ⟨kept', begun', closed'⟩ | ⟨dropped', done'⟩ | ⟨kept', early', done'⟩
    · exact .stopped past past' closed closed'
    · cases kept.symm.trans dropped'
    · exact absurd early' begun
    · cases dropped.symm.trans kept'
    · exact .early .aborted done done'
    · cases dropped.symm.trans kept'
    · exact absurd early begun'
    · cases kept.symm.trans dropped'
    · exact .early (.refused early) done done'

/-- A turn that both sides have keeps them the same. -/
theorem together (turn : f.tasks.running = some t) (turn' : g.tasks.running = some t)
    (isnt : (f.besides w forsaken timed).hides t = false) :
    SameButWait m w forsaken timed (f.stepTask t) (g.stepTask t) := by
  have away : t.isRelay = false := by
    cases t with
    | listener | worker => cases isnt
    | bot | wait | dismissal => rfl
  have now : timed = true := by
    cases now : timed with
    | true => rfl
    | false =>
        have still := alike.still now
        rw [Scheduler.shown_of_turn turn isnt] at still
        exact nomatch congrArg Prod.snd still
  have owners := keepsOwned_stepTask f away
  have stepped (same : SameBut ((f.stepTask t).besides w forsaken timed) (f.stepTask t)
      (g.stepTask t)) (stands : Stands m w (f.stepTask t) (g.stepTask t)) :
      SameButWait m w forsaken timed (f.stepTask t) (g.stepTask t) :=
    { same
      order := alike.order.stepTask turn
      order' := alike.order'.stepTask turn'
      owned := alike.owned.trans (congrArg (!·) (isOwned_of_owned owners.1 (owners.2 m))).symm
      errand := (errand_stepTask f t w).trans alike.errand
      stands
      still := fun untimed => nomatch now.symm.trans untimed }
  by_cases own : t = .wait w
  · subst own
    have first : (f.wait w).stage.hasStopped = false := by
      simpa [Aside.hides, besides] using isnt
    obtain ⟨same, stands⟩ := alike.stepFirst turn turn' first
    exact stepped same stands
  · refine stepped ?_ (alike.stands.kept (wait_stepTask own) (wait_stepTask own)
      (fun due => isDue_stepTask turn due own) (fun due => isDue_stepTask turn' due own)
      (fun closed => alike.order.closed_stepTask turn closed)
      fun closed => alike.order'.closed_stepTask turn' closed)
    rw [besides_of_wait (wait_stepTask own)]
    exact alike.stepOther now away own

end SameButWait

theorem CallsUp.eq_move {x : Scheduler Task} (calls : f.CallsUp x) :
    { f with tasks := x } = f ∨ { f with tasks := x } = f.move .turn := by
  rcases calls with rfl | ⟨idle, next⟩
  · exact Or.inl rfl
  · refine Or.inr ?_
    rw [Fleet.move, step?_of_next idle next]
    rfl

theorem CallsUp.isDue_iff {x : Scheduler Task} (calls : f.CallsUp x) (t : Task) :
    IsDue { f with tasks := x } t ↔ f.IsDue t := by
  rcases calls with rfl | ⟨idle, next⟩
  · rfl
  · exact isDue_of_next next idle

theorem InOrder.callsUp {x : Scheduler Task} (order : f.InOrder m) (calls : f.CallsUp x) :
    InOrder m { f with tasks := x } := by
  rcases calls.eq_move with eq | eq
  · rwa [eq]
  · rw [eq]
    exact order.move .turn

/-- Where nobody is seen in line, nobody is seen when the first in line gets its turn. -/
theorem CallsUp.still {x : Scheduler Task} {hidden : Task → Bool} (calls : f.CallsUp x)
    (still : f.tasks.shown hidden = ([], none)) : x.shown hidden = ([], none) := by
  rcases calls with rfl | ⟨idle, next⟩
  · exact still
  · obtain ⟨t, first, turn⟩ := Scheduler.exists_of_next? next
    cases is : hidden t with
    | true => rw [Scheduler.shown_next_of_hidden idle first turn is, still]
    | false =>
        rw [Scheduler.shown_of_first idle first is] at still
        cases congrArg Prod.fst still

/-- Until both have settled, two fleets that are the same but for a waiter stay so. -/
theorem Meets.sameButWait (m w : Nat) (forsaken timed : Bool) :
    Meets (fun f => (f.besides w forsaken timed).hides) (SameButWait m w forsaken timed) where
  symm alike := alike.symm
  hidden alike := congrArg Aside.hides alike.stands.besides
  shown alike := alike.same.tasks
  apart alike turn is := alike.apart turn is
  together alike turn turn' isnt := alike.together turn turn' isnt
  turn alike calls calls' shown :=
    { alike with
      same := { alike.same with tasks := shown }
      order := alike.order.callsUp calls
      order' := alike.order'.callsUp calls'
      stands := alike.stands.kept rfl rfl (calls.isDue_iff _).mpr (calls'.isDue_iff _).mpr id id
      still := fun untimed => calls.still (alike.still untimed) }

/-! ## Until both have settled -/

theorem settle_of_settled (settled : f.tasks.isSettled = true) : f.settle = f :=
  runToRest_of_none (step?_of_settled settled) restBudget

namespace SameButWait

theorem settle (alike : SameButWait m w forsaken timed f g)
    (ends : f.settle.tasks.isSettled = true) (ends' : g.settle.tasks.isSettled = true) :
    SameButWait m w forsaken timed f.settle g.settle :=
  (Meets.sameButWait m w forsaken timed).rest alike ends ends'

/-- When they have settled, the time need not be the same. -/
theorem untimed (alike : SameButWait m w forsaken timed f g)
    (settled : f.tasks.isSettled = true) : SameButWait m w forsaken false f g :=
  { alike with
    same := alike.same.mono rfl id id nofun
    still := fun _ => by
      obtain ⟨ready, running⟩ := Bool.and_eq_true_iff.mp settled
      simp [Scheduler.shown, List.isEmpty_iff.mp ready, Option.isNone_iff_eq_none.mp running] }

/-- When the clock is set on both sides, the time is the same. -/
theorem setClock (alike : SameButWait m w forsaken timed f g) (clock : Nat) :
    SameButWait m w forsaken true { f with clock } { g with clock } :=
  { alike with
    same := { alike.same with clock := fun _ => rfl }
    order := alike.order.move (.setClock clock)
    order' := alike.order'.move (.setClock clock)
    stands := alike.stands.kept rfl rfl id id id id
    still := nofun }

/-! ## Strikes -/

theorem isDue_strike (time : Nat) (due : f.IsDue t) : (f.strike time).IsDue t :=
  Scheduler.isDue_wakeAll.mpr (Or.inl due)

/-- Both sides are struck. -/
theorem strike (alike : SameButWait m w forsaken timed f g) (time : Nat) :
    SameButWait m w forsaken true (f.strike time) (g.strike time) := by
  have set := alike.setClock time
  exact { set with
    same := set.same.wakeTimers fun t => t.due ≤ time
    order := alike.order.move (.strike time)
    order' := alike.order'.move (.strike time)
    stands := alike.stands.kept rfl rfl (isDue_strike time) (isDue_strike time) id id
    still := nofun }

/-- Only one side is struck, at a time at which no timer is due that counts. -/
theorem strike_right (alike : SameButWait m w forsaken false f g) {time : Nat}
    (alone : ∀ t ∈ g.timers, t.due ≤ time → (f.besides w forsaken false).counts t = false) :
    SameButWait m w forsaken false f (g.strike time) := by
  have set : SameBut (f.besides w forsaken false) f { g with clock := time } :=
    { alike.same with clock := nofun }
  refine { alike with
    same := set.wakeAll_right fun t mem => ?_
    order' := alike.order'.move (.strike time)
    stands := alike.stands.kept rfl rfl id (isDue_strike time) id id }
  obtain ⟨timer, struck, rfl⟩ := List.mem_map.mp mem
  obtain ⟨set, due⟩ := List.mem_filter.mp struck
  simpa [Aside.counts] using alone timer set (of_decide_eq_true due)

/-! ## The clock runs -/

/-- A timer that counts is there on both sides. -/
theorem mem_timers (alike : SameButWait m w forsaken timed f g) {timer : Timer}
    (counts : (f.besides w forsaken timed).counts timer = true) (mem : timer ∈ g.timers) :
    timer ∈ f.timers := by
  have both : timer ∈ g.timers.filter (f.besides w forsaken timed).counts :=
    List.mem_filter.mpr ⟨mem, counts⟩
  rw [alike.same.timers] at both
  exact (List.mem_filter.mp both).1

/-- Before the first timer of the other side, no timer counts. -/
theorem alone (alike : SameButWait m w forsaken timed f g) (rested : f.Rested m) {limit time : Nat}
    (soon : time ≤ limit) (first : ∀ next, f.nextDue? limit = some next → time < next) :
    ∀ t ∈ g.timers, t.due ≤ time → (f.besides w forsaken timed).counts t = false := by
  intro t mem due
  refine Bool.eq_false_iff.mpr fun counts => ?_
  have here := alike.mem_timers counts mem
  have ahead := rested.toTimely.ahead rested.settled t here
  cases next : f.nextDue? limit with
  | none => exact absurd (nextDue?_eq_none next t here ahead) (by omega)
  | some next' =>
      have least := (nextDue?_eq_some next).2.2.2 t here ahead (by omega)
      have := first next' next
      omega

/-- Only one side is struck, and settles. -/
theorem settle_right (alike : SameButWait m w forsaken false f g) (rested : f.Rested m)
    {limit time : Nat} (soon : time ≤ limit)
    (first : ∀ next, f.nextDue? limit = some next → time < next)
    (ends' : (g.strike time).settle.tasks.isSettled = true) :
    SameButWait m w forsaken false f (g.strike time).settle := by
  have struck := alike.strike_right (alike.alone rested soon first)
  have settled := settle_of_settled rested.settled
  have both := struck.settle (settled.symm ▸ rested.settled) ends'
  rwa [settled] at both

/-- Both sides are struck at the same time, and settle. -/
theorem settle_both (alike : SameButWait m w forsaken timed f g) {time : Nat}
    (ends : (f.strike time).settle.tasks.isSettled = true)
    (ends' : (g.strike time).settle.tasks.isSettled = true) :
    SameButWait m w forsaken false (f.strike time).settle (g.strike time).settle :=
  ((alike.strike time).settle ends ends').untimed ends

/-- While the clock runs to a limit, it may strike on one side only, but at the end the two sides
are the same. -/
theorem runClock {limit n n' : Nat} (alike : SameButWait m w forsaken false f g)
    (rested : f.Rested m) (rested' : g.Rested m) (long : limit ≤ f.clock + n)
    (long' : limit ≤ g.clock + n') (ends : ∀ x ∈ clockRests limit n f, x.tasks.isSettled = true)
    (ends' : ∀ x ∈ clockRests limit n' g, x.tasks.isSettled = true) :
    SameButWait m w forsaken false (Fleet.runClock limit n f) (Fleet.runClock limit n' g) := by
  induction steps : n + n' using Nat.strongRecOn generalizing f g n n' with
  | ind k ih =>
    have right {f g : Fleet} {n n₁ time : Nat} (alike : SameButWait m w forsaken false f g)
        (rested : f.Rested m) (long : limit ≤ f.clock + n)
        (ends : ∀ x ∈ clockRests limit n f, x.tasks.isSettled = true)
        (round : Round m limit n₁ time g)
        (first : ∀ next, f.nextDue? limit = some next → time < next) (fewer : n + n₁ < k) :
        SameButWait m w forsaken false (Fleet.runClock limit n f)
          (Fleet.runClock limit (n₁ + 1) g) := by
      rw [round.eq]
      exact ih _ fewer (alike.settle_right rested round.soon first round.rested.settled) rested
        round.rested long round.long ends round.ends rfl
    cases next : f.nextDue? limit with
    | none =>
        cases next' : g.nextDue? limit with
        | none =>
            rw [runClock_of_last next, runClock_of_last next']
            exact alike
        | some time =>
            obtain ⟨n₁, rfl, round⟩ := rested'.round long' ends' next'
            exact right alike rested long ends round (by simp [next]) (by omega)
    | some time =>
        obtain ⟨n₀, rfl, round⟩ := rested.round long ends next
        cases next' : g.nextDue? limit with
        | none =>
            exact (right alike.symm rested' long' ends' round (by simp [next']) (by omega)).symm
        | some time' =>
            obtain ⟨n₁, rfl, round'⟩ := rested'.round long' ends' next'
            rcases Nat.lt_trichotomy time time' with before | rfl | after
            · exact (right alike.symm rested' long' ends' round (by simpa [next'] using before)
                (by omega)).symm
            · rw [round.eq, round'.eq]
              exact ih _ (by omega) (alike.settle_both round.rested.settled round'.rested.settled)
                round.rested round'.rested round.long round'.long round.ends round'.ends rfl
            · exact right alike rested long ends round' (by simpa [next] using after) (by omega)

/-- After a sleep the two sides are the same. -/
theorem sleep {millis : Nat} (alike : SameButWait m w forsaken true f g) (timely : f.Timely)
    (timely' : g.Timely) (ends : ∀ x ∈ f.rests (.sleep millis), x.tasks.isSettled = true)
    (ends' : ∀ x ∈ g.rests (.sleep millis), x.tasks.isSettled = true) :
    SameButWait m w forsaken true (f.sleep millis) (g.sleep millis) := by
  unfold rests at ends ends'
  obtain ⟨ends, later⟩ := List.forall_mem_cons.mp ends
  obtain ⟨ends', later'⟩ := List.forall_mem_cons.mp ends'
  have settled := (alike.settle ends ends').untimed ends
  have clock : g.clock = f.clock := alike.same.clock rfl
  rw [clock] at later'
  have ran := settled.runClock (timely.settle alike.order ends) (timely'.settle alike.order' ends')
    (Nat.le_of_eq (congrArg (· + millis) (clock_settle f).symm))
    (Nat.le_of_eq (congrArg (· + millis) ((clock_settle g).trans clock).symm)) later later'
  unfold Fleet.sleep
  dsimp only
  rw [clock]
  exact ran.setClock (f.clock + millis)

end SameButWait

end Flotilla.Fleet
