import Flotilla.Proofs.Refusals
import Flotilla.Proofs.Strays

/-!
# What never goes wrong

The phase of a manager, its pool, its registry and its tasks are changed one by one, and some of
the answers are for the case that they do not agree. A pool is closed as its manager is stopped, so
no operation that the phase allows finds it closed (`Fleet.neverShut_play`). A manager is open as
long as it is new, so a start launches the whole queue unless a bot does not give its name
(`Fleet.startsWhole_play`). Where every bot that the manager launches gives its name the registered
launches are those whose tasks go on, so none is missed and none of them is about to leave
(`Fleet.unbroken_play`).
-/

namespace Flotilla

/-- What a pool that is closed answers to whoever wants a bot launched. -/
def Halt.shut : Halt := .refused .poolClosed

theorem WaitStage.Proceeds.ne_shut {panics : String → Prop} {stage : WaitStage}
    (goes : stage.Proceeds panics) :
    stage ≠ .over (.halted .shut) := by
  rintro rfl
  cases goes

theorem toStart_eq_starting {phase : Phase} : phase.toStart = .starting ↔ phase = .starting := by
  cases phase <;> simp [Phase.toStart]

namespace Fleet

/-- Nobody is told that a pool is closed: no call is answered so, and nobody's waiting ends so. -/
structure NeverShut (f : Fleet) : Prop where
  calls : ∀ span c, (f.perform span c).2 ≠ .halted .shut
  waiters : ∀ w, (f.wait w).stage ≠ .over (.halted .shut)

/-- A call of `start` returns, and then the bots that were in the queue are launched, and the
manager runs. -/
structure StartsWhole (f : Fleet) (m : Nat) (span : Option Span) : Prop where
  returns : (f.start m span).2 = none
  runs : ((f.start m span).1.manager m).phase = .running
  emptied : ((f.start m span).1.manager m).queue = []
  launched : (f.start m span).1.HasLaunched m (f.manager m).queue

/-- The label of a registered launch that goes on. -/
def plainLabel (f : Fleet) (x : Nat × Launch) : String :=
  (f.bot x.2.bot).plan.name ++ "#" ++ toString x.1

/-- A waiter that reports which bots it waits for says of none that it is about to leave. -/
def LabelsPlain (f : Fleet) (m : Nat) : Prop :=
  f.outstanding m = .ok ((f.manager m).registry.map f.plainLabel)

/-- A manager is not found half started, whoever is yet to be completed is registered, nobody is
refused in its pool as long as it is open, and nobody that is waited for is about to leave. -/
structure Unbroken (f : Fleet) (m : Nat) : Prop where
  phase : (f.manager m).phase ≠ .starting
  registered : ∀ id, (f.launch ⟨m, id⟩).stage ≠ .over → (f.launch ⟨m, id⟩).registered = true
  admits : ∀ id, (f.launch ⟨m, id⟩).stage ≠ .over →
    f.isAdmissible ⟨m, id⟩ = !(f.manager m).closed
  labels : f.LabelsPlain m
  labelsAtStop : ∀ mv g span, f.StopCall mv g m span → (g.stop m span).1.LabelsPlain m

variable {f : Fleet} {m w : Nat} {span : Option Span} {mv : Move}

/-! ## Nobody finds a pool closed -/

theorem perform_ne_shut (sound : f.Sound) (orderly : ∀ m, f.Has m → (f.view m).Orderly)
    (span : Option Span) (c : Call) : (f.perform span c).2 ≠ .halted .shut := by
  have operation (m : Nat) (op : Operation) : (f.perform span (op.call m)).2 ≠ .halted .shut := by
    intro answer
    cases held : f.isHeld m with
    | false =>
        have unheard : f.perform span (op.call m) = (f, .noManager) := by
          unfold perform
          cases op <;> simp [Operation.call, callee?, held]
        rw [unheard] at answer
        cases answer
    | true =>
        have byPhase := refusesByPhase sound (orderly m (has_of_isHeld sound held))
        cases allowed : op.isAllowed (f.manager m).phase with
        | false =>
            rw [byPhase.refused op span held allowed] at answer
            cases answer
        | true =>
            rcases byPhase.allowed op span held allowed with returns | ⟨text, panicked, -⟩
            · cases returns.symm.trans answer
            · cases panicked.symm.trans answer
  cases c with
  | add m b => exact operation m (.add b)
  | start m => exact operation m .start
  | stop m => exact operation m .stop
  | handles m =>
      unfold perform
      intro answer
      split at answer
      · cases answer
      · dsimp only at answer
        split at answer <;> cases answer
  | _ =>
      unfold perform
      intro answer
      split at answer <;> cases answer

/-- At its own turn nobody is told that the pool is closed. -/
theorem ownTurn_ne_shut (sound : f.Sound) (orderly : ∀ m, f.Has m → (f.view m).Orderly)
    (turn : f.tasks.running = some (.wait w))
    (before : (f.wait w).stage ≠ .over (.halted .shut)) :
    ((f.move .turn).wait w).stage ≠ .over (.halted .shut) := by
  cases done : (f.wait w).stage.isOver with
  | true =>
      have rests : f.stepWait w = f.park := by
        unfold stepWait
        simp [done]
      rw [move_turn turn, show f.stepTask (.wait w) = _ from rests]
      exact before
  | false =>
      cases aborted : (f.wait w).aborted with
      | true =>
          have ends : f.stepWait w = f.endWait w .aborted := by
            unfold stepWait
            simp [done, aborted]
          rw [move_turn turn, show f.stepTask (.wait w) = _ from ends, stage_endWait done]
          nofun
      | false =>
          cases asks : (f.wait w).request? with
          | some asked =>
              obtain ⟨op, es⟩ := asked
              have owned := sound.owned _ (List.mem_of_getElem? (found_of_wait rfl done))
              cases allowed : op.isAllowed (f.manager (f.wait w).manager).phase with
              | true =>
                  exact (waiter_allowed sound (orderly _ owned) turn aborted asks allowed).ne_shut
              | false =>
                  rw [(waiter_refused sound turn aborted asks allowed).1]
                  nofun
          | none => exact (waiter_goesOn turn done aborted asks).ne_shut

theorem move_ne_shut (sound : f.Sound) (orderly : ∀ m, f.Has m → (f.view m).Orderly)
    (before : (f.wait w).stage ≠ .over (.halted .shut)) (mv : Move) :
    ((f.move mv).wait w).stage ≠ .over (.halted .shut) := by
  by_cases stays : mv = .turn
  · subst stays
    rcases turn_cases f with ⟨t, turn, eq⟩ | ⟨-, eq | ⟨tasks, -, eq⟩⟩
    · by_cases own : t = .wait w
      · subst own
        exact ownTurn_ne_shut sound orderly turn before
      · rw [eq, wait_stepTask own]
        exact before
    · rw [eq]
      exact before
    · rw [eq]
      exact before
  · exact fun done => before (over_of_move stays done)

/-! ## Starts -/

/-- A start returns unless a bot of the queue that it launches does not give its name. -/
theorem start_of_answered (has : f.Has m) (orderly : (f.view m).Orderly)
    (isNew : (f.manager m).phase = .new) (span : Option Span)
    (answers : ∀ b ∈ (f.manager m).queue, b ∈ ((f.start m span).1.manager m).bots →
      f.panicOf? b .name = none) : (f.start m span).2 = none := by
  cases halted : (f.start m span).2 with
  | none => rfl
  | some halt =>
      obtain ⟨text, -, b, queued, panicked, launched⟩ :=
        halt_start has (orderly.isOpen (Or.inl isNew)) isNew halted
      cases (answers b queued launched).symm.trans panicked

/-- A manager comes to be half started only if a bot that it launches does not give its name. -/
theorem Enlists.ne_starting (h : Enlists f m mv) (sound : f.Sound)
    (orderly : (f.view m).Orderly)
    (answers : ∀ b ∈ ((f.move mv).manager m).bots, f.panicOf? b .name = none)
    (was : (f.manager m).phase ≠ .starting) : ((f.move mv).manager m).phase ≠ .starting := by
  intro starting
  have enrolled : ((f.move mv).view m).enrolment.phase = .starting :=
    congrArg Phase.toStart starting
  cases h with
  | still nobody same =>
      rw [same] at enrolled
      exact was (toStart_eq_starting.mp enrolled)
  | registered accepted phase eq =>
      rw [eq, Enrolment.phase_register] at enrolled
      exact was (toStart_eq_starting.mp enrolled)
  | started nobody called isNew eq =>
      rw [eq] at enrolled
      cases enrolled
  | failed nobody called isNew goesOn =>
      obtain ⟨span, call⟩ := called
      have same : ((f.move mv).manager m).bots = ((f.start m span).1.manager m).bots :=
        congrArg Enrolment.bots (call.enrolment sound)
      have returns := start_of_answered (call.has sound) orderly isNew span fun b _ launched =>
        answers b (same ▸ launched)
      have running := StartReturns.running ⟨span, call, returns⟩ sound
      cases running.symm.trans goesOn

/-! ## Labels -/

theorem outstandingLabels_of_goesOn {regs : List (Nat × Launch)}
    (answers : ∀ x ∈ regs, f.panicOf? x.2.bot .name = none)
    (goOn : ∀ x ∈ regs, x.2.stage.isOver = false) :
    f.outstandingLabels regs = .ok (regs.map fun x => (x.1, f.plainLabel x)) := by
  induction regs with
  | nil => rfl
  | cons x rest ih =>
      obtain ⟨answered, others⟩ := List.forall_mem_cons.mp answers
      obtain ⟨here, later⟩ := List.forall_mem_cons.mp goOn
      have named : f.askName x.2.bot = .ok (f.bot x.2.bot).plan.name := by
        unfold askName
        rw [answered]
      obtain ⟨id, l⟩ := x
      rw [outstandingLabels, named]
      dsimp only
      rw [ih others later, here]
      simp [Except.map, outstandingLabel, plainLabel]

/-- Where the registered launches are those whose tasks go on, nobody is about to leave. -/
theorem labelsPlain_of_accounted
    (answers : ∀ l ∈ (f.manager m).launches, f.panicOf? l.bot .name = none)
    (accounted : (f.view m).Accounted) : f.LabelsPlain m := by
  have perm := (f.manager m).walked_perm
  have known (x : Nat × Launch) (mem : x ∈ (f.manager m).walked) :=
    Manager.mem_registry.mp (perm.subset mem)
  have asked := outstandingLabels_of_goesOn
    (fun x mem => answers x.2 (List.mem_of_getElem? (known x mem).1)) fun x mem => by
      obtain ⟨found, registered⟩ := known x mem
      have goesOn := accounted x.1 x.2 found
      rw [registered] at goesOn
      simpa using goesOn.symm
  have sorted : sortBy Prod.fst ((f.manager m).walked.map fun x => (x.1, f.plainLabel x)) =
      (f.manager m).registry.map fun x => (x.1, f.plainLabel x) := by
    refine sortBy_eq_of_perm (perm.map _) ?_
    rw [List.map_map]
    exact Manager.pairwise_registry (f.manager m)
  unfold LabelsPlain outstanding
  rw [asked]
  show Except.ok ((sortBy Prod.fst _).map Prod.snd) = _
  rw [sorted, List.map_map]
  rfl

/-! ## Runs -/

variable {managers : List ManagerPlan} {bots : List BotPlan} {ms : List Move}

/-- In no run is anybody told that a pool is closed. -/
theorem neverShut_play (managers : List ManagerPlan) (bots : List BotPlan) (ms : List Move) :
    ((raw managers bots).play ms).NeverShut where
  calls := perform_ne_shut (sound_play managers bots ms) fun m has =>
    (regular_play (has_play.mp has) bots ms).orderly
  waiters := fun w => by
    induction ms using List.reverseRecOn with
    | nil => nofun
    | append_singleton ms mv ih =>
        rw [play_append]
        exact move_ne_shut (sound_play managers bots ms)
          (fun m has => (regular_play (has_play.mp has) bots ms).orderly) ih mv

/-- In every run a start launches the whole queue, unless a bot in it panics when it is asked its
name. -/
theorem startsWhole_play (has : m < managers.length) (bots : List BotPlan) (ms : List Move)
    (isNew : (((raw managers bots).play ms).manager m).phase = .new)
    (answers : ∀ b ∈ (((raw managers bots).play ms).manager m).queue,
      ((raw managers bots).play ms).panicOf? b .name = none) (span : Option Span) :
    ((raw managers bots).play ms).StartsWhole m span := by
  have there : ((raw managers bots).play ms).Has m := has_play.mpr has
  have orderly := (regular_play has bots ms).orderly
  have returns := start_of_answered there orderly isNew span fun b queued _ => answers b queued
  obtain ⟨-, runs, started⟩ := (enrolment_start there isNew span).resolve_right fun failed =>
    failed.1 returns
  have holds := holds_play has bots ms
  obtain ⟨noBots, nothing, queue⟩ := holds.isNew (congrArg Phase.toStart isNew)
  have after := holds.start (congrArg Phase.toStart isNew)
  rw [← started, ← queue] at after
  refine ⟨returns, runs, ?_, hasLaunched_of_running after (congrArg Phase.toStart runs)⟩
  rw [Enrolment.start_eq _ noBots nothing] at started
  exact congrArg Enrolment.queue started

/-- Where every bot that it launches gives its name a manager is not found half started. -/
theorem phase_ne_starting (has : m < managers.length)
    (answers : (raw managers bots).Answering m ms) :
    (((raw managers bots).play ms).manager m).phase ≠ .starting := by
  induction ms using List.reverseRecOn with
  | nil =>
      have isNew : ((raw managers bots).manager m).phase = .new := (untouched_raw has bots).phase
      exact fun starting => nomatch isNew.symm.trans starting
  | append_singleton ms mv ih =>
      have before := answers.mono (sound_raw managers bots) (List.prefix_append ms [mv])
      have steps := enlists_play has bots ms mv
      rw [play_append]
      refine steps.ne_starting (sound_play managers bots ms) (regular_play has bots ms).orderly
        (fun b launched => ?_) (ih before)
      obtain ⟨l, mem, rfl⟩ := List.mem_map.mp launched
      refine answers l ?_ ms (List.prefix_append ms [mv])
      rw [play_append]
      exact mem

/-- In a run in which every bot that a manager launches gives its name nothing of it is ever half
done. -/
theorem unbroken_play (has : m < managers.length) (answers : (raw managers bots).Answering m ms) :
    ((raw managers bots).play ms).Unbroken m where
  phase := phase_ne_starting has answers
  registered := fun _ => registered_of_goesOn answers
  admits := fun id goesOn => by
    rw [isAdmissible, registered_of_goesOn answers goesOn, Bool.and_true]
  labels := labelsPlain_of_accounted (fun l mem => answers l mem ms (List.prefix_refl ms))
    (clear_play has answers).accounted
  labelsAtStop := fun mv g span call => by
    have sound := sound_raw managers bots
    have ready := ready_ofRun sound (List.prefix_refl ms)
    have stopped : Leads (.ofRun (raw managers bots) ms) ((raw managers bots).play ms)
        (g.stop m span).1 := call.before.trans (leads_stop g m span fun _ => trivial)
    have calm : ((g.stop m span).1.view m).Calm (.ofRun (raw managers bots) ms) :=
      (answers.calm sound (List.prefix_refl ms)).of_launches
        ((launches_stop g m span).trans (call.launches_eq (sound_play managers bots ms)))
    refine labelsPlain_of_accounted (fun l mem => ?_) ?_
    · obtain ⟨id, found⟩ := List.mem_iff_getElem?.mp mem
      exact (stopped.ready ready).named l.bot (calm id l found)
    · exact (Steps.clear (call.toStop ready) calm (regular_play has bots ms)
        (clear_play has answers)).accounted

/-- What does not go wrong at a point of a run. -/
structure NeverFails (f : Fleet) (m : Nat) (ms : List Move) : Prop where
  neverShut : (f.play ms).NeverShut
  startsWhole : ∀ span, ((f.play ms).manager m).phase = .new →
    (∀ b ∈ ((f.play ms).manager m).queue, (f.play ms).panicOf? b .name = none) →
      (f.play ms).StartsWhole m span
  unbroken : f.Answering m ms → (f.play ms).Unbroken m
  quiet : (∀ m', f.Answering m' ms) → (f.play ms).Quiet

/-- In no run is anybody told that a pool is closed, and every start launches the whole queue
unless a bot in it panics when it is asked its name. If no bot that the manager launches ever does,
then the manager is not found half started, whoever is yet to be completed is registered, nobody is
refused in its pool as long as it is open, and nobody that is waited for is about to leave. If no
bot that any manager launches ever does, then the log never says that somebody who was completed was
not registered. -/
theorem never_fails (has : m < managers.length) (bots : List BotPlan) (ms : List Move) :
    (raw managers bots).NeverFails m ms where
  neverShut := neverShut_play managers bots ms
  startsWhole := fun span isNew answers => startsWhole_play has bots ms isNew answers span
  unbroken := unbroken_play has
  quiet := quiet_play

/-- A manager with a bot in its queue is started, and the bot is launched. -/
theorem never_fails_of_queued :
    let f := raw [Sample.oneSlot] [Sample.bot false]
    let ms : List Move := [.call (.add 0 0)]
    let ms' : List Move := [.call (.add 0 0), .call (.start 0)]
    f.NeverFails 0 ms ∧ ((f.play ms).manager 0).queue = [0] ∧ (f.play ms).StartsWhole 0 none ∧
      (f.play ms).Unbroken 0 ∧ ((f.play ms').manager 0).ids = [0] ∧ (f.play ms').Unbroken 0 ∧
        (f.play ms').Quiet := by
  have never (ms : List Move) := never_fails (show 0 < [Sample.oneSlot].length by decide)
    [Sample.bot false] ms
  have first := never [.call (.add 0 0)]
  have later := never [.call (.add 0 0), .call (.start 0)]
  refine ⟨first, by decide, first.startsWhole none (by decide) (fun b _ => ?_),
    first.unbroken (answering_of_unarmed _ _ (by simp)), by decide,
    later.unbroken (answering_of_unarmed _ _ (by simp)),
    later.quiet fun _ => answering_of_unarmed _ _ (by simp)⟩
  exact answers_of_unarmed [Sample.oneSlot] [Sample.bot false] (by simp) _ (List.prefix_refl _)

/-- A manager that is started when a bot in its queue panics at its name is left half started: the
bot has its task and is not registered. -/
theorem starting_of_unnamed :
    let f := (raw [Sample.oneSlot] [Sample.bot false]).play [.call (.add 0 0), .arm 0 .name]
    let g := f.move (.call (.start 0))
    (f.perform none (.start 0)).2 = .halted (.panicked "name of bot 0") ∧
      (g.manager 0).phase = .starting ∧ (g.launch ⟨0, 0⟩).stage.isOver = false ∧
        g.isAdmissible ⟨0, 0⟩ = false ∧ (g.manager 0).closed = false ∧ ¬ g.Unbroken 0 := by
  exact ⟨rfl, by decide, by decide, by decide, by decide,
    fun unbroken => unbroken.phase (by decide)⟩

end Fleet

end Flotilla
