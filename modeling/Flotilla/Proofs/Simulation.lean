import Flotilla.Proofs.Simulation.Waiters

/-!
# Every move is a sequence of steps

`Fleet.steps_move`: whatever a move does to a fleet is, for every manager, a sequence of steps,
in which a manager is stopped only by a call of `stop` in the course of the move
(`Fleet.StopCall`), bots come to it only by a call of `add` or `start` (`Fleet.AddCall`,
`Fleet.StartCall`), and a launch is run only by a call of its run (`Fleet.RunCall`).
-/

namespace Flotilla

namespace Fleet

/-! ## Calls in the course of a move -/

/-- In the course of a move `stop` is called for a manager, when the fleet is `g`: by the
owner, within the run of a launch, or by a waiter. -/
inductive StopCall (f : Fleet) : Move → Fleet → Nat → Option Span → Prop
  | byOwner {m : Nat} (held : f.isHeld m = true) : StopCall f (.call (.stop m)) f m none
  | inRun {r : RunName} {m : Nat} {left : List Call} (turn : f.tasks.running = some (.bot r))
    (calls : (f.launch r).stage = .calling (.stop m :: left)) (held : f.isHeld m = true) :
    StopCall f .turn f m (some (f.spanOf r))
  | byWaiter {w : Nat} (turn : f.tasks.running = some (.wait w))
    (first : (f.wait w).stage = .submitted) (stops : (f.wait w).purpose = .stop)
    (kept : (f.wait w).aborted = false) : StopCall f .turn f (f.wait w).manager none
  | atSignal {w : Nat} {s : Signal} (turn : f.tasks.running = some (.wait w))
    (got : (f.wait w).stage = .signalled s) (kept : (f.wait w).aborted = false) :
    StopCall f .turn (f.heeded (f.wait w).manager s) (f.wait w).manager none

/-- The call that the owner makes by a move, or the run of a launch in its turn, and the span in
which it is made. -/
def callIn? (f : Fleet) : Move → Option (Call × Option Span)
  | .call c => some (c, none)
  | .turn =>
    match f.tasks.running with
    | some (.bot r) =>
      match (f.launch r).stage with
      | .calling (c :: _) => some (c, some (f.spanOf r))
      | _ => none
    | _ => none
  | _ => none

/-- In the course of a move `add` is called for a manager and a bot. -/
structure AddCall (f : Fleet) (mv : Move) (m b : Nat) (span : Option Span) : Prop where
  call : f.callIn? mv = some (.add m b, span)
  held : f.isHeld m = true

/-- In the course of a move `start` is called for a manager: by the owner, within the run of a
launch, or by a waiter. -/
inductive StartCall (f : Fleet) : Move → Nat → Option Span → Prop
  | called {mv : Move} {m : Nat} {span : Option Span}
    (call : f.callIn? mv = some (.start m, span)) (held : f.isHeld m = true) :
    StartCall f mv m span
  | byWaiter {w : Nat} (turn : f.tasks.running = some (.wait w))
    (first : (f.wait w).stage = .submitted) (starts : (f.wait w).purpose = .untilSignal)
    (kept : (f.wait w).aborted = false) : StartCall f .turn (f.wait w).manager none

/-- In the course of a move `add` or `start` is called for a manager. -/
def Enrols (m : Nat) (f : Fleet) (mv : Move) : Prop :=
  (∃ b span, f.AddCall mv m b span) ∨ ∃ span, f.StartCall mv m span

theorem enrols_of_call {f : Fleet} {mv : Move} {m : Nat} {c : Call} {span : Option Span}
    (call : f.callIn? mv = some (c, span)) (enrolling : enrolling? c = some m)
    (held : f.isHeld m = true) : f.Enrols m mv := by
  cases c with
  | add m' b =>
      cases enrolling
      exact Or.inl ⟨b, span, call, held⟩
  | start m' =>
      cases enrolling
      exact Or.inr ⟨span, .called call held⟩
  | _ => cases enrolling

/-- In the course of a move the run of a launch is called: the launch has its turn, may be
admitted and has its slot, or finds one free, and its bot gives its name. -/
structure RunCall (f : Fleet) (mv : Move) (r : RunName) : Prop where
  isTurn : mv = .turn
  turn : f.tasks.running = some (.bot r)
  can : (f.view r.manager).CanEnter (f.launch r)
  answers : f.panicOf? (f.launch r).bot .name = none

/-- What a move may do: it runs, stops and launches what is called to be, a run ends as the
ending of its bot says, and a bot panics when it is asked its name only if it was made to. -/
def licence (f : Fleet) (mv : Move) : Licence where
  panics := fun b => f.panicOf? b .name ≠ none
  acts := True
  runs := f.RunCall mv
  stops := fun m => ∃ g span, f.StopCall mv g m span ∧ (g.manager m).phase = .running
  enrols := fun m => f.Enrols m mv
  ends := fun r outcome => outcome = f.outcomeOf r

variable {L : Licence} {f f' : Fleet} {m m' : Nat} {mv : Move}

/-! ## Moves outside of any turn -/

theorem has_of_isHeld (sound : f.Sound) (held : f.isHeld m = true) : f.Has m := by
  unfold isHeld at held
  rcases Bool.or_eq_true_iff.mp held with owned | waited
  · unfold isOwned at owned
    cases found : f.managers[m]? with
    | none =>
        rw [found] at owned
        cases owned
    | some mgr => exact (List.getElem?_eq_some_iff.mp found).1
  · obtain ⟨wt, mem, waits⟩ := List.any_eq_true.mp waited
    have same := (Bool.and_eq_true_iff.mp waits).1
    rw [beq_iff_eq] at same
    rw [← same]
    exact sound.owned wt mem

theorem leads_addWait (acts : L.acts) {wt : Wait} (fresh : wt.stage = .submitted)
    (clamped : Settings.shortestPoll.nanos ≤ wt.poll.nanos)
    (has : f.Ready L → f.Has wt.manager) : Leads L f (f.addWait wt).1 := by
  refine .of_steps (fun _ _ => Or.inl) (fun _ => rfl) (fun _ => Iff.rfl) (fun ready wt' mem => ?_)
    (fun _ => rfl) fun _ m _ => ?_
  · rcases List.mem_append.mp mem with mem | mem
    · exact ready.owned wt' mem
    · rw [List.mem_singleton.mp mem]
      exact has ready
  · unfold addWait
    dsimp only
    rw [view_wake_of_concerns rfl]
    exact .single (.spawn acts fresh clamped)

theorem shortestPoll_le_clampPoll (d : Duration) :
    Settings.shortestPoll.nanos ≤ (Settings.clampPoll d).nanos :=
  Nat.le_max_right _ _

theorem leads_spawnWait (acts : L.acts) (f : Fleet) (m : Nat) (poll : Option Duration)
    (cancelled : Bool) : Leads L f (f.spawnWait m poll cancelled).1 := by
  unfold spawnWait
  split
  · rename_i held
    refine leads_addWait acts rfl ?_ fun ready => has_of_isHeld ready.toSound held
    cases poll <;> exact shortestPoll_le_clampPoll _
  · exact .refl L f

theorem leads_spawnRun (acts : L.acts) (f : Fleet) (m : Nat) : Leads L f (f.spawnRun m).1 := by
  unfold spawnRun
  split
  · rename_i held
    exact leads_addWait acts rfl (shortestPoll_le_clampPoll _) fun ready =>
      has_of_isHeld ready.toSound held
  · exact .refl L f

theorem leads_mark (acts : L.acts) (f : Fleet) (w : Nat) {g : Wait → Wait}
    (stage : ∀ wt, (g wt).stage = wt.stage) (manager : ∀ wt, (g wt).manager = wt.manager)
    (poll : ∀ wt, (g wt).poll = wt.poll) : Leads L f ((f.modifyWait w g).wake (.wait w)) :=
  ((steady_modifyWait f w manager).trans (steady_wake _ _)).leads fun _ m _ => by
    rw [view_wake_of_concerns rfl]
    exact .single (.mark acts stage manager poll)

theorem leads_signalWait (acts : L.acts) (f : Fleet) (s : Signal) (w : Nat) :
    Leads L f (f.signalWait s w) := by
  unfold signalWait
  split
  · rename_i listens
    refine ((steady_setWaitStage f w _).trans (steady_wake _ _)).leads fun _ m _ => ?_
    rw [view_wake_of_concerns rfl]
    exact .single (.signal acts (found_of_wait listens rfl) listens)
  · exact .refl L f

theorem leads_cancelWait (acts : L.acts) (f : Fleet) (w : Nat) :
    Leads L f (f.cancelWait w).1 := by
  unfold cancelWait
  split
  · exact .refl L f
  · split
    · exact leads_mark acts f w (fun _ => rfl) (fun _ => rfl) fun _ => rfl
    · exact .refl L f

theorem leads_abortWait (acts : L.acts) (f : Fleet) (w : Nat) : Leads L f (f.abortWait w).1 := by
  unfold abortWait
  split
  · exact .refl L f
  · split
    · exact .refl L f
    · exact leads_mark acts f w (fun _ => rfl) (fun _ => rfl) fun _ => rfl

theorem leads_wakeListener (L : Licence) (f : Fleet) (m : Nat) : Leads L f (f.wakeListener m) :=
  (steady_wakeListener f m).leads_of_view fun _ => view_wakeListener

theorem leads_dropManager (L : Licence) (f : Fleet) (m : Nat) : Leads L f (f.dropManager m) := by
  have dropped : Leads L f (f.modifyManager m fun mgr => { mgr with owned := false }) :=
    (steady_modifyManager f m _ (by rfl)).leads_of_view fun _ =>
      view_modifyManager_of_core _ fun _ => rfl
  unfold dropManager
  dsimp only
  split
  · exact dropped
  · exact dropped.trans (leads_wakeListener L _ m)

theorem leads_releaseSubscriber (L : Licence) (f : Fleet) (m i times : Nat) :
    Leads L f (f.releaseSubscriber m i times) := by
  unfold releaseSubscriber
  split
  · exact .refl L f
  · have released := leads_modifyRelay L f m
      (fun r => { r with fanout := r.fanout.release i times }) fun r _ =>
        Fanout.subscribers_release r.fanout i times
    dsimp only
    split
    · exact released.trans (leads_wake_aside L _ fun _ => rfl)
    · exact released

theorem core_lookAt (x : Manager) : (lookAt x).core = x.core := rfl

theorem subscribers_lookAt (x : Manager) : (lookAt x).subscribers = x.subscribers := by
  refine Manager.subscribers_modifyRelay fun r (_ : x.relay = some r) => ?_
  rw [Relay.subscribers, Fanout.look, List.map_map]
  rfl

theorem leads_look (L : Licence) (f : Fleet) :
    Leads L f { f with managers := f.managers.map lookAt } := by
  have same {α : Type} (part : Manager → α) (kept : ∀ x, part (lookAt x) = part x) (m : Nat) :
      part (Fleet.manager { f with managers := f.managers.map lookAt } m) =
        part (f.manager m) := by
    unfold manager
    rw [List.getD_eq_getElem?_getD, List.getD_eq_getElem?_getD, List.getElem?_map]
    cases f.managers[m]? with
    | none => rfl
    | some mgr => exact kept mgr
  have steady : Steady f { f with managers := f.managers.map lookAt } :=
    .of_managers rfl rfl (List.length_map _) (same Manager.subscribers subscribers_lookAt)
  refine steady.leads_of_view fun m => ?_
  unfold view
  rw [same Manager.core core_lookAt]
  rfl

theorem leads_strike (L : Licence) (f : Fleet) (time : Nat) : Leads L f (f.strike time) := by
  have set : Leads L f { f with clock := time } :=
    Steady.leads_of_view (.of_eq rfl rfl rfl) fun _ => rfl
  apply set.trans
  have woken := leads_wakeAll_wait L { f with clock := time }
    ((f.timers.filter fun t => t.due ≤ time).map Timer.wait)
  rw [List.map_map] at woken
  exact woken

/-! ## Turns -/

theorem leads_next (acts : L.acts) (idle : f.tasks.running = none) {tasks : Scheduler Task}
    (next : f.tasks.next? = some tasks) : Leads L f { f with tasks } := by
  refine Steady.leads (.of_eq rfl rfl rfl) fun _ m _ => ?_
  unfold Scheduler.next? at next
  split at next
  · cases next
  · rename_i t rest ready
    cases next
    cases near : t.concerns m with
    | true =>
        have first : (f.view m).line = t :: rest.filter (Task.concerns m) := by
          show f.tasks.ready.filter (Task.concerns m) = _
          rw [ready, List.filter_cons_of_pos near]
        exact .single (.next acts idle first)
    | false =>
        have same : (f.view m).line = rest.filter (Task.concerns m) := by
          show f.tasks.ready.filter (Task.concerns m) = _
          rw [ready, List.filter_cons_of_neg (by simp [near])]
        show Steps L m (f.view m)
          { f.view m with line := rest.filter (Task.concerns m), running := some t }
        rw [← same]
        exact .single (.elsewhere acts idle near)

/-- A turn runs only what is called to run, and stops only what is called to stop. -/
theorem leads_turn (f : Fleet) : Leads (f.licence .turn) f (f.move .turn) := by
  unfold move step?
  cases turn : f.tasks.running with
  | none =>
      cases next : f.tasks.next? with
      | none => exact .refl _ f
      | some tasks => exact leads_next trivial turn next
  | some t =>
      cases t with
      | bot r =>
          refine leads_stepBot trivial turn (fun can answers => ⟨rfl, turn, can, answers⟩)
            (fun m left calls held isRunning => ⟨f, _, .inRun turn calls held, isRunning⟩)
            (fun m c left calls enrolling held => ?_) rfl
          have call : f.callIn? .turn = some (c, some (f.spanOf r)) := by
            unfold callIn?
            rw [turn]
            dsimp only
            rw [calls]
          exact enrols_of_call call enrolling held
      | wait w =>
          exact leads_stepWait trivial turn
            (fun first stops kept isRunning =>
              ⟨f, none, .byWaiter turn first stops kept, isRunning⟩)
            (fun s got kept isRunning => ⟨_, none, .atSignal turn got kept, isRunning⟩)
            fun first starts kept => Or.inr ⟨none, .byWaiter turn first starts kept⟩
      | listener m => exact leads_stepListener trivial turn
      | worker m i => exact leads_stepWorker trivial turn
      | dismissal => exact leads_stepDismissal trivial turn

/-! ## Every move -/

/-- Making a bot panic, or answer again, concerns no manager. -/
theorem sound_modifyBot {g : Bot → Bot} (b : Nat) (plan : (g (f.bot b)).plan = (f.bot b).plan)
    (permits : (g (f.bot b)).permits = (f.bot b).permits)
    (liveness : (g (f.bot b)).liveness = (f.bot b).liveness) (sound : f.Sound) :
    (f.modifyBot b g).Sound := by
  have same (b' : Nat) : ((f.modifyBot b g).bot b').permits = (f.bot b').permits ∧
      ((f.modifyBot b g).bot b').liveness = (f.bot b').liveness := by
    rw [bot_modifyBot]
    split
    · rename_i inside
      rw [← inside.1]
      exact ⟨permits, liveness⟩
    · exact ⟨rfl, rfl⟩
  refine ⟨fun r known => ?_, sound.owned, sound.unlaunched⟩
  obtain ⟨b', known⟩ := known
  rw [(same b').1, (same b').2] at known
  unfold Begun
  rw [view_modifyBot b g plan]
  exact sound.known r ⟨b', known⟩

/-- A move that makes no bot panic or answer again leads on. -/
theorem leads_move (f : Fleet) {mv : Move} (unarmed : ∀ b what, mv ≠ .arm b what)
    (armed : ∀ b what, mv ≠ .disarm b what) : Leads (f.licence mv) f (f.move mv) := by
  cases mv with
  | call c =>
      refine leads_perform f none c (fun m eq held isRunning => ?_)
        fun m => enrols_of_call (show f.callIn? (.call c) = some (c, none) from rfl)
      subst eq
      exact ⟨f, none, .byOwner held, isRunning⟩
  | wait m poll cancelled => exact leads_spawnWait trivial f m poll cancelled
  | runUntilSignal m => exact leads_spawnRun trivial f m
  | cancel w => exact leads_cancelWait trivial f w
  | abort w => exact leads_abortWait trivial f w
  | signal s w => exact leads_signalWait trivial f s w
  | drop m => exact leads_dropManager _ f m
  | release m i times => exact leads_releaseSubscriber _ f m i times
  | arm b what => exact absurd rfl (unarmed b what)
  | disarm b what => exact absurd rfl (armed b what)
  | look => exact leads_look _ f
  | turn => exact leads_turn f
  | strike time => exact leads_strike _ f time
  | setClock time => exact Steady.leads_of_view (.of_eq rfl rfl rfl) fun _ => rfl

/-- Whatever a move does is, for every manager, a sequence of steps. -/
theorem steps_move (sound : f.Sound) (mv : Move) :
    (f.move mv).Sound ∧ (∀ m, (f.move mv).Has m ↔ f.Has m) ∧
      ∀ m, f.Has m → Steps (f.licence mv) m (f.view m) ((f.move mv).view m) := by
  have ready : f.Ready (f.licence mv) := sound.ready fun _ panics => panics
  have done (lead : Leads (f.licence mv) f (f.move mv)) : (f.move mv).Sound ∧
      (∀ m, (f.move mv).Has m ↔ f.Has m) ∧
        ∀ m, f.Has m → Steps (f.licence mv) m (f.view m) ((f.move mv).view m) :=
    ⟨(lead.ready ready).toSound, lead.has ready, lead.steps ready⟩
  cases mv with
  | arm b what =>
      have plan (x : Bot) : (x.arm what).plan = x.plan ∧ (x.arm what).permits = x.permits ∧
          (x.arm what).liveness = x.liveness := by
        unfold Bot.arm
        split <;> exact ⟨rfl, rfl, rfl⟩
      refine ⟨sound_modifyBot b (plan _).1 (plan _).2.1 (plan _).2.2 sound, fun _ => Iff.rfl,
        fun m _ => ?_⟩
      rw [move, view_modifyBot b _ (plan _).1]
  | disarm b what =>
      refine ⟨sound_modifyBot b rfl rfl rfl sound, fun _ => Iff.rfl, fun m _ => ?_⟩
      rw [move, view_modifyBot b _ rfl]
  | _ => exact done (leads_move f (fun _ _ eq => by cases eq) fun _ _ eq => by cases eq)

theorem panicOf?_modifyBot {g : Bot → Bot} {what : Method} (b : Nat) {b' : Nat}
    (armed : b = b' → ∀ x : Bot, what ∈ (g x).armed → what ∈ x.armed)
    (answers : f.panicOf? b' what = none) : (f.modifyBot b g).panicOf? b' what = none := by
  have unarmed : what ∉ (f.bot b').armed := by
    unfold panicOf? at answers
    split at answers
    · cases answers
    · assumption
  unfold panicOf?
  rw [if_neg]
  rw [bot_modifyBot]
  split
  · rename_i inside
    exact fun mem => unarmed (armed inside.1 _ mem)
  · exact unarmed

/-- A bot that gives its name gives it after any move but the one that makes it panic. -/
theorem answers_move {b : Nat} (sound : f.Sound) (answers : f.panicOf? b .name = none)
    (unarmed : mv ≠ .arm b .name) : (f.move mv).panicOf? b .name = none := by
  have goesOn (lead : Leads (f.licence mv) f (f.move mv)) :
      (f.move mv).panicOf? b .name = none :=
    (lead.ready (sound.ready fun _ panics => panics)).named b fun panics => panics answers
  cases mv with
  | arm b' what =>
      refine panicOf?_modifyBot b' (fun same x mem => ?_) answers
      subst same
      unfold Bot.arm at mem
      split at mem
      · exact mem
      · rcases List.mem_cons.mp mem with rfl | mem
        · exact absurd rfl unarmed
        · exact mem
  | disarm b' what =>
      exact panicOf?_modifyBot b' (fun _ x mem => (List.mem_filter.mp mem).1) answers
  | _ => exact goesOn (leads_move f (fun _ _ eq => by cases eq) fun _ _ eq => by cases eq)

end Fleet

end Flotilla
