import Flotilla.Proofs.Termination

/-!
# Those who wait for the end of a manager

A waiter that stopped its manager and is not done is told at once of the end of the last task
and of the cancellation of its token, whatever the time between its reports and however many of
them it made: `Fleet.Attends`, which holds in every run. A waiter that returned without an error
left a pool without tasks; in a run in which every bot that its manager launches gives its name the
manager is terminated (`Fleet.ReturnsAtEnd`), and if one does not, it need not be
(`Fleet.not_returnsAtEnd_of_mute`).
-/

namespace Flotilla

namespace Fleet

/-- The waiter calls `stop` in the course of a move, and it succeeds. -/
def WaiterStops (w : Nat) (f : Fleet) (mv : Move) : Prop :=
  mv = .turn ∧ f.tasks.running = some (.wait w) ∧
    ∃ g m, f.StopCall mv g m none ∧ (g.stop m none).2 = none

/-- A waiter that returns without an error leaves a closed pool without tasks. One that stopped
its manager goes on as soon as the pool is drained or its token cancelled, so when nothing can
go on it only waits if its token is not cancelled and its manager is stopping and has bots
registered. The time between two reports is never shorter than a millisecond. -/
structure Attends (f₀ : Fleet) (w : Nat) (ms : List Move) : Prop where
  returned : ∀ wt, (f₀.play ms).waits[w]? = some wt → wt.stage = .over .ok →
    ((f₀.play ms).manager wt.manager).closed = true ∧
      ((f₀.play ms).manager wt.manager).inFlight = 0
  woken : f₀.During ms (WaiterStops w) → ∀ wt, (f₀.play ms).waits[w]? = some wt →
    wt.stage.isOver = false →
    wt.cancelled = true ∨ ((f₀.play ms).manager wt.manager).isDrained = true →
      (f₀.play ms).tasks.running = some (.wait w) ∨ .wait w ∈ (f₀.play ms).tasks.ready
  pending : f₀.During ms (WaiterStops w) → ∀ wt, (f₀.play ms).waits[w]? = some wt →
    wt.stage.isOver = false → (f₀.play ms).tasks.isSettled = true →
      wt.cancelled = false ∧ ((f₀.play ms).manager wt.manager).phase = .stopping ∧
        ((f₀.play ms).manager wt.manager).ids ≠ []
  clamped : ∀ wt, (f₀.play ms).waits[w]? = some wt →
    Settings.shortestPoll.nanos ≤ wt.poll.nanos

/-- A waiter that returns without an error finds its manager at its end, which was announced,
and nobody left. -/
def ReturnsAtEnd (f₀ : Fleet) (w : Nat) (ms : List Move) : Prop :=
  ∀ wt, (f₀.play ms).waits[w]? = some wt → wt.stage = .over .ok →
    ((f₀.play ms).manager wt.manager).phase = .terminated ∧
      ((f₀.play ms).manager wt.manager).ids = [] ∧
        ((f₀.play ms).manager wt.manager).inFlight = 0 ∧
          .stateChanged .terminated ∈ ((f₀.play ms).manager wt.manager).history

variable {f g : Fleet} {m w : Nat} {wt : Wait} {mv : Move}

/-! ## After the call of `stop` -/

theorem waits_endWait (f : Fleet) (w : Nat) (result : WaitResult) :
    (f.endWait w result).waits = f.waits.modify w fun wt => { wt with stage := .over result } := by
  unfold endWait wakeListener
  dsimp only
  split
  · rfl
  · split <;> rfl

theorem stage_endWait (goesOn : (f.wait w).stage.isOver = false) (result : WaitResult) :
    ((f.endWait w result).wait w).stage = .over result := by
  rw [wait, waits_endWait, List.getD_eq_getElem?_getD, List.getElem?_modify_eq,
    found_of_wait rfl goesOn]
  rfl

/-- A waiter of this fleet is past its call of `stop`. -/
def HasStopped (f : Fleet) (w : Nat) : Prop :=
  ∃ wt, f.waits[w]? = some wt ∧ wt.stage.hasStopped = true

theorem HasStopped.of_waits (stage : WaitStage) (found : f.waits[w]? = some wt)
    (past : stage.hasStopped = true) (eq : g.waits = f.waits.modify w fun wt => { wt with stage }) :
    g.HasStopped w :=
  ⟨{ wt with stage }, by rw [eq, List.getElem?_modify_eq, found]; rfl, past⟩

theorem hasStopped_lookAround (found : f.waits[w]? = some wt) {goOn : Fleet}
    (goes : goOn.HasStopped w) : (f.lookAround w goOn).HasStopped w := by
  unfold lookAround
  split
  · exact .of_waits _ found rfl (waits_endWait _ _ _)
  · split
    · exact .of_waits _ found rfl (waits_endWait _ _ _)
    · exact goes

theorem waits_reportOutstanding (f : Fleet) (m : Nat) (poll : Duration) (labels : List String) :
    (f.reportOutstanding m poll labels).waits = f.waits := by
  unfold reportOutstanding publish wakeListener
  dsimp only
  split
  · rfl
  · split <;> rfl

/-- A waiter that looks at its manager is past its call of `stop`. -/
theorem hasStopped_pollBots (found : f.waits[w]? = some wt) : (f.pollBots w).HasStopped w := by
  unfold pollBots
  dsimp only
  split
  · exact .of_waits _ found rfl (waits_endWait _ _ _)
  · rename_i labels ok
    have same := waits_reportOutstanding f (f.wait w).manager (f.wait w).poll labels
    generalize f.reportOutstanding (f.wait w).manager (f.wait w).poll labels = g at same ⊢
    rw [← same] at found
    exact hasStopped_lookAround found (.of_waits (.polling _) found rfl rfl)

/-- What a call does to a waiter is nothing. -/
theorem waits_stop (has : f.Has m) (sound : f.Sound) (span : Option Span) :
    (f.stop m span).1.waits = f.waits := by
  have stopped : Leads (Licence.all fun _ => True).rest f (f.stop m span).1 :=
    leads_stop f m span fun _ => trivial
  have steps := stopped.steps (sound.ready fun _ _ => trivial) m has
  exact (steps.local_of_rest id).waits

theorem hasStopped_beginWaiting (sound : f.Sound) (found : f.waits[w]? = some wt)
    (succeeded : (f.stop wt.manager none).2 = none) : (f.beginWaiting w).HasStopped w := by
  have same := waits_stop (sound.owned wt (List.mem_of_getElem? found)) sound none
  unfold beginWaiting
  rw [wait_of_found found]
  rcases stopped : f.stop wt.manager none with ⟨g, _ | halt⟩
  · rw [stopped] at same
    exact hasStopped_pollBots (by rw [same, found])
  · rw [stopped] at succeeded
    cases succeeded

theorem WaiterStops.hasStopped (stops : WaiterStops w f mv) (sound : f.Sound) :
    (f.move mv).HasStopped w := by
  obtain ⟨rfl, turn, g, m, call, succeeded⟩ := stops
  cases call with
  | @byWaiter w' turn' first purpose kept =>
      cases turn.symm.trans turn'
      rw [move_first turn first purpose kept]
      exact hasStopped_beginWaiting sound (found_of_wait first rfl) succeeded
  | @atSignal w' s turn' got kept =>
      cases turn.symm.trans turn'
      rw [move_signalled turn got kept]
      have ready : f.Ready (.all fun _ => True) := sound.ready fun _ _ => trivial
      have heeds (L : Licence) := leads_heeded L f (f.wait w).manager s
      obtain ⟨-, found⟩ := (heeds (Licence.all fun _ => True).rest).idle ready turn
        (found_of_wait got rfl)
      exact hasStopped_beginWaiting ((heeds (.all fun _ => True)).ready ready).toSound found
        succeeded

/-! ## Runs -/

variable {managers : List ManagerPlan} {bots : List BotPlan} {ms : List Move}

theorem has_of_waits (found : ((raw managers bots).play ms).waits[w]? = some wt) :
    wt.manager < managers.length :=
  has_play.mp ((sound_play managers bots ms).owned wt (List.mem_of_getElem? found))

/-- A waiter that stopped its manager and is not done waits to look at it again. -/
theorem polling_play (stopped : (raw managers bots).During ms (WaiterStops w))
    (found : ((raw managers bots).play ms).waits[w]? = some wt) (goesOn : wt.stage.isOver = false) :
    ∃ due, wt.stage = .polling due := by
  have past : wt.stage.hasStopped = true := by
    obtain ⟨pre, mv, post, rfl, stops⟩ := stopped
    obtain ⟨wt₀, found₀, past⟩ := stops.hasStopped (sound_play managers bots pre)
    have sound : (((raw managers bots).play pre).move mv).Sound :=
      (steps_move (sound_play managers bots pre) mv).1
    rw [play_append, play_cons] at found
    have has : (((raw managers bots).play pre).move mv).Has wt₀.manager :=
      sound.owned wt₀ (List.mem_of_getElem? found₀)
    exact Steps.hasStopped ((steps_play_any sound post).2.2 wt₀.manager has) found₀ past found
  cases stage : wt.stage with
  | polling due => exact ⟨due, rfl⟩
  | «over» result =>
      rw [stage] at goesOn
      cases goesOn
  | submitted | listening | signalled =>
      rw [stage] at past
      cases past

theorem attends_play (managers : List ManagerPlan) (bots : List BotPlan) (ms : List Move)
    (w : Nat) : (raw managers bots).Attends w ms := by
  have patient {wt : Wait} (found : ((raw managers bots).play ms).waits[w]? = some wt) :=
    (regular_play (has_of_waits found) bots ms).patient
  have due {wt : Wait} (stopped : (raw managers bots).During ms (WaiterStops w))
      (found : ((raw managers bots).play ms).waits[w]? = some wt)
      (goesOn : wt.stage.isOver = false) :
      (((raw managers bots).play ms).manager wt.manager).closed = true ∧ (wt.cancelled = true ∨
        (((raw managers bots).play ms).manager wt.manager).isDrained = true →
          (((raw managers bots).play ms).view wt.manager).IsDue (.wait w)) := by
    obtain ⟨due, stage⟩ := polling_play stopped found goesOn
    obtain ⟨isClosed, -, told⟩ := (patient found).polling w wt due found rfl stage
    exact ⟨isClosed, told⟩
  refine ⟨fun wt found done => ?_, fun stopped wt found goesOn needs => ?_,
    fun stopped wt found goesOn settled => ?_, fun wt found => ?_⟩
  · have drained := (patient found).done w wt found rfl done
    exact (Bool.and_eq_true_iff.mp drained).imp_right eq_of_beq
  · exact ((due stopped found goesOn).2 needs).imp_right fun mem => (List.mem_filter.mp mem).1
  · have has := has_of_waits found
    have regular := regular_play has bots ms
    obtain ⟨isClosed, told⟩ := due stopped found goesOn
    have rests := mt told (isDue_of_settled settled _)
    -- Whoever is left of a closed pool is in a run, and registered.
    have held : (((raw managers bots).play ms).manager wt.manager).registry ≠ [] := by
      intro empty
      have drained : (((raw managers bots).play ms).view wt.manager).mgr.isDrained = true := by
        refine View.isDrained_iff.mpr ⟨isClosed, fun id l found => ?_⟩
        rcases isInRun_or_isOver_of_settled settled regular.lined isClosed found with
          inRun | ended
        · have registered := (regular.tidy.running id l found inRun).2
          have mem : (id, l) ∈ (((raw managers bots).play ms).manager wt.manager).registry :=
            Manager.mem_registry.mpr ⟨found, registered⟩
          rw [empty] at mem
          cases mem
        · exact ended
      exact rests (Or.inr drained)
    refine ⟨?_, (regular.orderly.closed.mp isClosed).resolve_right
      fun ended => held (regular.orderly.empty ended), mt Manager.ids_eq_nil_iff.mp held⟩
    cases cancelled : wt.cancelled with
    | false => rfl
    | true => exact absurd (Or.inl cancelled) rests
  · exact (patient found).clamped w wt found

theorem returnsAtEnd_play
    (answers : (raw managers bots).Answering (((raw managers bots).play ms).wait w).manager ms) :
    (raw managers bots).ReturnsAtEnd w ms := by
  intro wt found done
  rw [wait_of_found found] at answers
  have has := has_of_waits found
  have orderly := (regular_play has bots ms).orderly
  obtain ⟨isClosed, none⟩ := (attends_play managers bots ms w).returned wt found done
  have empty : (((raw managers bots).play ms).manager wt.manager).registry = [] :=
    (clear_play has answers).accounted.registry_eq_nil_iff.mpr
      (View.inFlight_eq_zero_iff.mp none)
  have ended := (orderly.closed.mp isClosed).resolve_left fun stops => orderly.held stops empty
  exact ⟨ended, Manager.ids_eq_nil_iff.mpr empty, none,
    (mem_history_terminated has bots ms).mpr ended⟩

/-- Whoever waits for the end of a manager does not miss it, nor the cancellation of its token;
in a run in which every bot that the manager launches gives its name, it does not return without an
error before the manager has come to its end and this was announced. -/
theorem waits_for_end (managers : List ManagerPlan) (bots : List BotPlan) (ms : List Move)
    (w : Nat) : (raw managers bots).Attends w ms ∧
      ((raw managers bots).Answering (((raw managers bots).play ms).wait w).manager ms →
        (raw managers bots).ReturnsAtEnd w ms) :=
  ⟨attends_play managers bots ms w, returnsAtEnd_play⟩

/-- A waiter stops a manager with one bot in its run, waits when nothing can go on, and returns
when the bot has ended. -/
theorem waits_for_end_of_one :
    let ms : List Move := [.call (.start 0), .call (.add 0 0), .turn, .turn, .turn,
      .wait 0 none false, .turn, .turn]
    let f₀ := raw [Sample.oneSlot] [Sample.bot false]
    f₀.Attends 0 ms ∧ f₀.During ms (WaiterStops 0) ∧ (f₀.play ms).tasks.isSettled = true ∧
      ((f₀.play ms).wait 0).stage.isOver = false ∧
        f₀.ReturnsAtEnd 0 (ms ++ [.call (.finish 0 none), .turn, .turn, .turn, .turn]) ∧
          ((f₀.play (ms ++ [.call (.finish 0 none), .turn, .turn, .turn, .turn])).wait 0).stage =
            .over .ok := by
  have waits := waits_for_end [Sample.oneSlot] [Sample.bot false]
  refine ⟨(waits _ 0).1, ?_, by decide, by decide,
    (waits _ 0).2 (answering_of_unarmed _ _ (by simp)), rfl⟩
  exact ⟨[.call (.start 0), .call (.add 0 0), .turn, .turn, .turn, .wait 0 none false, .turn],
    .turn, [], rfl, rfl, rfl, _, _, .byWaiter rfl rfl rfl rfl, rfl⟩

/-- A bot that panicked when it was asked its name stays registered after its task is over; a
waiter returns without an error and leaves its manager stopping. -/
theorem not_returnsAtEnd_of_mute :
    ¬ (raw [Sample.oneSlot] [Sample.bot true]).ReturnsAtEnd 0
      (Sample.mute ++ [.disarm 0 .name, .wait 0 none false, .turn, .turn]) := by
  intro returns
  have ended := (returns _ rfl rfl).1
  revert ended
  decide

end Fleet

end Flotilla
