import Flotilla.Proofs.Occurrence

/-!
# How a manager comes to its end

A manager that was stopped is terminated when its last bot ends, or at once if there is none.
`Fleet.EndsOnce` is what holds in every run: the end is announced once, by the call of `stop`
or the end of a bot that leaves nobody registered. `Fleet.TracksTasks` is what holds as long as
every bot that the manager launches gives its name: the registered bots are those whose tasks are
not over, so the end is neither missed nor early. A bot that panics at that question breaks it, and
one that panics when it is asked to quit leaves a manager that is stopped although `stop` did not
succeed (`Fleet.not_tracksTasks_of_mute`).
-/

namespace Flotilla

namespace Fleet

/-- `stop` is called for a manager in the course of a move, and is not refused. -/
def StopAccepted (m : Nat) (f : Fleet) (mv : Move) : Prop :=
  ∃ g span, f.StopCall mv g m span ∧ ∀ e, (g.stop m span).2 ≠ some (.refused e)

/-- `stop` is called for a manager in the course of a move, and succeeds. -/
def StopSucceeds (m : Nat) (f : Fleet) (mv : Move) : Prop :=
  ∃ g span, f.StopCall mv g m span ∧ (g.stop m span).2 = none

/-- In the course of a move `stop` is called for a manager, is not refused and finds no bot
registered. -/
def StopsEmpty (m : Nat) (f : Fleet) (mv : Move) : Prop :=
  ∃ g span, f.StopCall mv g m span ∧ (∀ e, (g.stop m span).2 ≠ some (.refused e)) ∧
    (g.manager m).ids = []

/-- Nobody is registered before the start or after the end of a manager, nothing is queued
after the start, and somebody is registered while it stops. The end comes after `stop`, and is
announced once: when `stop` finds nobody registered, or the last bot leaves. -/
structure EndsOnce (f₀ : Fleet) (m : Nat) (ms : List Move) : Prop where
  idle : ((f₀.play ms).manager m).phase = .new ∨ ((f₀.play ms).manager m).phase = .terminated →
    ((f₀.play ms).manager m).ids = []
  queue : ((f₀.play ms).manager m).phase ≠ .new → ((f₀.play ms).manager m).queue = []
  held : ((f₀.play ms).manager m).phase = .stopping → ((f₀.play ms).manager m).ids ≠ []
  stopped : ((f₀.play ms).manager m).phase = .terminated → f₀.During ms (StopAccepted m)
  once : ((f₀.play ms).manager m).history.count (.stateChanged .terminated) =
    if ((f₀.play ms).manager m).phase = .terminated then 1 else 0
  found : ∀ (pre post : List Move) (mv : Move), ms = pre ++ mv :: post →
    .stateChanged .terminated ∉ ((f₀.play pre).manager m).history →
    .stateChanged .terminated ∈ (((f₀.play pre).move mv).manager m).history →
      (((f₀.play pre).move mv).manager m).ids = [] ∧
        (StopsEmpty m (f₀.play pre) mv ∨ ∃ id, id ∈ ((f₀.play pre).manager m).ids ∧
          id ∉ (((f₀.play pre).move mv).manager m).ids)

/-- The registered bots are those whose tasks are not over, the end has come exactly if `stop`
was called and every task is over, and while a manager stops and nothing can go on, the
registered bots are those whose run was called and has not ended. -/
structure TracksTasks (f₀ : Fleet) (m : Nat) (ms : List Move) : Prop where
  tracked : ∀ id, id ∈ ((f₀.play ms).manager m).ids ↔
    ∃ l, ((f₀.play ms).manager m).launches[id]? = some l ∧ l.stage.isOver = false
  counted : ((f₀.play ms).manager m).inFlight = ((f₀.play ms).manager m).ids.length
  ended : ((f₀.play ms).manager m).phase = .terminated ↔ f₀.During ms (StopAccepted m) ∧
    ∀ l ∈ ((f₀.play ms).manager m).launches, l.stage.isOver = true
  settled : (f₀.play ms).tasks.isSettled = true →
    ((f₀.play ms).manager m).phase = .stopping → ∀ id, id ∈ ((f₀.play ms).manager m).ids ↔
      (f₀.During ms fun f mv => f.RunCall mv ⟨m, id⟩) ∧
        ((f₀.play ms).launch ⟨m, id⟩).stage.isInRun = true

end Fleet

variable {L : Licence} {m : Nat} {v v' : View} {f g : Fleet} {mv : Move} {span : Option Span}

namespace Fleet

/-! ## The call of `stop` -/

theorem stopsRunning_iff (sound : f.Sound) : StopsRunning m f mv ↔ StopAccepted m f mv :=
  exists₂_congr fun _ span =>
    and_congr_right fun call => (accepted_iff (call.has_of sound) span).symm

/-- A call of `stop` that finds bots registered leaves the manager stopping. -/
theorem stop_of_held (has : g.Has m) (isRunning : (g.manager m).phase = .running)
    (held : (g.manager m).registry ≠ []) (span : Option Span) :
    ((g.stop m span).1.manager m).phase = .stopping ∧
      ((g.stop m span).1.manager m).launches = (g.manager m).launches := by
  obtain ⟨asked, said, woken, stopping⟩ := stop_of_running has isRunning span
  refine ⟨?_, launches_stop g m span⟩
  show ((g.stop m span).1.view m).mgr.phase = _
  rw [stopping.here, View.wakeAll_mgr]
  exact (View.stop_phase (g.view m) m _).2 held

/-! ## The move to the end -/

/-- A manager comes to its end when `stop` finds nobody registered, or the last bot leaves. -/
theorem terminates_move (sound : f.Sound) (has : f.Has m) (orderly : (f.view m).Orderly)
    (before : (f.manager m).phase ≠ .terminated)
    (after : ((f.move mv).manager m).phase = .terminated) :
    StopsEmpty m f mv ∨
      ∃ id, id ∈ (f.manager m).ids ∧ id ∉ ((f.move mv).manager m).ids := by
  have steps := (steps_move sound mv).2.2 m has
  have gone {id : Nat} {l' : Launch} (found' : ((f.move mv).view m).launch? id = some l')
      (left : l'.registered = false) : id ∉ ((f.move mv).manager m).ids := by
    intro mem
    obtain ⟨l, found, registered⟩ := Manager.mem_ids.mp mem
    cases found'.symm.trans found
    rw [registered] at left
    cases left
  cases was : (f.manager m).closed with
  | true =>
      have stops : (f.manager m).phase = .stopping :=
        (orderly.closed.mp was).resolve_right before
      obtain ⟨id, l, l', found, registered, found', left⟩ :=
        Steps.finishes steps orderly stops after
      exact Or.inr ⟨id, Manager.mem_ids.mpr ⟨l, found, registered⟩, gone found' left⟩
  | false =>
      have closed := (Steps.invariant steps Step.orderly orderly).closed.mpr (Or.inr after)
      obtain ⟨g, span, call, isRunning⟩ := Steps.stops_of_closes steps was closed
      by_cases empty : (g.manager m).ids = []
      · exact Or.inl ⟨g, span, call, (accepted_iff (call.has_of sound) span).mpr isRunning, empty⟩
      · have ready : f.Ready (.all fun _ => True) := sound.ready fun _ _ => trivial
        obtain ⟨stops, same⟩ := stop_of_held (call.has_of sound) isRunning
          (mt Manager.ids_eq_nil_iff.mpr empty) span
        have orderly' := Steps.invariant (call.toStop ready) Step.orderly orderly
        obtain ⟨id, l, l', found, registered, found', left⟩ :=
          Steps.finishes (call.fromStop ready) orderly' stops after
        have found : (f.manager m).launches[id]? = some l := by
          rw [← call.launches_eq sound, ← same]
          exact found
        exact Or.inr ⟨id, Manager.mem_ids.mpr ⟨l, found, registered⟩, gone found' left⟩

/-! ## Runs -/

variable {managers : List ManagerPlan} {bots : List BotPlan} {ms : List Move}

/-- The end is announced once it has come, and once only. -/
theorem count_terminated (has : m < managers.length) (bots : List BotPlan) (ms : List Move) :
    (((raw managers bots).play ms).manager m).history.count (.stateChanged .terminated) =
      if (((raw managers bots).play ms).manager m).phase = .terminated then 1 else 0 := by
  have phases : (((raw managers bots).play ms).manager m).history.filter Event.tellsPhase =
      (((raw managers bots).play ms).manager m).phase.passed := (regular_play has bots ms).phases
  have counted : ((((raw managers bots).play ms).manager m).history.filter
      Event.tellsPhase).count (.stateChanged .terminated) =
        (((raw managers bots).play ms).manager m).history.count (.stateChanged .terminated) :=
    List.count_filter rfl
  rw [← counted, phases]
  cases (((raw managers bots).play ms).manager m).phase <;> rfl

theorem mem_history_terminated (has : m < managers.length) (bots : List BotPlan)
    (ms : List Move) :
    .stateChanged .terminated ∈ (((raw managers bots).play ms).manager m).history ↔
      (((raw managers bots).play ms).manager m).phase = .terminated := by
  rw [← List.count_pos_iff, count_terminated has bots ms]
  split <;> simp [*]

theorem endsOnce_play (has : m < managers.length) (bots : List BotPlan) (ms : List Move) :
    (raw managers bots).EndsOnce m ms := by
  have orderly := (regular_play has bots ms).orderly
  refine ⟨fun idle => ?_, fun started => ?_, fun stops => ?_, fun ended => ?_,
    count_terminated has bots ms, fun pre post mv eq absent present => ?_⟩
  · rw [Manager.ids_eq_nil_iff]
    exact idle.elim orderly.fresh orderly.empty
  · exact orderly.queue.resolve_right started
  · rw [Ne, Manager.ids_eq_nil_iff]
    exact orderly.held stops
  · obtain ⟨pre, mv, post, eq, stops⟩ := (closed_iff has).mp (orderly.closed.mpr (Or.inr ended))
    exact ⟨pre, mv, post, eq, (stopsRunning_iff (sound_play managers bots pre)).mp stops⟩
  · rw [mem_history_terminated has] at absent
    have snoc : ((raw managers bots).play pre).move mv =
        (raw managers bots).play (pre ++ [mv]) := by
      rw [play_append]
      rfl
    have after : ((((raw managers bots).play pre).move mv).manager m).phase = .terminated := by
      rw [snoc] at present ⊢
      exact (mem_history_terminated has bots (pre ++ [mv])).mp present
    refine ⟨?_, terminates_move (sound_play managers bots pre) (has_play.mpr has)
      (regular_play has bots pre).orderly absent after⟩
    rw [snoc] at after ⊢
    rw [Manager.ids_eq_nil_iff]
    exact (regular_play has bots (pre ++ [mv])).orderly.empty after

theorem tracksTasks_play (has : m < managers.length)
    (answers : (raw managers bots).Answering m ms) : (raw managers bots).TracksTasks m ms := by
  have regular := regular_play has bots ms
  have accounted := (clear_play has answers).accounted
  have orderly := regular.orderly
  have all_iff : (((raw managers bots).play ms).manager m).registry = [] ↔
      ∀ l ∈ (((raw managers bots).play ms).manager m).launches, l.stage.isOver = true := by
    refine accounted.registry_eq_nil_iff.trans ⟨fun all l mem => ?_, fun all id l found => ?_⟩
    · obtain ⟨id, found⟩ := List.mem_iff_getElem?.mp mem
      exact all id l found
    · exact all l (List.mem_of_getElem? found)
  have tracked (id : Nat) : id ∈ (((raw managers bots).play ms).manager m).ids ↔
      ∃ l, (((raw managers bots).play ms).manager m).launches[id]? = some l ∧
        l.stage.isOver = false := by
    rw [Manager.mem_ids]
    refine exists_congr fun l => and_congr_right fun found => ?_
    rw [accounted id l found, Bool.not_eq_true']
  refine ⟨tracked, ?_, ⟨fun ended => ⟨(endsOnce_play has bots ms).stopped ended, ?_⟩, ?_⟩,
    fun settled stops id => ?_⟩
  · rw [Manager.length_ids]
    exact accounted.inFlight_eq
  · exact all_iff.mp (orderly.empty ended)
  · intro done
    rcases done with ⟨⟨pre, mv, post, eq, accepted⟩, all⟩
    have stopped := (stopsRunning_iff (sound_play managers bots pre)).mpr accepted
    rcases orderly.closed.mp ((closed_iff has).mpr ⟨pre, mv, post, eq, stopped⟩) with stops | ended
    · exact absurd (all_iff.mpr all) (orderly.held stops)
    · exact ended
  · have isClosed := orderly.closed.mpr (Or.inl stops)
    rw [tracked]
    constructor
    · intro mem
      rcases mem with ⟨l, found, goesOn⟩
      have inRun : l.stage.isInRun = true :=
        (isInRun_or_isOver_of_settled settled regular.lined isClosed found).resolve_right
          (ne_true_of_eq_false goesOn)
      have admitted := (regular.tidy.running id l found inRun).1
      have named := answers l (List.mem_of_getElem? found)
      refine ⟨(admitted_iff has named found).mp admitted, ?_⟩
      rw [launch_of_found (r := ⟨m, id⟩) found]
      exact inRun
    · intro runs
      rcases runs with ⟨-, inRun⟩
      refine ⟨_, found_of_stage (r := ⟨m, id⟩) rfl fun ended => ?_, Stage.isOver_of_isInRun inRun⟩
      rw [ended] at inRun
      cases inRun

/-- A manager comes to its end once, and not before `stop` was called and every bot has ended;
in a run in which every bot that it launches gives its name it comes to its end as soon as this is
so, and until then the registered bots are those that have not ended. -/
theorem ends_when_done (has : m < managers.length) (bots : List BotPlan) (ms : List Move) :
    (raw managers bots).EndsOnce m ms ∧
      ((raw managers bots).Answering m ms → (raw managers bots).TracksTasks m ms) :=
  ⟨endsOnce_play has bots ms, tracksTasks_play has⟩

/-- A bot is stopped in its run, and its end is the end of its manager. -/
theorem ends_when_done_of_one :
    let ms : List Move := [.call (.start 0), .call (.add 0 0), .turn, .turn, .turn,
      .call (.stop 0), .call (.finish 0 none), .turn, .turn]
    (raw [Sample.oneSlot] [Sample.bot false]).EndsOnce 0 ms ∧
      (raw [Sample.oneSlot] [Sample.bot false]).TracksTasks 0 ms ∧
        (((raw [Sample.oneSlot] [Sample.bot false]).play ms).manager 0).phase = .terminated := by
  have ends := ends_when_done (m := 0) (show 0 < [Sample.oneSlot].length by decide)
    [Sample.bot false] [.call (.start 0), .call (.add 0 0), .turn, .turn, .turn,
      .call (.stop 0), .call (.finish 0 none), .turn, .turn]
  exact ⟨ends.1, ends.2 (answering_of_unarmed _ _ (by simp)), by decide⟩

/-- A bot that panics when it is asked its name stays registered after its task is over, and
one that panics when it is asked to quit leaves a manager that is stopped, and comes to its
end, though no call of `stop` succeeded. -/
theorem not_tracksTasks_of_mute :
    ¬ (raw [Sample.oneSlot] [Sample.bot true]).TracksTasks 0 Sample.mute ∧
      (((raw [Sample.oneSlot] [Sample.bot false]).play Sample.jumpy).manager 0).phase =
          .terminated ∧
        ¬ (raw [Sample.oneSlot] [Sample.bot false]).During Sample.jumpy (StopSucceeds 0) := by
  refine ⟨fun tracks => ?_, by decide, ?_⟩
  · have counted := tracks.counted
    revert counted
    decide
  · intro happened
    rcases happened with ⟨pre, mv, post, eq, g, span, call, succeeds⟩
    have sound := sound_play [Sample.oneSlot] [Sample.bot false] pre
    have isRunning := (accepted_iff (call.has_of sound) span).mp (by rw [succeeds]; nofun)
    have closes := StopsRunning.closed ⟨g, span, call, isRunning⟩ sound
    have phase : (((raw [Sample.oneSlot] [Sample.bot false]).play pre).manager 0).phase =
        (g.manager 0).phase := by
      rcases call.view_eq sound with eq | eq <;> exact congrArg (·.mgr.phase) eq.symm
    -- Only the owner's call closes the pool, and it panics.
    have only : ∀ i < Sample.jumpy.length,
        (((raw [Sample.oneSlot] [Sample.bot false]).play (Sample.jumpy.take i)).manager 0).phase =
            .running →
          (((raw [Sample.oneSlot] [Sample.bot false]).play
            (Sample.jumpy.take (i + 1))).manager 0).closed = true → i = 6 := by decide
    have before : Sample.jumpy.take pre.length = pre := by rw [eq, List.take_left]
    have here : Sample.jumpy[pre.length]? = some mv := by
      rw [eq, List.getElem?_append_right (Nat.le_refl _), Nat.sub_self]
      rfl
    have place : pre.length = 6 := by
      refine only _ (List.getElem?_eq_some_iff.mp here).1 ?_ ?_
      · rw [before, phase, isRunning]
      · rw [List.take_add_one, before, here, play_append]
        exact closes
    rw [place] at before here
    cases here
    subst before
    cases call with
    | byOwner held =>
        revert succeeds
        decide

end Fleet

end Flotilla
