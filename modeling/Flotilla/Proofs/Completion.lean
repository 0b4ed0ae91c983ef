import Flotilla.Proofs.Protocol

/-!
# Every launched bot is completed once

The run of a launch comes to its end in a move (`Fleet.RunEnds`), and it fails if it ends by an
error or a panic (`Fleet.RunFails`). Of a launch whose bot gives its name whenever it is asked
the manager tells in order that it was launched, at most once that it was asked to quit, and in
the end once how it ended, and at the next number that it left the registry: it failed exactly
if its run did (`Fleet.completes_once`).

A bot that panics when it is asked its name is never completed
(`Fleet.not_completes_of_mute`).
-/

namespace Flotilla

/-! ## Numbers of events -/

/-- Every event of a bus has its place as its number. -/
def Bus.Numbered (b : Bus) : Prop := ∀ (i : Nat) e, b.log[i]? = some e → e.seq = i

theorem Bus.Numbered.publish {b : Bus} (numbered : b.Numbered) (e : Event) :
    (b.publish e).Numbered := by
  intro i e' found
  rw [Bus.log_publish, Array.getElem?_push] at found
  split at found
  · rename_i last
    cases found
    exact last.symm
  · exact numbered i e' found

theorem Bus.Numbered.publishAll {b : Bus} (numbered : b.Numbered) (es : List Event) :
    (b.publishAll es).Numbered := by
  induction es generalizing b with
  | nil => exact numbered
  | cons e es ih => exact ih (numbered.publish e)

variable {L : Licence} {m : Nat} {v v' : View} {id : Nat} {l : Launch}

theorem Step.numbered (h : Step L m v v') (numbered : v.mgr.bus.Numbered) :
    v'.mgr.bus.Numbered := by
  obtain ⟨es, telling⟩ := h.telling
  rw [telling.bus]
  exact numbered.publishAll es

/-- Events that follow one another in the history have numbers that follow one another. -/
theorem Bus.Numbered.getElem?_of_history {mgr : Manager} (numbered : mgr.bus.Numbered) {i : Nat}
    {e : Event} (found : mgr.history[i]? = some e) : mgr.bus.log[i]? = some (e.withSeq i) := by
  unfold Manager.history at found
  rw [List.getElem?_map, Array.getElem?_toList] at found
  obtain ⟨e', there, rfl⟩ := Option.map_eq_some_iff.mp found
  rw [there]
  congr 1
  show e' = e'.withSeq i
  rw [← numbered i e' there]
  rfl

/-- Two events next to each other in the history have numbers next to each other. -/
theorem Bus.Numbered.exists_adjacent {mgr : Manager} (numbered : mgr.bus.Numbered) {e e' : Event}
    (together : [e, e'] <:+: mgr.history) :
    ∃ n, mgr.bus.log[n]? = some (e.withSeq n) ∧
      mgr.bus.log[n + 1]? = some (e'.withSeq (n + 1)) := by
  obtain ⟨before, after, eq⟩ := together
  refine ⟨before.length, numbered.getElem?_of_history ?_, numbered.getElem?_of_history ?_⟩ <;>
    simp [← eq]

namespace Fleet

/-! ## The end of a run -/

variable {f : Fleet} {mv : Move} {r : RunName} {e : BotError}

/-- In the course of a move the run of a launch comes to its end: it was called before or is
called in this move, and the task of the launch is over then. -/
structure RunEnds (f : Fleet) (mv : Move) (r : RunName) (ending : Ending) : Prop where
  inRun : f.RunCall mv r ∨ (f.launch r).stage.isInRun = true
  isOver : ((f.move mv).launch r).stage.isOver = true
  ending : (f.bot (f.launch r).bot).ending = ending

/-- In the course of a move the run of a launch comes to its end by an error, or by a panic. -/
inductive RunFails (r : RunName) (e : BotError) (f : Fleet) (mv : Move) : Prop
  | error (ends : f.RunEnds mv r (.error e))
  | panic {payload : Payload} (ends : f.RunEnds mv r (.panic payload))
    (is : e = .panicked payload.message)

theorem runFails_iff : RunFails r e f mv ↔ ∃ ending, f.RunEnds mv r ending ∧
    ending.error? = some e := by
  constructor
  · intro fails
    cases fails with
    | error ends => exact ⟨_, ends, rfl⟩
    | panic ends is => exact ⟨_, ends, by rw [is]; rfl⟩
  · intro fails
    obtain ⟨ending, ends, is⟩ := fails
    cases ending with
    | ok => cases is
    | error e' =>
        cases is
        exact .error ends
    | panic payload => exact .panic ends (Option.some.inj is).symm

theorem outcomeOf_eq_failed_iff :
    f.outcomeOf r = .failed e ↔ (f.bot (f.launch r).bot).ending.error? = some e := by
  unfold outcomeOf RunOutcome.ofEnding
  cases (f.bot (f.launch r).bot).ending.error? <;> simp

/-- A launch whose run ends was launched, and its task was not over before. -/
theorem RunEnds.found {ending : Ending} (ends : f.RunEnds mv r ending) :
    (f.view r.manager).launch? r.id = some (f.launch r) ∧
      (f.launch r).stage.isOver = false := by
  rcases ends.inRun with call | inRun
  · exact ⟨call.found, Stage.isOver_of_isPending call.pending⟩
  · have goesOn := Stage.isOver_of_isInRun inRun
    refine ⟨found_of_stage rfl fun isOver => ?_, goesOn⟩
    rw [isOver] at goesOn
    cases goesOn

/-- A run ends only after it was called: the launch is admitted. -/
theorem RunEnds.admitted {ending : Ending} (ends : f.RunEnds mv r ending) (sound : f.Sound)
    (tidy : (f.view r.manager).Tidy) {l : Launch}
    (found : ((f.move mv).view r.manager).launch? r.id = some l) : l.admitted = true := by
  rcases ends.inRun with call | inRun
  · obtain ⟨l', found', admitted⟩ := call.admitted
    cases found.symm.trans found'
    exact admitted
  · have there := ends.found.1
    have steps := (steps_move sound mv).2.2 r.manager (has_of_launch? there)
    obtain ⟨l', found', admitted⟩ := steps.launch Change.admitted there
      (tidy.running r.id _ there inRun).1
    cases found.symm.trans found'
    exact admitted

/-! ## What was told at the end of a run of the fleet -/

variable {managers : List ManagerPlan} {bots : List BotPlan} {ms : List Move}

/-- Where in a move the task of a launch comes to its end, it fails exactly if its run does. -/
theorem failed_iff_of_ends {l' : Launch} {o : RunOutcome} (has : m < managers.length)
    (before : ∀ l, (((raw managers bots).play ms).view m).launch? id = some l →
      l.stage.isOver = false)
    (told : (((raw managers bots).play (ms ++ [mv])).view m).Told id l' (some o))
    (answers : ((raw managers bots).play ms).panicOf? l'.bot .name = none)
    (ends : o ≠ .notStarted → o = ((raw managers bots).play ms).outcomeOf ⟨m, id⟩) :
    some o = some (.failed e) ↔ RunFails ⟨m, id⟩ e ((raw managers bots).play ms) mv := by
  have sound := sound_play managers bots ms
  have tidy := (regular_play has bots ms).tidy
  have found' := told.found
  have eq := play_append (raw managers bots) ms [mv]
  rw [runFails_iff]
  constructor
  · intro failed
    cases failed
    have ended := ends nofun
    refine ⟨_, ⟨?_, ?_, rfl⟩, outcomeOf_eq_failed_iff.mp ended.symm⟩
    · have admitted : l'.admitted = true := by
        rw [← Bool.not_eq_false]
        exact mt (told.ran _ rfl).mpr nofun
      have steps := steps_snoc has bots ms mv
      rcases steps.runs_of_admitted found' (fun mute => mute answers) admitted with
        call | ⟨l, found, -, was⟩
      · exact Or.inl call
      · refine Or.inr ?_
        rw [launch_of_found (r := ⟨m, id⟩) found]
        refine Stage.isInRun_of_not_pending (fun pending => ?_) (before l found)
        cases (tidy.pending id l found pending).symm.trans was
    · rw [eq] at told found'
      have launch : ((((raw managers bots).play ms).move mv).launch ⟨m, id⟩) = l' :=
        launch_of_found (r := ⟨m, id⟩) found'
      rw [launch, told.isOver]
      rfl
  · intro fails
    obtain ⟨ending, runEnds, is⟩ := fails
    rw [eq] at found'
    have admitted := runEnds.admitted sound tidy found'
    have started : o ≠ .notStarted := by
      intro unrun
      cases ((told.ran o rfl).mp unrun).symm.trans admitted
    rw [ends started, outcomeOf_eq_failed_iff.mpr]
    rw [← is, ← runEnds.ending]

/-- At every point of every run it was told of a launch what should be, and it was told that it
failed exactly if its run failed. -/
theorem told_play (has : m < managers.length)
    (found : (((raw managers bots).play ms).view m).launch? id = some l)
    (answers : (raw managers bots).Answers l.bot ms) :
    ∃ outcome, (((raw managers bots).play ms).view m).Told id l outcome ∧
      ∀ e, outcome = some (.failed e) ↔
        (raw managers bots).During ms (RunFails ⟨m, id⟩ e) := by
  induction ms using List.reverseRecOn generalizing l with
  | nil => exact absurd found (untouched_raw has bots).launch?
  | append_singleton ms mv ih =>
      have steps := steps_snoc has bots ms mv
      have regular := regular_play has bots ms
      have calm := answers ms (List.prefix_append ms [mv])
      -- What was told before the move: nothing, if the launch came by the move.
      obtain ⟨before, toldThen, absent, failedThen⟩ : ∃ before,
          (∀ l, (((raw managers bots).play ms).view m).launch? id = some l →
            (((raw managers bots).play ms).view m).Told id l before) ∧
          ((((raw managers bots).play ms).view m).launch? id = none → before = none) ∧
          ∀ e, before = some (.failed e) ↔
            (raw managers bots).During ms (RunFails ⟨m, id⟩ e) := by
        cases was : (((raw managers bots).play ms).view m).launch? id with
        | none =>
            refine ⟨none, nofun, fun _ => rfl, fun e => iff_of_false nofun fun failed => ?_⟩
            obtain ⟨pre, mv', post, rfl, fails⟩ := failed
            obtain ⟨ending, ends, -⟩ := runFails_iff.mp fails
            have later := (steps_play_any (sound_play managers bots pre) (mv' :: post)).2.2 m
              (has_play.mpr has)
            rw [← play_append] at later
            obtain ⟨l', found', -⟩ := later.launch (P := fun _ => True) (fun _ _ => trivial)
              ends.found.1 trivial
            cases was.symm.trans found'
        | some l₀ =>
            obtain ⟨l', found', bot⟩ := steps.launch (P := fun l => l.bot = l₀.bot)
              (fun change same => change.bot.trans same) was rfl
            cases found.symm.trans found'
            rw [bot] at answers
            obtain ⟨before, told, failed⟩ := ih was (Answers.append_iff.mp answers).1
            exact ⟨before, fun l is => by cases is; exact told, nofun, failed⟩
      obtain ⟨outcome, told, since⟩ := steps.told regular toldThen absent found
        fun mute => mute calm
      refine ⟨outcome, told, fun e => ?_⟩
      rw [During.snoc_iff, ← failedThen]
      rcases since with rfl | ⟨rfl, o, rfl, ends⟩
      · refine (or_iff_left fun fails => ?_).symm
        obtain ⟨ending, ends, -⟩ := runFails_iff.mp fails
        have isOver := ends.isOver
        rw [play_append] at told
        rw [launch_of_found (r := ⟨m, id⟩) (f := ((raw managers bots).play ms).move mv) told.found,
          told.isOver] at isOver
        have wasOver := (toldThen _ ends.found.1).isOver
        rw [ends.found.2, isOver] at wasOver
        cases wasOver
      · rw [or_iff_right nofun]
        refine failed_iff_of_ends has (fun l is => ?_) told calm ends
        rw [(toldThen l is).isOver]
        rfl

/-! ## The events about a launch -/

/-- The events about a launch: it was launched, at most once it was asked to quit, and once its
task is over it was told how it ended, and at the next number that it left. It is run at most
once, when it was told that it was launched and nothing else, and it failed exactly if its run
did. When nothing can go on it has left, is in its run, or waits for a slot. -/
structure Completes (f₀ : Fleet) (m id : Nat) (ms : List Move) (l : Launch) (name : String)
    (outcome : Option RunOutcome) : Prop where
  isOver : outcome.isSome = l.stage.isOver
  events : ∃ quits, (quits = [] ∨ quits = [.quitRequested id name]) ∧
    ((f₀.play ms).manager m).history.filter (Event.isAbout id) =
      .botLaunched id name :: quits ++ closingEvents id name outcome
  adjacent : ∀ o, outcome = some o → ∃ n,
    ((f₀.play ms).manager m).bus.log[n]? = some ((outcomeEvent id name o).withSeq n) ∧
      ((f₀.play ms).manager m).bus.log[n + 1]? = some ((Event.botRemoved id name).withSeq (n + 1))
  failed : ∀ e, outcome = some (.failed e) ↔ f₀.During ms (RunFails ⟨m, id⟩ e)
  runOnce : ∀ pre mv post, ms = pre ++ mv :: post → (f₀.play pre).RunCall mv ⟨m, id⟩ →
    ¬ ((f₀.play pre).move mv).During post fun f mv => f.RunCall mv ⟨m, id⟩
  runPlace : ∀ pre mv post, ms = pre ++ mv :: post → (f₀.play pre).RunCall mv ⟨m, id⟩ →
    ((f₀.play pre).manager m).history.filter (Event.isAbout id) = [.botLaunched id name]
  settled : (f₀.play ms).tasks.isSettled = true →
    .botRemoved id name ∈ ((f₀.play ms).manager m).history ∨ l.stage.isInRun = true ∨
      l.stage = .queued

/-- A run is not called again. -/
theorem RunCall.once (call : f.RunCall mv r) (sound : f.Sound) (ms : List Move)
    (tidy : ∀ ms', (((f.move mv).play ms').view r.manager).Tidy) :
    ¬ (f.move mv).During ms fun f mv => f.RunCall mv r := by
  rintro ⟨pre, mv', post, -, again⟩
  obtain ⟨l, found, admitted⟩ := call.admitted
  obtain ⟨l', found', was⟩ :=
    ((steps_play_any (steps_move sound mv).1 pre).2.2 _ (has_of_launch? found)).launch
      Change.admitted found admitted
  cases again.found.symm.trans found'
  cases was.symm.trans ((tidy pre).pending _ _ found' again.pending)

theorem numbered_play (has : m < managers.length) :
    (((raw managers bots).play ms).manager m).bus.Numbered := by
  refine @invariant _ _ _ _ (fun v => v.mgr.bus.Numbered) has Step.numbered ?_
  rw [view_raw has]
  intro i e found
  cases found

/-- A manager tells the names the bots have. -/
theorem nameOf_play (has : m < managers.length) (b : Nat) (ms : List Move) :
    (((raw managers bots).play ms).bot b).plan.name = ((raw managers bots).bot b).plan.name :=
  @invariant _ _ _ _ (fun v => v.nameOf b = ((raw managers bots).view m).nameOf b) has
    (fun step same => (congrFun step.nameOf b).trans same) rfl

/-- Of a launch whose bot gives its name whenever it is asked the manager tells what became of
it: that it was launched, at most once that it was asked to quit, and once how it ended and that
it left. -/
theorem completes_once (has : m < managers.length)
    (found : (((raw managers bots).play ms).view m).launch? id = some l)
    (answers : (raw managers bots).Answers l.bot ms) :
    ∃ outcome, (raw managers bots).Completes m id ms l
      (((raw managers bots).play ms).bot l.bot).plan.name outcome := by
  obtain ⟨outcome, told, failed⟩ := told_play has found answers
  have regular := regular_play has bots ms
  obtain ⟨quits, asked, events⟩ := told.events
  refine ⟨outcome, told.isOver.symm, ⟨quits, asked.imp_right And.left, events⟩, ?_, failed, ?_,
    ?_, ?_⟩
  · rintro o rfl
    exact (numbered_play has).exists_adjacent told.together
  · rintro pre mv post rfl call
    refine call.once (sound_play managers bots pre) post fun ms' => ?_
    rw [← play_cons, ← play_append]
    exact (regular_play has bots _).tidy
  · rintro pre mv post rfl call
    -- The launch was there before the call, of the same bot, and it was not over.
    have later := (steps_play_any (sound_play managers bots pre) (mv :: post)).2.2 m
      (has_play.mpr has)
    rw [← play_append] at later
    obtain ⟨l', found', bot⟩ := later.launch
      (P := fun l => l.bot = (((raw managers bots).play pre).launch ⟨m, id⟩).bot)
      (fun change same => change.bot.trans same) call.found rfl
    cases found.symm.trans found'
    rw [bot] at answers ⊢
    obtain ⟨before, toldThen, -⟩ := told_play has call.found (Answers.append_iff.mp answers).1
    have goesOn := toldThen.isOver
    rw [Stage.isOver_of_isPending call.pending] at goesOn
    obtain ⟨quits, asked, events⟩ := toldThen.events
    cases before with
    | some o => cases goesOn
    | none =>
        have isOpen := call.can.isOpen
        rcases asked with rfl | ⟨-, closed⟩
        · rw [nameOf_play has, ← nameOf_play has _ pre]
          exact events
        · cases closed.symm.trans isOpen
  · intro settled
    rcases stage_of_settled settled regular.lined (View.stages_of_launch? found) with
      ⟨stage, -⟩ | ⟨heeds, stage⟩ | stage
    · exact Or.inr (Or.inr stage)
    · rw [stage]
      exact Or.inr (Or.inl rfl)
    · have isOver := told.isOver
      rw [stage] at isOver
      obtain ⟨o, rfl⟩ := Option.isSome_iff_exists.mp isOver.symm
      refine Or.inl ?_
      have mem : Event.botRemoved id ((((raw managers bots).play ms).view m).nameOf l.bot) ∈
          (((raw managers bots).play ms).view m).mgr.history.filter (Event.isAbout id) := by
        rw [events]
        simp [closingEvents]
      exact (List.mem_filter.mp mem).1

/-- A bot is asked to quit in its run, which then fails. -/
theorem completes_once_of_failed :
    let ms : List Move := [.call (.start 0), .call (.add 0 0), .turn, .turn, .turn,
      .call (.stop 0), .call (.finish 0 none), .turn, .turn]
    let f₀ := raw [Sample.oneSlot] [{ Sample.bot false with ending := .error (.fatal "lost") }]
    (∃ outcome, f₀.Completes 0 0 ms ((f₀.play ms).launch ⟨0, 0⟩) "a" outcome) ∧
      ((f₀.play ms).manager 0).history.filter (Event.isAbout 0) =
        [.botLaunched 0 "a", .quitRequested 0 "a", .botFailed 0 "a" "fatal error: lost",
          .botRemoved 0 "a"] :=
  ⟨completes_once (m := 0) (show 0 < [Sample.oneSlot].length by decide) rfl
    (answers_of_unarmed _ _ (by simp)), rfl⟩

/-- A bot that panics when it is asked its name is never told of as ended, although its task is
over. -/
theorem not_completes_of_mute :
    let f₀ := raw [Sample.oneSlot] [Sample.bot true]
    ∃ l, ((f₀.play Sample.mute).view 0).launch? 0 = some l ∧
      ¬ ∃ outcome, f₀.Completes 0 0 Sample.mute l "a" outcome := by
  refine ⟨_, rfl, ?_⟩
  rintro ⟨outcome, completes⟩
  obtain ⟨o, rfl⟩ := Option.isSome_iff_exists.mp (completes.isOver.trans rfl)
  obtain ⟨quits, -, events⟩ := completes.events
  have told : (((raw [Sample.oneSlot] [Sample.bot true]).play Sample.mute).manager 0).history.filter
      (Event.isAbout 0) = [.botLaunched 0 "a"] := rfl
  rw [told] at events
  have lengths := congrArg List.length events
  simp [closingEvents] at lengths

end Fleet

end Flotilla
