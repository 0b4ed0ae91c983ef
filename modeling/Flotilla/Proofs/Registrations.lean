import Flotilla.Proofs.Enrolment
import Flotilla.Proofs.RunOrder

/-!
# Bots are launched as they were registered

`Fleet.registrations` are the bots whose registration with a manager was accepted, in the order
of the calls. Every move is of one of four kinds (`Fleet.enlists_move`): it registers a bot,
starts the manager, fails to start it half way, or leaves the enrolment as it is. From this
follows that the bots launched are those registered (`Fleet.launches_as_registered`).
-/

namespace Flotilla

variable {L : Licence} {m : Nat}

/-- A launch keeps its id and its bot. -/
theorem Steps.bots_prefix {v v' : View} (h : Steps L m v v') : v.mgr.bots <+: v'.mgr.bots := by
  rw [List.prefix_iff_getElem?]
  intro id inside
  have inside' : id < v.mgr.launches.length := by
    rw [Manager.bots, List.length_map] at inside
    exact inside
  obtain ⟨l', found', bot⟩ := h.launch (P := fun l => l.bot = v.mgr.launches[id].bot)
    (fun change was => change.bot.trans was) (List.getElem?_eq_getElem inside') rfl
  have found' : v'.mgr.launches[id]? = some l' := found'
  rw [Manager.bots, List.getElem?_map, found', Option.map_some, bot]
  simp only [Manager.bots, List.getElem_map]

namespace Fleet

variable {f : Fleet} {b : Nat} {span : Option Span} {mv : Move}

/-! ## Calls in the course of a move -/

/-- The bot whose registration with a manager is accepted in the course of a move. -/
def accepted? (f : Fleet) (m : Nat) (mv : Move) : Option Nat :=
  match f.callIn? mv with
  | some (.add m' b, span) =>
    if m' = m ∧ f.isHeld m = true ∧ (f.add m b span).2.isNone then some b else none
  | _ => none

/-- The bots whose registration with a manager was accepted in the course of a run, in order. -/
def registrations (f : Fleet) (m : Nat) : List Move → List Nat
  | [] => []
  | mv :: ms => (f.accepted? m mv).toList ++ registrations (f.move mv) m ms

/-- In the course of a move `start` is called for a manager. -/
def StartCalled (m : Nat) (f : Fleet) (mv : Move) : Prop := ∃ span, f.StartCall mv m span

/-- In the course of a move `start` is called for a manager, and returns without an error or a
panic. -/
def StartReturns (m : Nat) (f : Fleet) (mv : Move) : Prop :=
  ∃ span, f.StartCall mv m span ∧ (f.start m span).2 = none

theorem registrations_append (f : Fleet) (m : Nat) (ms ms' : List Move) :
    f.registrations m (ms ++ ms') = f.registrations m ms ++ (f.play ms).registrations m ms' := by
  induction ms generalizing f with
  | nil => rfl
  | cons mv ms ih => rw [List.cons_append, registrations, ih, ← List.append_assoc]; rfl

theorem registrations_snoc (f : Fleet) (m : Nat) (ms : List Move) (mv : Move) :
    f.registrations m (ms ++ [mv]) =
      f.registrations m ms ++ ((f.play ms).accepted? m mv).toList := by
  rw [registrations_append]
  exact congrArg _ (List.append_nil _)

theorem accepted?_eq_some_iff :
    f.accepted? m mv = some b ↔ ∃ span, f.AddCall mv m b span ∧ (f.add m b span).2 = none := by
  unfold accepted?
  constructor
  · intro accepted
    split at accepted
    · rename_i m' b' span call
      split at accepted
      · rename_i is
        obtain ⟨rfl, held, succeeded⟩ := is
        cases accepted
        exact ⟨span, ⟨call, held⟩, Option.isNone_iff_eq_none.mp succeeded⟩
      · cases accepted
    · cases accepted
  · intro accepted
    obtain ⟨span, ⟨call, held⟩, succeeded⟩ := accepted
    rw [call]
    exact if_pos ⟨rfl, held, Option.isNone_iff_eq_none.mpr succeeded⟩

/-- Whoever starts a manager does not register a bot in the same move. -/
theorem StartCall.accepted? (call : f.StartCall mv m span) : f.accepted? m mv = none := by
  cases accepted : f.accepted? m mv with
  | none => rfl
  | some b =>
      obtain ⟨span', ⟨adds, -⟩, -⟩ := accepted?_eq_some_iff.mp accepted
      cases call with
      | called starts => cases starts.symm.trans adds
      | byWaiter turn =>
          unfold callIn? at adds
          rw [turn] at adds
          cases adds

theorem StartCall.has (call : f.StartCall mv m span) (sound : f.Sound) : f.Has m := by
  cases call with
  | called call held => exact has_of_isHeld sound held
  | byWaiter turn first => exact sound.owned _ (List.mem_of_getElem? (found_of_wait first rfl))

/-- After a call of the owner or of a run, the move goes on without another. -/
theorem leads_after_call {c : Call} (call : f.callIn? mv = some (c, span)) (acts : L.acts)
    (ready : f.Ready L) : Leads L (f.perform span c).1 (f.move mv) := by
  cases mv with
  | call c' =>
      cases call
      exact .refl L _
  | turn =>
      unfold callIn? at call
      dsimp only at call
      split at call
      · rename_i r turn
        split at call
        · rename_i c' left calls
          cases call
          have called := leads_perform (L := L.unbound.rest) f (some (f.spanOf r)) c
            (fun _ _ _ _ => trivial) fun _ _ _ => trivial
          have found := found_of_stage calls nofun
          obtain ⟨turn', l', found', inRun⟩ :=
            called.stays ready.unbound turn found (by rw [calls]; rfl)
          have eq : f.move .turn = ((f.perform (some (f.spanOf r)) c).1.note (.called
              ((f.perform (some (f.spanOf r)) c).1.launch r).bot
                (f.perform (some (f.spanOf r)) c).2)).setStage r (.calling left) := by
            rw [move_turn turn]
            show f.stepBot r = _
            unfold stepBot
            rw [calls]
          rw [eq]
          exact leads_calling acts turn' found' inRun _ left
        · cases call
      · cases call
  | _ => cases call

theorem perform_add (held : f.isHeld m = true) (b : Nat) (span : Option Span) :
    f.perform span (.add m b) = ((f.add m b span).1, .ofHalt (f.add m b span).2) := by
  unfold perform
  simp [callee?, held]

theorem perform_start (held : f.isHeld m = true) (span : Option Span) :
    f.perform span (.start m) = ((f.start m span).1, .ofHalt (f.start m span).2) := by
  unfold perform
  simp [callee?, held]

/-- Everything may happen, but nobody is registered or launched. -/
def quiet : Licence := { Licence.all fun _ => True with enrols := fun _ => False }

/-- What happens in a move after a call that registers or launches changes nothing of the
enrolment. -/
theorem enrolment_after {g : Fleet} (sound : f.Sound) (has : f.Has m)
    (call : Leads quiet.unbound f g) (rest : Leads quiet g (f.move mv)) :
    ((f.move mv).view m).enrolment = (g.view m).enrolment := by
  have ready : f.Ready quiet := sound.ready fun _ _ => trivial
  have after := call.ready ready.unbound
  exact Steps.enrolment (rest.steps ⟨after.toSound, after.named⟩ m
    ((call.has ready.unbound m).mpr has)) id

theorem AddCall.enrolment (call : f.AddCall mv m b span) (sound : f.Sound) :
    ((f.move mv).view m).enrolment = ((f.add m b span).1.view m).enrolment := by
  have rest := leads_after_call (L := quiet) call.call trivial (sound.ready fun _ _ => trivial)
  rw [perform_add call.held] at rest
  exact enrolment_after sound (has_of_isHeld sound call.held) (leads_add trivial f b span) rest

theorem StartCall.enrolment (call : f.StartCall mv m span) (sound : f.Sound) :
    ((f.move mv).view m).enrolment = ((f.start m span).1.view m).enrolment := by
  have ready : f.Ready quiet := sound.ready fun _ _ => trivial
  refine enrolment_after sound (call.has sound) (leads_start trivial f span) ?_
  cases call with
  | called starts held =>
      have rest := leads_after_call (L := quiet) starts trivial ready
      rw [perform_start held] at rest
      exact rest
  | @byWaiter w turn first purpose kept =>
      have eq : f.move .turn = f.beginListening w := by
        rw [move_turn turn]
        show f.stepWait w = _
        unfold stepWait
        simp [first, purpose, kept, WaitStage.isOver]
      rw [eq]
      exact leads_started trivial ready turn (found_of_wait first rfl) first

/-! ## Every move -/

/-- What a move does to the enrolment of a manager. -/
inductive Enlists (f : Fleet) (m : Nat) (mv : Move) : Prop
  | still (nobody : f.accepted? m mv = none)
    (same : ((f.move mv).view m).enrolment = (f.view m).enrolment)
  | registered {b : Nat} (accepted : f.accepted? m mv = some b)
    (phase : (f.manager m).phase = .new ∨ (f.manager m).phase = .running)
    (eq : ((f.move mv).view m).enrolment = (f.view m).enrolment.register b)
  | started (nobody : f.accepted? m mv = none) (called : StartCalled m f mv)
    (isNew : (f.manager m).phase = .new)
    (eq : ((f.move mv).view m).enrolment = (f.view m).enrolment.start)
  | failed (nobody : f.accepted? m mv = none) (called : StartCalled m f mv)
    (isNew : (f.manager m).phase = .new)
    (goesOn : ((f.move mv).view m).enrolment.phase = .starting)

theorem AddCall.enlists (call : f.AddCall mv m b span) (sound : f.Sound)
    (orderly : (f.view m).Orderly) : Enlists f m mv := by
  have has := has_of_isHeld sound call.held
  have eq := call.enrolment sound
  rcases enrolment_add has orderly b span with ⟨succeeded, phase, added⟩ | ⟨failed, same⟩
  · exact .registered (accepted?_eq_some_iff.mpr ⟨span, call, succeeded⟩) phase (eq.trans added)
  · refine .still ?_ (eq.trans (congrArg View.enrolment same))
    cases accepted : f.accepted? m mv with
    | none => rfl
    | some b' =>
        obtain ⟨span', ⟨again, -⟩, succeeded⟩ := accepted?_eq_some_iff.mp accepted
        cases call.call.symm.trans again
        exact absurd succeeded failed

theorem StartCall.enlists (call : f.StartCall mv m span) (sound : f.Sound) :
    Enlists f m mv := by
  have eq := call.enrolment sound
  by_cases isNew : (f.manager m).phase = .new
  · rcases enrolment_start (call.has sound) isNew span with ⟨-, -, started⟩ | ⟨-, goesOn⟩
    · exact .started call.accepted? ⟨span, call⟩ isNew (eq.trans started)
    · refine .failed call.accepted? ⟨span, call⟩ isNew ?_
      rw [eq]
      exact congrArg Phase.toStart goesOn
  · rw [start_of_not_new isNew] at eq
    exact .still call.accepted? eq

/-- A move registers a bot, starts the manager, or does nothing of the kind. -/
theorem enlists_move (sound : f.Sound) (has : f.Has m) (orderly : (f.view m).Orderly)
    (mv : Move) : Enlists f m mv := by
  by_cases adds : ∃ b span, f.AddCall mv m b span
  · obtain ⟨b, span, call⟩ := adds
    exact call.enlists sound orderly
  · by_cases starts : ∃ span, f.StartCall mv m span
    · obtain ⟨span, call⟩ := starts
      exact call.enlists sound
    · refine .still ?_ (Steps.enrolment ((steps_move sound mv).2.2 m has) fun enrols =>
        enrols.elim adds starts)
      cases accepted : f.accepted? m mv with
      | none => rfl
      | some b =>
          obtain ⟨span, call, -⟩ := accepted?_eq_some_iff.mp accepted
          exact absurd ⟨b, span, call⟩ adds

/-- A call of `start` that returns finds the manager new, and then it runs. -/
theorem StartReturns.running (returns : StartReturns m f mv) (sound : f.Sound) :
    ((f.move mv).view m).enrolment.phase = .running := by
  obtain ⟨span, call, succeeded⟩ := returns
  have isNew : (f.manager m).phase = .new := by
    apply Classical.byContradiction
    intro old
    rw [start_of_not_new old] at succeeded
    cases succeeded
  rcases enrolment_start (call.has sound) isNew span with ⟨-, -, started⟩ | ⟨failed, -⟩
  · rw [call.enrolment sound, started]
    rfl
  · exact absurd succeeded failed

theorem Enlists.holds {registered : List Nat} (h : Enlists f m mv)
    (holds : (f.view m).enrolment.Holds registered) :
    ((f.move mv).view m).enrolment.Holds (registered ++ (f.accepted? m mv).toList) := by
  cases h with
  | still nobody same =>
      rw [nobody, same, Option.toList_none, List.append_nil]
      exact holds
  | @registered b accepted phase eq =>
      rw [accepted, eq]
      exact holds.register b
  | started nobody called isNew eq =>
      rw [nobody, eq, Option.toList_none, List.append_nil]
      exact holds.start (congrArg Phase.toStart isNew)
  | failed nobody called isNew goesOn =>
      constructor
      · intro isNew
        cases goesOn.symm.trans isNew
      · intro isRunning
        cases goesOn.symm.trans isRunning

/-- A manager that was started stays started. -/
theorem Enlists.running (h : Enlists f m mv) (was : (f.view m).enrolment.phase = .running) :
    ((f.move mv).view m).enrolment.phase = .running := by
  cases h with
  | still nobody same => rw [same, was]
  | registered accepted phase eq => rw [eq, Enrolment.phase_register, was]
  | started nobody called isNew | failed nobody called isNew =>
      cases was.symm.trans (congrArg Phase.toStart isNew)

/-- A manager stays new until `start` is called for it. -/
theorem Enlists.isNew (h : Enlists f m mv) (uncalled : ¬ StartCalled m f mv)
    (was : (f.view m).enrolment.phase = .new) :
    ((f.move mv).view m).enrolment.phase = .new := by
  cases h with
  | still nobody same => rw [same, was]
  | registered accepted phase eq => rw [eq, Enrolment.phase_register, was]
  | started nobody called | failed nobody called => exact absurd called uncalled

/-! ## Runs -/

variable {managers : List ManagerPlan} {bots : List BotPlan} {ms : List Move}

theorem enlists_play (has : m < managers.length) (bots : List BotPlan) (ms : List Move)
    (mv : Move) : Enlists ((raw managers bots).play ms) m mv :=
  enlists_move (sound_play managers bots ms) (has_play.mpr has)
    (regular_play has bots ms).orderly mv

theorem phase_raw (has : m < managers.length) (bots : List BotPlan) :
    ((raw managers bots).view m).enrolment.phase = .new :=
  congrArg Phase.toStart (untouched_raw has bots).phase

theorem holds_play (has : m < managers.length) (bots : List BotPlan) (ms : List Move) :
    (((raw managers bots).play ms).view m).enrolment.Holds
      ((raw managers bots).registrations m ms) := by
  induction ms using List.reverseRecOn with
  | nil =>
      have first := untouched_raw has bots
      refine ⟨fun _ => ⟨?_, ?_, first.queue⟩, fun isRunning => ?_⟩
      · exact congrArg (List.map Launch.bot) first.launches
      · exact congrArg (List.filter fun e => e.kind = .botLaunched) first.history
      · cases (phase_raw has bots).symm.trans isRunning
  | append_singleton ms mv ih =>
      rw [registrations_snoc, play_append]
      exact (enlists_play has bots ms mv).holds ih

theorem running_of_started (has : m < managers.length)
    (started : (raw managers bots).During ms (StartReturns m)) :
    (((raw managers bots).play ms).view m).enrolment.phase = .running := by
  induction ms using List.reverseRecOn with
  | nil => exact absurd started During.not_nil
  | append_singleton ms mv ih =>
      rw [play_append]
      rcases During.snoc_iff.mp started with before | now
      · exact (enlists_play has bots ms mv).running (ih before)
      · exact now.running (sound_play managers bots ms)

theorem isNew_of_unstarted (has : m < managers.length)
    (unstarted : ¬ (raw managers bots).During ms (StartCalled m)) :
    (((raw managers bots).play ms).view m).enrolment.phase = .new := by
  induction ms using List.reverseRecOn with
  | nil => exact phase_raw has bots
  | append_singleton ms mv ih =>
      rw [During.snoc_iff, not_or] at unstarted
      rw [play_append]
      exact (enlists_play has bots ms mv).isNew unstarted.2 (ih unstarted.1)

/-- These bots are launched by a manager, each under its place as its id, and announced. -/
structure HasLaunched (f : Fleet) (m : Nat) (launched : List Nat) : Prop where
  bots : (f.manager m).bots = launched
  announced : (f.manager m).announced = announcements (fun b => (f.bot b).plan.name) launched

theorem hasLaunched_of_running {registered : List Nat}
    (holds : (f.view m).enrolment.Holds registered)
    (started : (f.view m).enrolment.phase = .running) : f.HasLaunched m registered :=
  ⟨(holds.isRunning started).1, (holds.isRunning started).2⟩

/-- The bots registered with a manager are launched once each, in order, under dense ids: none
before the start, those in the queue by the start, and later ones when they are accepted. -/
structure LaunchesAsRegistered (f : Fleet) (m : Nat) (ms : List Move) : Prop where
  before : ¬ f.During ms (StartCalled m) → (f.play ms).HasLaunched m []
  since : f.During ms (StartReturns m) → (f.play ms).HasLaunched m (f.registrations m ms)
  byStart : ∀ pre mv post span, ms = pre ++ mv :: post → (f.play pre).StartCall mv m span →
    ((f.play pre).start m span).2 = none →
      ((f.play pre).start m span).1.HasLaunched m (f.registrations m pre)
  atAcceptance : ∀ pre mv post b span, ms = pre ++ mv :: post →
    f.During pre (StartReturns m) → (f.play pre).AddCall mv m b span →
      ((f.play pre).add m b span).2 = none →
        ((f.play pre).add m b span).1.HasLaunched m (f.registrations m pre ++ [b])
  kept : ∀ pre, pre <+: ms → ((f.play pre).manager m).bots <+: ((f.play ms).manager m).bots
  once : (launchedIds ((f.play ms).manager m).history).Pairwise (· < ·)
  inOrder : (f.manager m).settings.maxConcurrent = 0 → ∀ pre mv mid mv' post id id',
    ms = pre ++ mv :: mid ++ mv' :: post → (f.play pre).RunCall mv ⟨m, id⟩ →
      (f.play (pre ++ mv :: mid)).RunCall mv' ⟨m, id'⟩ → id < id'

/-- Every bot whose registration is accepted is launched once, in the order of the calls, under
the next id; and where slots are not limited the bots are run in this order. -/
theorem launches_as_registered (has : m < managers.length) (bots : List BotPlan)
    (ms : List Move) : (raw managers bots).LaunchesAsRegistered m ms where
  before := fun unstarted =>
    let launched := (holds_play has bots ms).isNew (isNew_of_unstarted has unstarted)
    ⟨launched.1, launched.2.1⟩
  since := fun started => hasLaunched_of_running (holds_play has bots ms)
    (running_of_started has started)
  byStart := fun pre mv post span _ call succeeded => by
    have there := call.has (sound_play managers bots pre)
    have isNew : (((raw managers bots).play pre).manager m).phase = .new := by
      apply Classical.byContradiction
      intro old
      rw [start_of_not_new old] at succeeded
      cases succeeded
    obtain ⟨-, phase, started⟩ := (enrolment_start there isNew span).resolve_right fun failed =>
      failed.1 succeeded
    have holds := (holds_play has bots pre).start (congrArg Phase.toStart isNew)
    rw [← started] at holds
    exact hasLaunched_of_running holds (congrArg Phase.toStart phase)
  atAcceptance := fun pre mv post b span _ started call succeeded => by
    have added := (enrolment_add (has_play.mpr has) (regular_play has bots pre).orderly b
      span).resolve_right fun failed => failed.1 succeeded
    have holds := (holds_play has bots pre).register b
    rw [← added.2.2] at holds
    refine hasLaunched_of_running holds ?_
    rw [added.2.2, Enrolment.phase_register]
    exact running_of_started has started
  kept := fun pre sub => by
    obtain ⟨post, rfl⟩ := sub
    rw [play_append]
    exact Steps.bots_prefix ((steps_play_any (sound_play managers bots pre) post).2.2 m
      (has_play.mpr has))
  once := by
    obtain ⟨r, told, -⟩ := replayed_play has bots ms
    have ascending := told.ascending
    rw [← told.launched] at ascending
    exact ascending
  inOrder := fun unlimited pre mv mid mv' post id id' _ call call' => by
    refine runs_ascending has ?_ call call'
    rw [← unlimited]
    show _ = ((raw managers bots).view m).mgr.settings.maxConcurrent
    rw [view_raw has]
    rfl

/-- One bot is registered before the start and once more by its own run. -/
theorem launches_as_registered_of_two :
    let f := raw [{ Sample.oneSlot with settings := {} }]
      [{ Sample.bot false with plan := { (Sample.bot false).plan with calls := [.add 0 0] } }]
    let ms : List Move := [.call (.add 0 0), .call (.start 0), .turn, .turn, .turn]
    f.LaunchesAsRegistered 0 ms ∧ f.registrations 0 ms = [0, 0] ∧
      ((f.play ms).manager 0).bots = [0, 0] := by
  have has : 0 < [({ Sample.oneSlot with settings := {} } : ManagerPlan)].length := by decide
  have launches := launches_as_registered has
    [{ Sample.bot false with plan := { (Sample.bot false).plan with calls := [.add 0 0] } }]
    [.call (.add 0 0), .call (.start 0), .turn, .turn, .turn]
  exact ⟨launches, by decide, by decide⟩

end Fleet

end Flotilla
