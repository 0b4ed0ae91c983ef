import Flotilla.Proofs.Invariants

/-!
# Calls of `stop` and of runs in the course of a run

A move in which `stop` is called is cut at the call: what comes before it and after it stops
nothing (`StopCall.before`, `StopCall.after`). With this the state tells what was called: the
pool is closed exactly if `stop` found the manager running (`Fleet.closed_iff`), and a launch
is admitted exactly if its run was called (`Fleet.admitted_iff`).
-/

namespace Flotilla

namespace Fleet

/-- `stop` is called for a manager in the course of a move, and finds it running. -/
def StopsRunning (m : Nat) (f : Fleet) (mv : Move) : Prop :=
  ∃ g span, f.StopCall mv g m span ∧ (g.manager m).phase = .running

variable {L : Licence} {f g : Fleet} {mv : Move} {m : Nat} {span : Option Span} {r : RunName}
  {l : Launch}

/-! ## Before and after a call of `stop` -/

theorem StopCall.before (call : f.StopCall mv g m span) : Leads L f g := by
  cases call with
  | byOwner | inRun | byWaiter => exact .refl L f
  | atSignal => exact leads_heeded L f _ _

theorem StopCall.has (call : f.StopCall mv g m span) (sound : f.Sound) : f.Has m := by
  cases call with
  | byOwner held => exact has_of_isHeld sound held
  | inRun turn calls held => exact has_of_isHeld sound held
  | byWaiter turn first => exact sound.owned _ (List.mem_of_getElem? (found_of_wait first rfl))
  | atSignal turn got => exact sound.owned _ (List.mem_of_getElem? (found_of_wait got rfl))

theorem move_turn {t : Task} (turn : f.tasks.running = some t) : f.move .turn = f.stepTask t := by
  unfold move step?
  rw [turn]
  rfl

theorem move_first {w : Nat} (turn : f.tasks.running = some (.wait w))
    (first : (f.wait w).stage = .submitted) (purpose : (f.wait w).purpose = .stop)
    (kept : (f.wait w).aborted = false) : f.move .turn = f.beginWaiting w := by
  rw [move_turn turn]
  show f.stepWait w = _
  unfold stepWait
  simp [first, purpose, kept, WaitStage.isOver]

theorem move_signalled {w : Nat} {s : Signal} (turn : f.tasks.running = some (.wait w))
    (got : (f.wait w).stage = .signalled s) (kept : (f.wait w).aborted = false) :
    f.move .turn = (f.heeded (f.wait w).manager s).beginWaiting w := by
  rw [move_turn turn]
  show f.stepWait w = _
  unfold stepWait
  simp [got, kept, WaitStage.isOver, heedSignal_eq]

/-- What a move does after it called `stop` stops nothing. -/
theorem StopCall.after (call : f.StopCall mv g m span) (acts : L.acts) (ready : f.Ready L)
    (stops : L.stops m) : Leads L (g.stop m span).1 (f.move mv) := by
  cases call with
  | byOwner held =>
      have eq : f.move (.call (.stop m)) = (f.stop m none).1 := by
        unfold move perform
        simp [callee?, held]
      rw [eq]
      exact .refl L _
  | @inRun r m left turn calls held =>
      have found := found_of_stage calls fun ended => by cases ended
      have stopped := leads_stop (L := L.rest) f m (some (f.spanOf r)) fun _ => stops
      obtain ⟨turn', l', found', inRun⟩ := stopped.stays ready turn found (by rw [calls]; rfl)
      have eq : f.move .turn = (((f.stop m (some (f.spanOf r))).1.note (.called
          ((f.stop m (some (f.spanOf r))).1.launch r).bot
            (.ofHalt (f.stop m (some (f.spanOf r))).2))).setStage r (.calling left)) := by
        rw [move_turn turn]
        show f.stepBot r = _
        unfold stepBot
        rw [calls]
        unfold perform
        simp [callee?, held]
      rw [eq]
      exact leads_calling acts turn' found' inRun _ left
  | byWaiter turn first purpose kept =>
      rw [move_first turn first purpose kept]
      exact leads_stopped acts ready turn (found_of_wait first rfl) fun _ => stops
  | @atSignal w s turn got kept =>
      rw [move_signalled turn got kept]
      have told := leads_heeded L.rest f (f.wait w).manager s
      obtain ⟨turn', found'⟩ := told.idle ready turn (found_of_wait got rfl)
      exact leads_stopped acts (told.of_rest.ready ready) turn' found' fun _ => stops

/-! A move in which `stop` is called leads up to the call, and on from there. -/

variable {panics : Nat → Prop}

theorem StopCall.has_of (call : f.StopCall mv g m span) (sound : f.Sound) : g.Has m :=
  have ready := sound.ready (L := .all fun _ => True) fun _ _ => trivial
  (call.before.has ready m).mpr (call.has sound)

/-- Before `stop` is called in a move nothing happens to the manager, or it is told that it is
asked to end. -/
theorem StopCall.view_eq (call : f.StopCall mv g m span) (sound : f.Sound) :
    g.view m = f.view m ∨ g.view m = (f.view m).publish .shutdownRequested := by
  have has := call.has sound
  cases call with
  | byOwner | inRun | byWaiter => exact Or.inl rfl
  | atSignal => exact Or.inr (view_publish (f := (f.say _ _ _ _).say _ _ _ _) has _)

theorem StopCall.launches_eq (call : f.StopCall mv g m span) (sound : f.Sound) :
    (g.manager m).launches = (f.manager m).launches := by
  rcases call.view_eq sound with eq | eq <;> exact congrArg (·.mgr.launches) eq

/-- `stop` is refused unless it finds the manager running. -/
theorem accepted_iff (has : g.Has m) (span : Option Span) :
    (∀ e, (g.stop m span).2 ≠ some (.refused e)) ↔ (g.manager m).phase = .running := by
  constructor
  · intro accepted
    apply Classical.byContradiction
    intro idle
    rw [stop_of_not_running idle] at accepted
    exact accepted _ rfl
  · intro isRunning
    obtain ⟨asked, said, woken, stopping⟩ := stop_of_running has isRunning span
    exact stopping.failed

theorem StopCall.toStop (call : f.StopCall mv g m span) (ready : f.Ready (.all panics)) :
    Steps (.all panics) m (f.view m) ((g.stop m span).1.view m) :=
  (call.before.trans (leads_stop g m span fun _ => trivial)).steps ready m
    (call.has ready.toSound)

theorem StopCall.fromStop (call : f.StopCall mv g m span) (ready : f.Ready (.all panics)) :
    Steps (.all panics) m ((g.stop m span).1.view m) ((f.move mv).view m) := by
  have before : Leads (.all panics) f (g.stop m span).1 :=
    call.before.trans (leads_stop g m span fun _ => trivial)
  exact (call.after trivial ready trivial).steps (before.ready ready) m
    ((before.has ready m).mpr (call.has ready.toSound))

/-! ## The pool is closed by `stop` -/

/-- A call of `stop` that finds the manager running closes the pool. -/
theorem StopsRunning.closed (stops : StopsRunning m f mv) (sound : f.Sound) :
    ((f.move mv).manager m).closed = true := by
  obtain ⟨g, span, call, isRunning⟩ := stops
  have ready : f.Ready (.all fun _ => True) := sound.ready fun _ _ => trivial
  obtain ⟨asked, said, woken, stopping⟩ := stop_of_running (call.has_of sound) isRunning span
  have closed : ((g.stop m span).1.view m).mgr.closed = true := by
    rw [stopping.here, View.wakeAll_mgr, View.stop_mgr]
  exact Steps.closed (call.fromStop ready) closed

variable {managers : List ManagerPlan} {bots : List BotPlan} {ms : List Move}

/-- What one more move does to a manager that a run reached. -/
theorem steps_snoc (has : m < managers.length) (bots : List BotPlan) (ms : List Move) (mv : Move) :
    Steps (((raw managers bots).play ms).licence mv) m
      (((raw managers bots).play ms).view m) (((raw managers bots).play (ms ++ [mv])).view m) := by
  rw [play_append]
  exact (steps_move (sound_play managers bots ms) mv).2.2 m (has_play.mpr has)

/-- The pool of a manager is closed if and only if `stop` was called when it was running. -/
theorem closed_iff (has : m < managers.length) :
    (((raw managers bots).play ms).manager m).closed = true ↔
      (raw managers bots).During ms (StopsRunning m) := by
  induction ms using List.reverseRecOn with
  | nil =>
      have isOpen : (((raw managers bots).play []).view m).mgr.closed = false := by
        rw [play_nil, view_raw has]
        rfl
      exact iff_of_false (ne_true_of_eq_false isOpen) During.not_nil
  | append_singleton ms mv ih =>
      have steps := steps_snoc has bots ms mv
      rw [During.snoc_iff, ← ih]
      constructor
      · intro closed
        cases was : (((raw managers bots).play ms).manager m).closed with
        | true => exact Or.inl rfl
        | false => exact Or.inr (Steps.stops_of_closes steps was closed)
      · intro closed
        rcases closed with was | stops
        · exact Steps.closed steps was
        · rw [play_append]
          exact stops.closed (sound_play managers bots ms)

/-! ## A launch is admitted by the call of its run -/

theorem admitted_releaseSlot (has : f.Has r.manager)
    (found : (f.view r.manager).launch? r.id = some l) (admitted : l.admitted = true) :
    ∃ l', ((f.releaseSlot r.manager).view r.manager).launch? r.id = some l' ∧
      l'.admitted = true := by
  rw [view_releaseSlot has, View.releaseSlot_eq]
  cases (f.view r.manager).offeree with
  | none => exact ⟨l, found, admitted⟩
  | some next =>
      refine ⟨if next = r.id then { l with stage := .offered } else l, ?_, ?_⟩
      · rw [View.launch?_wake, View.launch?_setStage, View.launch?_setSlots, found,
          Option.map_some]
      · split <;> exact admitted

theorem admitted_complete (has : f.Has r.manager)
    (found : (f.view r.manager).launch? r.id = some l) (admitted : l.admitted = true)
    (outcome : RunOutcome) :
    ∃ l', ((f.complete r outcome).view r.manager).launch? r.id = some l' ∧
      l'.admitted = true := by
  cases panicked : f.panicOf? (f.launch r).bot .name with
  | some text =>
      refine ⟨{ l with stage := .over }, ?_, admitted⟩
      rw [complete_of_panic outcome panicked, view_endTask has]
      show ((f.view r.manager).endTask r.manager r.id).launch? r.id = _
      rw [View.launch?_endTask, found, Option.map_some, if_pos rfl]
  | none =>
      refine ⟨{ l with stage := .over, registered := false }, ?_, admitted⟩
      rw [view_complete has outcome panicked]
      show ((f.view r.manager).complete r.manager r.id outcome).launch? r.id = _
      rw [View.launch?_complete, found, Option.map_some, if_pos rfl]

theorem admitted_finishRun (has : f.Has r.manager)
    (found : (f.view r.manager).launch? r.id = some l) (admitted : l.admitted = true) :
    ∃ l', ((f.finishRun r).view r.manager).launch? r.id = some l' ∧ l'.admitted = true := by
  have exits : (f.modifyBot (f.launch r).bot Bot.exit).view r.manager = f.view r.manager :=
    view_modifyBot _ _ (keeps_exit _).plan
  obtain ⟨l', found', admitted'⟩ :=
    admitted_releaseSlot (f := f.modifyBot (f.launch r).bot Bot.exit) has (exits ▸ found) admitted
  exact admitted_complete (f := (f.modifyBot (f.launch r).bot Bot.exit).releaseSlot r.manager)
    (((steady_releaseSlot _ _).has _).mpr has) found' admitted' _

theorem admitted_enterRun (has : f.Has r.manager)
    (found : (f.view r.manager).launch? r.id = some l) (admitted : l.admitted = true) :
    ∃ l', ((f.enterRun r).view r.manager).launch? r.id = some l' ∧ l'.admitted = true := by
  have enters : (f.modifyBot (f.launch r).bot Bot.enter).view r.manager = f.view r.manager :=
    view_modifyBot _ _ (keeps_enter _).plan
  unfold enterRun
  dsimp only
  split
  · exact admitted_finishRun (f := f.modifyBot (f.launch r).bot Bot.enter) has (enters ▸ found)
      admitted
  · refine ⟨{ l with stage := .calling (f.bot (f.launch r).bot).plan.calls }, ?_, admitted⟩
    rw [view_setStage (by simpa using has), view_note, view_modifyBot _ _ rfl, enters,
      View.launch?_setStage, found, Option.map_some, if_pos rfl]

theorem admitted_beginRun (found : (f.view r.manager).launch? r.id = some l)
    (isOpen : (f.manager r.manager).closed = false) (registered : l.registered = true)
    (answers : f.panicOf? l.bot .name = none) :
    ∃ l', ((f.beginRun r).view r.manager).launch? r.id = some l' ∧ l'.admitted = true := by
  have has : f.Has r.manager := has_of_launch? found
  unfold beginRun isAdmissible
  rw [launch_of_found found, isOpen, registered]
  simp only [Bool.not_false, Bool.and_self, ↓reduceIte]
  have marked := steady_modifyManager f r.manager (fun m =>
    m.modifyLaunch r.id fun l => { l with admitted := true }) rfl
  have found' : ((f.modifyManager r.manager fun m => m.modifyLaunch r.id fun l =>
      { l with admitted := true }).view r.manager).launch? r.id =
        some { l with admitted := true } := by
    rw [view_modify has (fun m => m.modifyLaunch r.id fun l => { l with admitted := true })
      fun _ => rfl]
    exact markAdmitted_found found
  generalize (f.modifyManager r.manager fun m => m.modifyLaunch r.id fun l =>
    { l with admitted := true }) = g at marked found' ⊢
  rw [launch_of_found found']
  unfold askName
  rw [panicOf?_steady marked, answers]
  exact admitted_enterRun ((marked.has _).mpr has) found' rfl

/-- A launch is run while it still waits for its run. -/
theorem RunCall.pending (call : f.RunCall mv r) : (f.launch r).stage.isPending = true := by
  rcases call.can.seat with offered | ⟨first, -⟩
  · rw [offered]
    rfl
  · rw [first]
    rfl

theorem RunCall.found (call : f.RunCall mv r) :
    (f.view r.manager).launch? r.id = some (f.launch r) :=
  found_of_stage rfl fun isOver => by
    have pending := call.pending
    rw [isOver] at pending
    cases pending

/-- A launch whose run is called is admitted. -/
theorem RunCall.admitted (call : f.RunCall mv r) :
    ∃ l, ((f.move mv).view r.manager).launch? r.id = some l ∧ l.admitted = true := by
  obtain ⟨rfl, turn, can, answers⟩ := call
  have isOpen : (f.manager r.manager).closed = false := can.isOpen
  rw [move_turn turn]
  show ∃ l, ((f.stepBot r).view r.manager).launch? r.id = some l ∧ l.admitted = true
  unfold stepBot
  rcases can.seat with offered | ⟨first, room⟩
  · have found := found_of_stage offered nofun
    rw [offered]
    dsimp only
    rw [isOpen, if_neg Bool.false_ne_true]
    exact admitted_beginRun found isOpen can.registered answers
  · have found := found_of_stage first nofun
    have has : f.Has r.manager := has_of_launch? found
    rw [first]
    dsimp only
    unfold seekSlot
    dsimp only
    rw [isOpen, if_neg Bool.false_ne_true]
    cases slots : (f.manager r.manager).slots with
    | none => exact admitted_beginRun found isOpen can.registered answers
    | some p =>
        obtain ⟨taken, -, -⟩ := Permits.acquire_of_pos (room p slots) r.id
        rcases acquired : p.acquire r.id with ⟨q, b⟩
        rw [acquired] at taken
        cases taken
        dsimp only
        rw [acquired]
        dsimp only
        have view := view_modify has (fun m => { m with slots := some q }) fun _ => rfl
        refine admitted_beginRun (l := f.launch r) ?_ ?_ can.registered answers
        · rw [view]
          exact found
        · rw [manager_modifyManager_self has]
          exact isOpen

theorem admitted_of_called (has : m < managers.length) {id : Nat}
    (called : (raw managers bots).During ms fun f mv => f.RunCall mv ⟨m, id⟩) :
    ∃ l, (((raw managers bots).play ms).view m).launch? id = some l ∧ l.admitted = true := by
  induction ms using List.reverseRecOn with
  | nil => exact absurd called During.not_nil
  | append_singleton ms mv ih =>
      rcases During.snoc_iff.mp called with called | call
      · obtain ⟨l, found, admitted⟩ := ih called
        exact Steps.launch (steps_snoc has bots ms mv) Change.admitted found admitted
      · rw [play_append]
        exact call.admitted

theorem called_of_admitted (has : m < managers.length)
    (answers : (raw managers bots).Answers l.bot ms) {id : Nat}
    (found : (((raw managers bots).play ms).view m).launch? id = some l)
    (admitted : l.admitted = true) :
    (raw managers bots).During ms fun f mv => f.RunCall mv ⟨m, id⟩ := by
  induction ms using List.reverseRecOn generalizing l with
  | nil =>
      rw [play_nil, view_raw has] at found
      cases found
  | append_singleton ms mv ih =>
      rw [During.snoc_iff]
      have calm := answers ms (List.prefix_append ms [mv])
      rcases Steps.runs_of_admitted (steps_snoc has bots ms mv) found (fun mute => mute calm)
        admitted with call | ⟨l₀, found₀, bot, was⟩
      · exact Or.inr call
      · rw [← bot] at answers
        exact Or.inl (ih (Answers.append_iff.mp answers).1 found₀ was)

/-- As long as its bot gives its name, a launch was admitted if and only if its run was
called. -/
theorem admitted_iff (has : m < managers.length) {id : Nat}
    (answers : (raw managers bots).Answers l.bot ms)
    (found : (((raw managers bots).play ms).view m).launch? id = some l) :
    l.admitted = true ↔ (raw managers bots).During ms fun f mv => f.RunCall mv ⟨m, id⟩ := by
  refine ⟨called_of_admitted has answers found, fun called => ?_⟩
  obtain ⟨l', found', admitted⟩ := admitted_of_called has called
  cases found.symm.trans found'
  exact admitted

end Fleet

end Flotilla
