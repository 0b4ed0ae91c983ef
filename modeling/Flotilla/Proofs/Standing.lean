import Flotilla.Proofs.Occurrence
import Flotilla.Proofs.PassedOver

/-!
# Where a call of `stop` finds the bots

When `stop` succeeds every bot that was launched stands in one of three places: it is gone, it
is in its run and is asked to quit, or it was not run and never will be. `StopIn` is a call of
`stop` that succeeds in the course of a run, and `StopIn.SortsBots` says this of it, and in
full what the call publishes and asks. A bot that panics when it is asked its name stands in
none of the three places (`Fleet.not_sortsBots_of_mute`).
-/

namespace Flotilla

/-- A call of `stop` that succeeds in the course of a run. -/
structure StopIn (f₀ : Fleet) (m : Nat) where
  /-- The moves before the one in which `stop` is called. -/
  pre : List Move
  move : Move
  post : List Move
  /-- The fleet when `stop` is called. -/
  here : Fleet
  span : Option Span
  call : (f₀.play pre).StopCall move here m span
  succeeded : (here.stop m span).2 = none

/-- Where a bot stands when its manager is stopped. -/
inductive Standing where
  | gone
  | running
  | passedOver

/-- Where the stage of its launch puts a bot. -/
def Stage.standing : Stage → Standing
  | .submitted | .queued | .offered => .passedOver
  | .calling _ | .waiting _ | .permitted _ => .running
  | .over => .gone

namespace Stage

variable {stage : Stage}

theorem standing_eq_gone_iff : stage.standing = .gone ↔ stage.isOver = true := by
  cases stage <;> simp [standing, isOver]

theorem standing_eq_running_iff : stage.standing = .running ↔ stage.isInRun = true := by
  cases stage <;> simp [standing, isInRun]

theorem standing_eq_passedOver_iff : stage.standing = .passedOver ↔ stage.isPending = true := by
  cases stage <;> simp [standing, isPending]

end Stage

namespace StopIn

variable {f₀ : Fleet} {m : Nat}

/-- The moves of the whole run. -/
def moves (s : StopIn f₀ m) : List Move := s.pre ++ s.move :: s.post

/-- The fleet at the end of the run. -/
def last (s : StopIn f₀ m) : Fleet := f₀.play s.moves

/-- The fleet when `stop` returns. -/
def stopped (s : StopIn f₀ m) : Fleet := (s.here.stop m s.span).1

/-- The launches whose bots are asked to quit, in the order in which this is published: those
that were admitted, and those whose bots report themselves as connected. -/
def asked (s : StopIn f₀ m) : List (Nat × Launch) :=
  (s.here.manager m).registry.filter s.here.isAsked

def askedIds (s : StopIn f₀ m) : List Nat := s.asked.map Prod.fst

def askedBots (s : StopIn f₀ m) : List Nat := s.asked.map fun x => x.2.bot

/-- The bot has left the registry, which was published, and nobody is asked to quit for it. -/
structure Gone (s : StopIn f₀ m) (id : Nat) : Prop where
  removed : ∃ name, .botRemoved id name ∈ (s.here.manager m).history
  spared : id ∉ s.askedIds

/-- The run of the bot was called and has not ended, and it is asked to quit once. -/
structure Running (s : StopIn f₀ m) (id : Nat) : Prop where
  called : f₀.During s.pre fun f mv => f.RunCall mv ⟨m, id⟩
  goesOn : (s.here.launch ⟨m, id⟩).stage.isInRun = true
  asked : s.askedIds.count id = 1

/-- The bot waits for its run, which is not called in the whole run. Once nothing can go on, its
launch is over, and all that was said about it since `stop` returned is that it finished and left
the registry. It is asked to quit only if it reports itself as connected. -/
structure PassedOver (s : StopIn f₀ m) (id : Nat) : Prop where
  pending : (s.here.launch ⟨m, id⟩).stage.isPending = true
  uncalled : ¬ f₀.During s.moves fun f mv => f.RunCall mv ⟨m, id⟩
  ends : s.last.tasks.isSettled = true → (s.last.launch ⟨m, id⟩).stage.isOver = true ∧
    ∃ later name, (s.last.manager m).history = (s.stopped.manager m).history ++ later ∧
      later.filter (Event.isAbout id) = [.botFinished id name, .botRemoved id name]
  asked : s.askedIds.count id ≤ 1
  connected : id ∈ s.askedIds →
    (s.here.bot (s.here.launch ⟨m, id⟩).bot).liveness.connected = true

def Stands (s : StopIn f₀ m) (id : Nat) : Standing → Prop
  | .gone => s.Gone id
  | .running => s.Running id
  | .passedOver => s.PassedOver id

/-- Every bot that was launched stands in one place. A bot is asked to quit once for every launch
of it that is asked, and nobody else is. This is what is published: that the manager stops, the
requests to quit in ascending order of their ids, and, if nobody is registered, that it has come
to its end. -/
structure SortsBots (s : StopIn f₀ m) : Prop where
  sorted : ∀ id < (s.here.manager m).launches.length, ∃! standing, s.Stands id standing
  ascending : s.askedIds.Pairwise (· < ·)
  bots : s.stopped.bots = (s.here.quitAll s.askedBots).bots
  quits : ∀ b < s.here.bots.length, (s.here.bot b).isClosure = false →
    (s.stopped.bot b).quits = (s.here.bot b).quits + s.askedBots.count b
  history : (s.stopped.manager m).history = (s.here.manager m).history ++
    (.stateChanged .stopping ::
      s.asked.map fun x => .quitRequested x.1 (s.here.bot x.2.bot).plan.name) ++
    if (s.here.manager m).registry = [] then [.stateChanged .terminated] else []

end StopIn

namespace Fleet

variable {f : Fleet} {b b' : Nat} {m : Nat}

/-! ## Counting requests to quit -/

/-- A bot made to measure counts the requests to quit it gets. -/
theorem quits_quitBot (answers : f.panicOf? b' .quit = none) (inside : b < f.bots.length)
    (custom : (f.bot b).isClosure = false) :
    ((f.quitBot b').1.bot b).quits = (f.bot b).quits + if b' = b then 1 else 0 := by
  rw [bot_quitBot]
  by_cases same : b' = b
  · subst same
    have unarmed : .quit ∉ (f.bot b').armed := by
      intro armed
      rw [panicOf?, if_pos armed] at answers
      cases answers
    rw [if_pos ⟨rfl, inside⟩, if_pos rfl, Bot.asked, if_neg unarmed, if_neg (by simp [custom])]
  · rw [if_neg fun here => same here.1, if_neg same, Nat.add_zero]

theorem quits_quitAll {bots : List Nat} (answers : ∀ b ∈ bots, f.panicOf? b .quit = none)
    (inside : b < f.bots.length) (custom : (f.bot b).isClosure = false) :
    ((f.quitAll bots).bot b).quits = (f.bot b).quits + bots.count b := by
  induction bots generalizing f with
  | nil => rfl
  | cons b' bots ih =>
      have quits := quits_quitBot (answers b' List.mem_cons_self) inside custom
      have inside' : b < (f.quitBot b').1.bots.length := by
        rw [bots_quitBot, List.length_modify]
        exact inside
      have custom' : ((f.quitBot b').1.bot b).isClosure = false := by
        rw [bot_quitBot]
        split
        · rw [Bot.isClosure_asked, custom]
        · exact custom
      rw [quitAll_cons, ih (fun b mem => ?_) inside' custom', quits, List.count_cons]
      · simp only [beq_iff_eq]
        omega
      · rw [panicOf?_steady (steady_quitBot f b')]
        exact answers b (List.mem_cons_of_mem b' mem)

end Fleet

namespace StopIn

open Fleet

variable {managers : List ManagerPlan} {bots : List BotPlan} {m : Nat}
  {s : StopIn (raw managers bots) m} {id : Nat} {l : Launch}

/-! ## Up to the call and on from it -/

theorem has (s : StopIn (raw managers bots) m) : m < managers.length :=
  has_play.mp (s.call.has (sound_play managers bots s.pre))

theorem has_here (s : StopIn (raw managers bots) m) : s.here.Has m :=
  s.call.has_of (sound_play managers bots s.pre)

theorem isRunning (s : StopIn (raw managers bots) m) : (s.here.manager m).phase = .running :=
  (accepted_iff s.has_here s.span).mp (by rw [s.succeeded]; nofun)

/-- What stopping comes to where it succeeds. -/
theorem stopping (s : StopIn (raw managers bots) m) : ∃ asked woken, asked.Perm s.asked ∧
    Stopping s.here m asked (s.asked.map fun x => ⟨x.1, x.2.bot⟩) woken
      (s.here.stop m s.span) := by
  obtain ⟨asked, said, woken, stopping⟩ := stop_of_running s.has_here s.isRunning s.span
  obtain ⟨rfl, eq, -⟩ := stopping.succeeded s.succeeded
  refine ⟨asked, woken, ?_, stopping⟩
  rw [eq]
  exact (s.here.manager m).walked_perm.filter s.here.isAsked

theorem launches_here (s : StopIn (raw managers bots) m) :
    (s.here.manager m).launches = (((raw managers bots).play s.pre).manager m).launches :=
  s.call.launches_eq (sound_play managers bots s.pre)

theorem mem_askedIds (found : (s.here.manager m).launches[id]? = some l) :
    id ∈ s.askedIds ↔ l.registered = true ∧ s.here.isAsked (id, l) = true := by
  unfold askedIds asked
  rw [List.mem_map]
  constructor
  · intro mem
    rcases mem with ⟨⟨id, l'⟩, mem, rfl⟩
    obtain ⟨mem, asked⟩ := List.mem_filter.mp mem
    obtain ⟨found', registered⟩ := Manager.mem_registry.mp mem
    cases found.symm.trans found'
    exact ⟨registered, asked⟩
  · intro known
    rcases known with ⟨registered, asked⟩
    exact ⟨(id, l), List.mem_filter.mpr ⟨Manager.mem_registry.mpr ⟨found, registered⟩, asked⟩, rfl⟩

theorem ascending (s : StopIn (raw managers bots) m) : s.askedIds.Pairwise (· < ·) :=
  (Manager.pairwise_registry (s.here.manager m)).sublist (List.filter_sublist.map _)

theorem count_askedIds (s : StopIn (raw managers bots) m) (id : Nat) :
    s.askedIds.count id = if id ∈ s.askedIds then 1 else 0 :=
  List.Nodup.count (s.ascending.imp Nat.ne_of_lt)

/-- What the manager is like when `stop` returns. -/
theorem mgr_stopped (s : StopIn (raw managers bots) m) :
    (s.stopped.view m).mgr = ((s.here.view m).stop m s.askedIds).mgr := by
  obtain ⟨asked, woken, -, stopping⟩ := s.stopping
  unfold stopped askedIds
  rw [stopping.here, View.wakeAll_mgr, List.map_map]
  rfl

theorem closed_stopped (s : StopIn (raw managers bots) m) :
    (s.stopped.manager m).closed = true := by
  show (s.stopped.view m).mgr.closed = true
  rw [mgr_stopped, View.stop_mgr]

theorem history_stopped (s : StopIn (raw managers bots) m) :
    (s.stopped.manager m).history = (s.here.manager m).history ++
      (.stateChanged .stopping ::
        s.asked.map fun x => .quitRequested x.1 (s.here.bot x.2.bot).plan.name) ++
      if (s.here.manager m).registry = [] then [.stateChanged .terminated] else [] := by
  show (s.stopped.view m).mgr.history = _
  have names : s.askedIds.map (fun id => Event.quitRequested id ((s.here.view m).launchName id)) =
      s.asked.map fun x => .quitRequested x.1 (s.here.bot x.2.bot).plan.name := by
    unfold askedIds
    rw [List.map_map]
    refine List.map_congr_left fun x mem => ?_
    obtain ⟨found, -⟩ := Manager.mem_registry.mp (List.mem_filter.mp mem).1
    show Event.quitRequested x.1 (s.here.bot (s.here.launch ⟨m, x.1⟩).bot).plan.name = _
    rw [launch_of_found (r := ⟨m, x.1⟩) found]
  rw [mgr_stopped, View.history_stop, names]
  rfl

theorem bots_stopped (s : StopIn (raw managers bots) m) :
    s.stopped.bots = (s.here.quitAll s.askedBots).bots := by
  obtain ⟨asked, woken, perm, stopping⟩ := s.stopping
  exact stopping.bots.trans (bots_quitAll_of_perm rfl (perm.map fun x => x.2.bot))

theorem quits_stopped (s : StopIn (raw managers bots) m) {b : Nat} (inside : b < s.here.bots.length)
    (custom : (s.here.bot b).isClosure = false) :
    (s.stopped.bot b).quits = (s.here.bot b).quits + s.askedBots.count b := by
  obtain ⟨asked, woken, perm, stopping⟩ := s.stopping
  obtain ⟨-, -, quit⟩ := stopping.succeeded s.succeeded
  have same : s.stopped.bot b = (s.here.quitAll s.askedBots).bot b :=
    congrArg (·.getD b default) s.bots_stopped
  rw [same]
  refine quits_quitAll (fun b' mem => ?_) inside custom
  obtain ⟨x, among, rfl⟩ := List.mem_map.mp mem
  exact quit x (perm.mem_iff.mpr among)

theorem isPrefix_pre (s : StopIn (raw managers bots) m) : s.pre <+: s.moves :=
  List.prefix_append _ _

theorem ready (s : StopIn (raw managers bots) m) :
    ((raw managers bots).play s.pre).Ready (.ofRun (raw managers bots) s.moves) :=
  ready_ofRun (sound_raw managers bots) s.isPrefix_pre

theorem steps_here (s : StopIn (raw managers bots) m) :
    Steps (.ofRun (raw managers bots) s.moves) m (((raw managers bots).play s.pre).view m)
      (s.here.view m) :=
  s.call.before.steps s.ready m (has_play.mpr s.has)

theorem steps_stopped (s : StopIn (raw managers bots) m) :
    Steps (.ofRun (raw managers bots) s.moves) m (((raw managers bots).play s.pre).view m)
      (s.stopped.view m) :=
  s.call.toStop s.ready

theorem steps_last (s : StopIn (raw managers bots) m) :
    Steps (.ofRun (raw managers bots) s.moves) m (s.stopped.view m) (s.last.view m) := by
  have split : s.moves = (s.pre ++ [s.move]) ++ s.post := by simp [moves]
  have later := steps_ofRun_append (sound_raw managers bots) (has_raw.mpr s.has)
    (s.pre ++ [s.move]) s.post
  rw [← split, play_append] at later
  exact (s.call.fromStop s.ready).trans later

theorem regular_here (s : StopIn (raw managers bots) m) : (s.here.view m).Regular m :=
  Steps.regular s.steps_here (regular_play s.has bots s.pre)

theorem regular_stopped (s : StopIn (raw managers bots) m) : (s.stopped.view m).Regular m :=
  Steps.regular s.steps_stopped (regular_play s.has bots s.pre)

variable (answers : (raw managers bots).Answering m s.moves)

include answers

theorem clear_pre : (((raw managers bots).play s.pre).view m).Clear :=
  clear_play s.has (answers.mono (sound_raw managers bots) s.isPrefix_pre)

theorem calm_here : (s.here.view m).Calm (.ofRun (raw managers bots) s.moves) :=
  (answers.calm (sound_raw managers bots) s.isPrefix_pre).of_launches s.launches_here

theorem clear_here : (s.here.view m).Clear :=
  Steps.clear s.steps_here (calm_here answers) (regular_play s.has bots s.pre)
    (clear_pre answers)

theorem clear_stopped : (s.stopped.view m).Clear :=
  Steps.clear s.steps_stopped ((calm_here answers).of_launches (launches_stop s.here m s.span))
    (regular_play s.has bots s.pre) (clear_pre answers)

/-! ## The three places -/

theorem gone (found : (s.here.manager m).launches[id]? = some l) (ended : l.stage.isOver = true) :
    s.Gone id := by
  have clear := clear_here answers
  have out : l.registered = false := by
    rw [clear.accounted id l found, ended]
    rfl
  refine ⟨(clear.recorded id l found).mp out, fun mem => ?_⟩
  have registered := ((mem_askedIds found).mp mem).1
  rw [out] at registered
  cases registered

theorem running (found : (s.here.manager m).launches[id]? = some l)
    (inRun : l.stage.isInRun = true) : s.Running id := by
  obtain ⟨admitted, registered⟩ := s.regular_here.tidy.running id l found inRun
  refine ⟨?_, ?_, ?_⟩
  · have found' : (((raw managers bots).play s.pre).manager m).launches[id]? = some l := by
      rw [← launches_here]
      exact found
    have named := answers.mono (sound_raw managers bots) s.isPrefix_pre l
      (List.mem_of_getElem? found')
    exact (admitted_iff s.has named found').mp admitted
  · rw [launch_of_found (r := ⟨m, id⟩) found]
    exact inRun
  · rw [count_askedIds, if_pos]
    refine (mem_askedIds found).mpr ⟨registered, ?_⟩
    show (l.admitted || _) = true
    rw [admitted]
    rfl

/-- Whoever waits for its run when `stop` is called is passed over from then on. -/
theorem passedOver_last (found : (s.here.manager m).launches[id]? = some l)
    (pending : l.stage.isPending = true) :
    ∃ l', (s.last.view m).PassedOver id (s.stopped.manager m).history l' := by
  have calm : (s.last.view m).Calm (.ofRun (raw managers bots) s.moves) :=
    answers.calm (sound_raw managers bots) (List.prefix_refl s.moves)
  refine Steps.passedOver (l := l) s.steps_last calm s.regular_stopped (clear_stopped answers)
    s.closed_stopped ⟨?_, Stage.isInRun_of_isPending pending,
      s.regular_here.tidy.pending id l found pending, [], ?_,
      Or.inl ⟨Stage.isOver_of_isPending pending, rfl⟩⟩
  · show (s.stopped.view m).mgr.launches[id]? = some l
    rw [mgr_stopped, View.stop_mgr]
    exact found
  · exact (List.append_nil _).symm

theorem passedOver (found : (s.here.manager m).launches[id]? = some l)
    (pending : l.stage.isPending = true) : s.PassedOver id := by
  obtain ⟨l', found', unrun, unadmitted, later, history, so⟩ :=
    passedOver_last answers found pending
  have unadmitted_here := s.regular_here.tidy.pending id l found pending
  refine ⟨?_, fun called => ?_, fun settled => ?_, ?_, fun mem => ?_⟩
  · rw [launch_of_found (r := ⟨m, id⟩) found]
    exact pending
  · obtain ⟨l'', found'', admitted⟩ := admitted_of_called s.has called
    cases found'.symm.trans found''
    cases unadmitted.symm.trans admitted
  · have regular : (s.last.view m).Regular m := regular_play s.has bots s.moves
    have isClosed : (s.last.manager m).closed = true :=
      Steps.closed s.steps_last s.closed_stopped
    have ended : l'.stage.isOver = true :=
      (isInRun_or_isOver_of_settled settled regular.lined isClosed found').resolve_left
        (ne_true_of_eq_false unrun)
    obtain ⟨name, said⟩ : ∃ name, later.filter (Event.isAbout id) =
        [.botFinished id name, .botRemoved id name] := by
      rcases so with ⟨goesOn, -⟩ | ⟨-, said⟩
      · cases goesOn.symm.trans ended
      · exact said
    rw [launch_of_found (r := ⟨m, id⟩) found']
    exact ⟨ended, later, name, history, said⟩
  · rw [count_askedIds]
    split <;> simp
  · have asked := ((mem_askedIds found).mp mem).2
    rw [launch_of_found (r := ⟨m, id⟩) found]
    unfold isAsked at asked
    rw [unadmitted_here, Bool.false_or] at asked
    exact asked

/-- A bot stands where the stage of its launch puts it, and nowhere else. -/
theorem sorted (found : (s.here.manager m).launches[id]? = some l) :
    ∃! standing, s.Stands id standing := by
  have launch : s.here.launch ⟨m, id⟩ = l := launch_of_found (r := ⟨m, id⟩) found
  refine ⟨l.stage.standing, ?_, fun standing stands => ?_⟩
  · show s.Stands id l.stage.standing
    cases place : l.stage.standing with
    | gone => exact gone answers found (Stage.standing_eq_gone_iff.mp place)
    | running => exact running answers found (Stage.standing_eq_running_iff.mp place)
    | passedOver => exact passedOver answers found (Stage.standing_eq_passedOver_iff.mp place)
  · cases standing with
    | gone =>
        have clear := clear_here answers
        have out := (clear.recorded id l found).mpr stands.removed
        rw [clear.accounted id l found, Bool.not_eq_false'] at out
        exact (Stage.standing_eq_gone_iff.mpr out).symm
    | running =>
        have inRun := stands.goesOn
        rw [launch] at inRun
        exact (Stage.standing_eq_running_iff.mpr inRun).symm
    | passedOver =>
        have pending := stands.pending
        rw [launch] at pending
        exact (Stage.standing_eq_passedOver_iff.mpr pending).symm

end StopIn

namespace Fleet

variable {managers : List ManagerPlan} {bots : List BotPlan} {m : Nat}

/-- When `stop` succeeds in a run in which every bot that the manager launches gives its name, every
bot that was launched is gone, or is in its run and is asked to quit once, or is passed over. -/
theorem stop_sorts_bots (s : StopIn (raw managers bots) m)
    (answers : (raw managers bots).Answering m s.moves) : s.SortsBots := by
  refine ⟨fun id inside => ?_, s.ascending, s.bots_stopped, fun b inside custom => ?_,
    s.history_stopped⟩
  · exact StopIn.sorted answers (List.getElem?_eq_getElem inside)
  · exact s.quits_stopped inside custom

/-- Of three launches of one bot the first has ended, the second is in its run, and the third
waits for a slot when the owner stops the manager. -/
def stopAmongThree : StopIn (raw [Sample.oneSlot] [Sample.bot false]) 0 where
  pre := [.call (.start 0), .call (.add 0 0), .turn, .turn, .turn, .call (.finish 0 none), .turn,
    .turn, .call (.add 0 0), .turn, .turn, .turn, .call (.add 0 0), .turn, .turn]
  move := .call (.stop 0)
  post := [.turn, .turn, .turn]
  here := _
  span := none
  call := .byOwner rfl
  succeeded := rfl

/-- The one bot is in a run, so it is asked to quit for the launch that waits as well. -/
theorem stop_sorts_bots_of_three : stopAmongThree.SortsBots ∧
    (stopAmongThree.here.manager 0).launches.length = 3 ∧ stopAmongThree.askedIds = [1, 2] ∧
      stopAmongThree.last.tasks.isSettled = true :=
  ⟨stop_sorts_bots stopAmongThree
      (answering_of_unarmed _ _ (by simp [StopIn.moves, stopAmongThree])),
    by decide, by decide, by decide⟩

/-- Two launches that are come upon in descending order are announced in ascending order. -/
example :
    let backwards : ManagerPlan :=
      { settings := {}
        number := 0
        subscribers := []
        walk := ⟨fun _ ids => ids.reverse, fun _ _ => List.reverse_perm _⟩ }
    let f := (raw [backwards] [Sample.bot false]).play [.call (.start 0), .call (.add 0 0),
      .call (.add 0 0), .turn, .turn, .turn, .turn, .turn, .turn]
    (f.manager 0).walked.map Prod.fst = [1, 0] ∧
      ((f.stop 0 none).1.manager 0).history.drop 4 =
        [.stateChanged .stopping, .quitRequested 0 "a", .quitRequested 1 "a"] := by
  decide

/-- A bot that panicked when it was asked its name never left the registry, and is neither in a
run nor waits for one. -/
theorem not_sortsBots_of_mute :
    ¬ ∀ s : StopIn (raw [Sample.oneSlot] [Sample.bot true]) 0, s.SortsBots := by
  intro all
  have sorts := all
    { pre := Sample.mute ++ [.disarm 0 .name]
      move := .call (.stop 0)
      post := []
      here := _
      span := none
      call := .byOwner rfl
      succeeded := rfl }
  obtain ⟨standing, stands, -⟩ := sorts.sorted 0 (by decide)
  cases standing with
  | gone =>
      obtain ⟨name, mem⟩ := stands.removed
      have silent : ∀ e ∈ (((raw [Sample.oneSlot] [Sample.bot true]).play
          (Sample.mute ++ [.disarm 0 .name])).manager 0).history, e.kind ≠ .botRemoved := by
        decide
      exact silent _ mem rfl
  | running =>
      have inRun := stands.goesOn
      revert inRun
      decide
  | passedOver =>
      have pending := stands.pending
      revert pending
      decide

end Fleet

end Flotilla
