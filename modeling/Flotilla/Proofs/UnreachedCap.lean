import Flotilla.Proofs.Caps
import Flotilla.Proofs.Sessions
import Flotilla.Proofs.WorkConserving

/-!
# A cap that is never reached

A session in which a manager has no cap on the bots that run at once, and never more than so many
of them in flight, goes the same way with that cap (`Fleet.unreached_cap_unseen`): a slot is free
whenever one is sought, for the slots that are taken are held by other launches in flight.

The registry is no measure of this. A bot whose name is not given when it is launched has a task
all the same and seeks a slot, but is not registered (`Fleet.not_registryBoundsCap_of_mute`).
-/

namespace Flotilla

/-- A plan with a cap. -/
def ManagerPlan.withCap (cap : Nat) (p : ManagerPlan) : ManagerPlan :=
  { p with settings := { p.settings with maxConcurrent := cap } }

/-- The plans of managers, one of which is given a cap. -/
def capAt (m cap : Nat) (managers : List ManagerPlan) : List ManagerPlan :=
  managers.modify m (.withCap cap)

namespace Fleet

variable {m cap : Nat} {f g : Fleet} {managers : List ManagerPlan} {bots : List BotPlan}

/-! ## A free slot -/

/-- Where the slots add up, one is free for a launch that seeks it, if there are as many slots as
launches in flight. -/
theorem hasRoom (capped : f.Capped m cap g) (conserved : (g.view m).Conserved cap)
    (within : (f.manager m).inFlight ≤ cap) : Capped.HasRoom m f g := by
  intro id _ stage
  obtain ⟨p, slots, total⟩ := conserved
  refine ⟨p, slots, ?_⟩
  have launches : (g.view m).mgr.launches = (f.manager m).launches := capped.accords.launches m
  have seated : (g.view m).stages.countP Stage.isSeated =
      (f.manager m).launches.countP fun l => l.stage.isSeated := by
    rw [View.stages, launches, List.countP_map]
    rfl
  have split : (f.manager m).inFlight = ((f.manager m).launches.countP fun l => l.stage.isSeated) +
      (f.manager m).launches.countP fun l => l.stage.isWaitingForSlot :=
    countP_add fun l _ => by cases l.stage <;> rfl
  -- The launch whose turn it is is in flight and has no slot.
  have seeks : 0 < (f.manager m).launches.countP fun l => l.stage.isWaitingForSlot := by
    unfold Fleet.launch at stage
    rw [List.getD_eq_getElem?_getD] at stage
    cases found : (f.manager m).launches[id]? with
    | none =>
        rw [found] at stage
        cases stage
    | some l =>
        rw [found, Option.getD_some] at stage
        exact List.countP_pos_iff.mpr ⟨l, List.mem_of_getElem? found, by rw [stage]; rfl⟩
  omega

/-! ## Runs -/

theorem capped_build (cap : Nat) {p : ManagerPlan} (uncapped : p.settings.maxConcurrent = 0)
    (pos : 1 ≤ cap) : p.build.Capped cap (p.withCap cap).build where
  rest := rfl
  uncapped := uncapped
  unlimited := by
    show p.settings.limit.map _ = none
    rw [(Settings.limit_eq_none_iff _).mpr uncapped]
    rfl
  idle := by
    refine ⟨{ free := cap }, ?_, rfl⟩
    have limit : (p.withCap cap).settings.limit = some (p.withCap cap).settings.maxConcurrent :=
      limit_of_pos pos
    show (p.withCap cap).settings.limit.map _ = _
    rw [limit]
    rfl

theorem tasks_capAt (m cap : Nat) (managers : List ManagerPlan) :
    ((capAt m cap managers).zipIdx.flatMap fun x => x.1.tasks x.2) =
      managers.zipIdx.flatMap fun x => x.1.tasks x.2 := by
  have each : ((capAt m cap managers).zipIdx.map fun x => x.1.tasks x.2) =
      managers.zipIdx.map fun x => x.1.tasks x.2 := by
    refine List.ext_getElem? fun i => ?_
    simp only [capAt, List.getElem?_map, List.getElem?_zipIdx, List.getElem?_modify]
    cases managers[i]? with
    | none => rfl
    | some p => by_cases here : m = i <;> simp [here, ManagerPlan.withCap, ManagerPlan.tasks]
  rw [List.flatMap_def, List.flatMap_def, each]

theorem capped_raw (has : m < managers.length) (uncapped : managers[m].settings.maxConcurrent = 0)
    (pos : 1 ≤ cap) (bots : List BotPlan) :
    (raw managers bots).Capped m cap (raw (capAt m cap managers) bots) := by
  have built : Fleet.Capped m cap
      { managers := managers.map ManagerPlan.build, bots := bots.map BotPlan.build }
      { managers := (capAt m cap managers).map ManagerPlan.build
        bots := bots.map BotPlan.build } := by
    refine ⟨?_, fun m' ne => ?_, ?_, rfl, rfl, rfl, rfl, rfl, rfl, rfl, .nil⟩
    · simp only [manager, List.getD_eq_getElem?_getD, List.getElem?_map, capAt,
        List.getElem?_modify_eq, List.getElem?_eq_getElem has, Option.map_some, Option.getD_some]
      exact capped_build cap uncapped pos
    · simp [manager, List.getElem?_map, capAt, ne.symm]
    · simp [capAt]
  unfold raw
  rw [tasks_capAt]
  exact built.wakeAll _

/-- A manager that can be built can be built with a cap. -/
theorem all_isPossible_capAt (has : m < managers.length)
    (uncapped : managers[m].settings.maxConcurrent = 0) (possible : cap ≤ Settings.largestLimit) :
    (capAt m cap managers).all ManagerPlan.isPossible = managers.all ManagerPlan.isPossible := by
  have each : (capAt m cap managers).map ManagerPlan.isPossible =
      managers.map ManagerPlan.isPossible := by
    refine List.ext_getElem? fun i => ?_
    simp only [capAt, List.getElem?_map, List.getElem?_modify]
    by_cases here : m = i
    · subst here
      have same : (managers[m].withCap cap).isPossible = managers[m].isPossible := by
        simp only [ManagerPlan.withCap, ManagerPlan.isPossible, Settings.busCapacityClamped,
          uncapped, possible, Nat.zero_le, decide_true]
        rfl
      simp [has, same]
    · simp [here]
  have flags (ps : List ManagerPlan) :
      ps.all ManagerPlan.isPossible = (ps.map ManagerPlan.isPossible).all id := by
    rw [List.all_map]
    rfl
  rw [flags, flags, each]

/-- Move by move the two runs go the same way. -/
theorem capped_play (has : m < managers.length)
    (uncapped : managers[m].settings.maxConcurrent = 0) (pos : 1 ≤ cap) {ms : List Move}
    (within : Throughout (fun f => (f.manager m).inFlight ≤ cap) (raw managers bots) ms) :
    ((raw managers bots).play ms).Capped m cap ((raw (capAt m cap managers) bots).play ms) := by
  have has' : m < (capAt m cap managers).length := by
    rw [capAt, List.length_modify]
    exact has
  have limit : (capAt m cap managers)[m].settings.limit = some cap := by
    simp only [capAt, List.getElem_modify_eq]
    exact limit_of_pos pos
  induction ms using List.reverseRecOn with
  | nil => exact capped_raw has uncapped pos bots
  | append_singleton ms mv ih =>
      obtain ⟨before, -⟩ := throughout_append_iff.mp within
      have capped := ih before
      rw [play_append, play_append]
      exact capped.move fun _ => hasRoom capped (conserved_play has' limit bots ms) before.last

theorem beside_play (has : m < managers.length)
    (uncapped : managers[m].settings.maxConcurrent = 0) (pos : 1 ≤ cap) {ms ms' : List Move}
    (within : Throughout (fun f => (f.manager m).inFlight ≤ cap) (raw managers bots) (ms ++ ms')) :
    Beside (Fleet.Capped m cap) ((raw managers bots).play ms)
      ((raw (capAt m cap managers) bots).play ms) ms' := by
  intro pre short
  rw [← play_append, ← play_append]
  refine capped_play has uncapped pos fun pre' short' => within pre' (short'.trans ?_)
  exact (List.prefix_append_right_inj ms).mpr short

/-! ## Commands -/

/-- Two answers that are the same, but each may tell the cap there is. -/
inductive Answer.Capped (cap : Nat) : Answer → Answer → Prop
  | same (a : Answer) : Capped cap a a
  | reply {r r' : Reply} (told : r.Capped cap r') : Capped cap (.reply r) (.reply r')

/-- What is shown of two fleets after a command, which is the same but for the caps told. -/
structure Report.Capped (cap : Nat) (x y : Report) : Prop where
  answer : x.answer.Capped cap y.answer
  managers : y.managers = x.managers
  notes : List.Forall₂ (Note.Capped cap) x.notes y.notes
  waits : y.waits = x.waits
  logs : y.logs = x.logs

namespace Capped

theorem sameTimes (capped : f.Capped m cap g) : f.SameTimes g :=
  ⟨capped.clock, capped.timers, capped.waits⟩

theorem compareHandles (capped : f.Capped m cap g) (a b : Nat × Nat) :
    g.compareHandles a b = f.compareHandles a b := by
  have handleAt (place : Nat × Nat) : g.handleAt? place = f.handleAt? place := by
    rw [Fleet.handleAt?, capped.isHeld, capped.accords.handles]
    rfl
  rw [Fleet.compareHandles, handleAt, handleAt]
  rfl

theorem carryOut {c : Command} (beside : Beside (Fleet.Capped m cap) f g (f.movesOf c)) :
    (f.carryOut c).1.Capped m cap (g.carryOut c).1 ∧
      (f.carryOut c).2.Capped cap (g.carryOut c).2 := by
  have capped := beside.first
  have waits := WaitsInStep.capped m cap
  have here (w : Nat) : g.waits[w]? = f.waits[w]? := by rw [capped.waits]
  have same {x y : Fleet × Answer} (along : Alongside (Fleet.Capped m cap) x y) :
      x.2.Capped cap y.2 := by
    obtain ⟨f', g', answer, rfl, rfl, -⟩ := along
    exact .same answer
  refine ⟨?_, ?_⟩
  · rw [carryOut_eq_play, carryOut_eq_play, movesOf_eq sameTimes beside]
    exact beside.last
  cases c with
  | call c =>
      obtain ⟨f', g', r, r', eq, eq', told, -⟩ := capped.perform none c
      simp only [Fleet.carryOut, eq, eq']
      exact .reply told
  | wait m' poll cancelled => exact same (waits.spawnWait capped (capped.isHeld m') poll cancelled)
  | runUntilSignal m' => exact same (waits.spawnRun capped (capped.isHeld m'))
  | cancel w => exact same ((MarksInStep.capped m cap w).cancelWait capped (here w))
  | abort w => exact same ((MarksInStep.capped m cap w).abortWait capped (here w))
  | raise s =>
      have settled : f.settle.Capped m cap g.settle := by
        rw [settle_eq_play, settle_eq_play]
        exact beside.left.last
      have listens : g.settle.someoneListens = f.settle.someoneListens := by
        rw [Fleet.someoneListens, settled.waits]
        rfl
      simp only [Fleet.carryOut, Fleet.raise, listens]
      cases f.settle.someoneListens <;> exact .same _
  | compare a b =>
      simp only [Fleet.carryOut, capped.compareHandles]
      exact .same _
  | _ => exact .same _

theorem reportManager (capped : f.Capped m cap g) {x y : Manager}
    (same : x.Capped cap y ∨ y = x) : g.reportManager y = f.reportManager x := by
  have viewed : g.viewHandle = f.viewHandle := by
    funext h
    unfold Fleet.viewHandle
    rw [capped.bot]
  have view : g.viewManager = f.viewManager := by
    funext z
    rw [Fleet.viewManager, viewed]
    rfl
  rcases same with same | rfl
  · rw [same.rest, Fleet.reportManager, Fleet.reportManager, view]
    rfl
  · rw [Fleet.reportManager, Fleet.reportManager, view]

theorem reports (capped : f.Capped m cap g) :
    g.managers.map g.reportManager = f.managers.map f.reportManager := by
  refine List.ext_getElem (by simp [capped.count]) fun i inside' inside => ?_
  rw [List.length_map] at inside inside'
  rw [List.getElem_map, List.getElem_map]
  have there := capped.manager_cases i
  simp only [manager, List.getD_eq_getElem?_getD, List.getElem?_eq_getElem inside,
    List.getElem?_eq_getElem inside', Option.getD_some] at there
  exact capped.reportManager (there.imp And.right And.right)

theorem observe {c : Command}
    (beside : Beside (Fleet.Capped m cap) f g (f.movesOf c ++ [.look])) :
    (f.observe c).1.Capped m cap (g.observe c).1 ∧
      (f.observe c).2.Capped cap (g.observe c).2 := by
  have before := beside.first
  obtain ⟨carried, answer⟩ := carryOut beside.left
  refine ⟨carried.look, answer, carried.reports, ?_, ?_, ?_⟩
  · show List.Forall₂ _
      ((f.carryOut c).1.notes.extract f.notes.size (f.carryOut c).1.notes.size).toList
      ((g.carryOut c).1.notes.extract g.notes.size (g.carryOut c).1.notes.size).toList
    rw [size_eq_of_forall₂ before.notes, size_eq_of_forall₂ carried.notes]
    exact forall₂_extract carried.notes _ _
  · exact congrArg (·.map waitResult?) carried.waits
  · show ((g.carryOut c).1.logs.extract g.logs.size (g.carryOut c).1.logs.size).toList =
      ((f.carryOut c).1.logs.extract f.logs.size (f.carryOut c).1.logs.size).toList
    rw [before.logs, carried.logs]

theorem observeAll {cs : List Command}
    (beside : Beside (Fleet.Capped m cap) f g (f.sessionMoves cs)) :
    (f.observeAll cs).1.Capped m cap (g.observeAll cs).1 ∧
      List.Forall₂ (Report.Capped cap) (f.observeAll cs).2 (g.observeAll cs).2 := by
  induction cs generalizing f g with
  | nil => exact ⟨beside.first, .nil⟩
  | cons c cs ih =>
      unfold sessionMoves at beside
      rw [List.append_cons] at beside
      have later := beside.right
      obtain ⟨-, report⟩ := observe beside.left
      rw [← observe_eq_play, ← movesOf_eq sameTimes beside.left.left, ← observe_eq_play] at later
      obtain ⟨rest, reports⟩ := ih later
      exact ⟨rest, .cons report reports⟩

end Capped

/-! ## Sessions -/

/-- The moves of a session with a fleet that is built first. -/
def movesOfRun (managers : List ManagerPlan) (bots : List BotPlan) (commands : List Command) :
    List Move :=
  settling ++ (build managers bots).sessionMoves commands

/-- What two sessions show and leave behind is the same, but for the cap told to who asks. -/
structure SameButCap (cap : Nat) (x y : Fleet × List Report) : Prop where
  reports : List.Forall₂ (Report.Capped cap) x.2 y.2
  tallies : y.1.bots.map tally = x.1.bots.map tally
  buses : ∀ m, (y.1.manager m).bus = (x.1.manager m).bus
  logs : y.1.logs = x.1.logs

/-- A cap on the bots of a manager that run at once is not seen where never more of them are in
flight. -/
theorem unreached_cap_unseen (has : m < managers.length)
    (uncapped : managers[m].settings.maxConcurrent = 0) (pos : 1 ≤ cap)
    (possible : cap ≤ Settings.largestLimit) {commands : List Command}
    (within : Throughout (fun f => (f.manager m).inFlight ≤ cap) (raw managers bots)
      (movesOfRun managers bots commands)) :
    (capAt m cap managers).all ManagerPlan.isPossible = managers.all ManagerPlan.isPossible ∧
      SameButCap cap ((build managers bots).observeAll commands)
        ((build (capAt m cap managers) bots).observeAll commands) := by
  refine ⟨all_isPossible_capAt has uncapped possible, ?_⟩
  · have beside : Beside (Fleet.Capped m cap) (build managers bots)
        (build (capAt m cap managers) bots) ((build managers bots).sessionMoves commands) := by
      have played := beside_play has uncapped pos within
      rw [← settle_eq_play, ← settle_eq_play] at played
      exact played
    obtain ⟨capped, reports⟩ := Capped.observeAll beside
    exact ⟨reports, by rw [capped.bots], capped.bus, capped.logs⟩

end Fleet

namespace Sample

/-- A manager without a cap. -/
def uncapped : List ManagerPlan := [{ settings := {}, number := 0, subscribers := [] }]

/-- A bot whose run ends at once. -/
def brief : BotPlan := { bot true with plan := { (bot true).plan with waits := false } }

/-- A second bot is launched when the first is done. -/
def oneAtATime : List Fleet.Command :=
  [.call (.start 0), .call (.add 0 0), .settle, .call (.add 0 1), .settle]

/-- Two bots are launched, of which the second does not give its name. -/
def muteAtLaunch : List Fleet.Command :=
  [.call (.add 0 0), .call (.add 0 1), .arm 1 .name, .call (.start 0), .settle]

end Sample

namespace Fleet

theorem unreached_cap_unseen_of_one :
    Throughout (fun f => (f.manager 0).inFlight ≤ 1)
        (raw Sample.uncapped [Sample.brief, Sample.brief])
        (movesOfRun Sample.uncapped [Sample.brief, Sample.brief] Sample.oneAtATime) ∧
      SameButCap 1
        ((build Sample.uncapped [Sample.brief, Sample.brief]).observeAll Sample.oneAtATime)
        ((build (capAt 0 1 Sample.uncapped) [Sample.brief, Sample.brief]).observeAll
          Sample.oneAtATime) := by
  have within : Throughout (fun f => (f.manager 0).inFlight ≤ 1)
      (raw Sample.uncapped [Sample.brief, Sample.brief])
      (movesOfRun Sample.uncapped [Sample.brief, Sample.brief] Sample.oneAtATime) := by
    have moves : movesOfRun Sample.uncapped [Sample.brief, Sample.brief] Sample.oneAtATime =
        settling ++ ([.call (.start 0), .look, .call (.add 0 0), .look] ++
          (settling ++ ([.look, .call (.add 0 1), .look] ++ (settling ++ [.look])))) :=
      rfl
    rw [moves]
    refine throughout_settling 0 (by decide) ?_ ?_ (throughout_append_iff.mpr ⟨?_, ?_⟩)
    on_goal 4 => refine throughout_settling 3 (by decide) ?_ ?_ (throughout_append_iff.mpr ⟨?_, ?_⟩)
    on_goal 7 => refine throughout_settling 3 (by decide) ?_ ?_ ?_
    all_goals decide +kernel
  exact ⟨within, (unreached_cap_unseen (by decide) rfl (Nat.le_refl 1) (by decide) within).2⟩

theorem not_registryBoundsCap_of_mute :
    Throughout (fun f => (f.manager 0).registry.length ≤ 1)
        (raw Sample.uncapped [Sample.bot true, Sample.bot true])
        (movesOfRun Sample.uncapped [Sample.bot true, Sample.bot true] Sample.muteAtLaunch) ∧
      ¬ SameButCap 1
        ((build Sample.uncapped [Sample.bot true, Sample.bot true]).observeAll Sample.muteAtLaunch)
        ((build (capAt 0 1 Sample.uncapped) [Sample.bot true, Sample.bot true]).observeAll
          Sample.muteAtLaunch) := by
  refine ⟨?_, fun same => ?_⟩
  · have moves : movesOfRun Sample.uncapped [Sample.bot true, Sample.bot true] Sample.muteAtLaunch =
        settling ++ ([.call (.add 0 0), .look, .call (.add 0 1), .look, .arm 1 .name, .look,
          .call (.start 0), .look] ++ (settling ++ [.look])) :=
      rfl
    rw [moves]
    refine throughout_settling 0 (by decide) ?_ ?_ (throughout_append_iff.mpr ⟨?_, ?_⟩)
    on_goal 4 => refine throughout_settling 5 (by decide) ?_ ?_ ?_
    all_goals decide +kernel
  · have inFlight := map_eq_of_forall₂ same.reports fun x y report =>
      congrArg (fun ms : List ManagerReport => ms.map fun r => r.view.map ManagerView.inFlight)
        report.managers
    revert inFlight
    decide +kernel

end Fleet

end Flotilla
