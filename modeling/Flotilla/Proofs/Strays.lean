import Flotilla.Proofs.Accounts
import Flotilla.Proofs.Endings

/-!
# Nobody is completed who is not registered

A launch that is completed leaves the registry, and the log says so if it was not in it.
Neither calls nor those who wait have this logged (`Fleet.MovesInStep.quiet`), and the turn of a
launch that is registered does not either (`Fleet.quiet_stepBot`). Where every bot that is launched
gives its name the launches whose tasks go on are registered, so it is never logged
(`Fleet.quiet_play`).
-/

namespace Flotilla.Fleet

/-- The log says of no launch that it was completed and was not registered. -/
def Quiet (f : Fleet) : Prop := ∀ line ∈ f.logs, line.message ≠ strayLine

/-- The log is quiet and a launch is registered. -/
structure OnRecord (f : Fleet) (r : RunName) : Prop where
  quiet : f.Quiet
  registered : (f.launch r).registered = true

variable {f g : Fleet} {m b : Nat} {r : RunName} {t : Task} {mv : Move}

theorem Quiet.of_logs (quiet : f.Quiet) (logs : g.logs = f.logs) : g.Quiet :=
  fun line mem => quiet line (logs ▸ mem)

theorem Quiet.push (quiet : f.Quiet) {line : LogLine} (calm : line.message ≠ strayLine)
    (logs : g.logs = f.logs.push line) : g.Quiet := by
  intro line' mem
  rw [logs, Array.mem_push] at mem
  rcases mem with mem | rfl
  · exact quiet line' mem
  · exact calm

/-! ## Calls and those who wait -/

theorem Lockstep.quiet : Lockstep (Both Quiet) where
  accords same := same.1 ▸ (Agrees.refl _).toAccords
  slotWaiters same m := by rw [same.1]
  manager same _ m := ⟨by rw [same.1], same.2⟩
  bot same _ b := ⟨by rw [same.1], same.2⟩
  ending same b ending := ⟨by rw [same.1], same.2⟩
  dismissal same _ := ⟨by rw [same.1], same.2⟩
  wake same _ := ⟨by rw [same.1], same.2⟩
  say same _ _ _ _ calm := ⟨by rw [same.1], same.2.push calm rfl⟩
  publish {f _ e} same _ m := ⟨by rw [same.1], same.2.of_logs (logs_publishAll f m [e])⟩

theorem logs_wakeListener (f : Fleet) (m : Nat) : (f.wakeListener m).logs = f.logs := by
  unfold wakeListener
  split <;> rfl

theorem WaitsInStep.quiet : WaitsInStep (Both Quiet) where
  toLockstep := .quiet
  number same := by rw [same.1]
  spawn same _ _ := ⟨by rw [same.1], same.2⟩
  dropTimer same _ := ⟨by rw [same.1], same.2⟩
  addTimer same _ := ⟨by rw [same.1], same.2⟩
  clock same _ := ⟨by rw [same.1], same.2⟩
  leave same m := by
    obtain ⟨rfl, quiet⟩ := same
    split
    · exact ⟨rfl, quiet⟩
    · exact ⟨rfl, quiet.of_logs (logs_wakeListener _ m)⟩

theorem MovesInStep.quiet : MovesInStep (Both Quiet) where
  toWaitsInStep := .quiet
  agrees same := same.1 ▸ .refl _
  marks _ := { WaitsInStep.quiet with modifyWait := fun same _ _ => ⟨by rw [same.1], same.2⟩ }
  disown same _ := ⟨by rw [same.1], same.2⟩

theorem WaiterInStep.quiet (w : Nat) : WaiterInStep (Both Quiet) w :=
  { MovesInStep.quiet.marks w with
    park := fun same => ⟨by rw [same.1], same.2⟩
    wait := fun same => by rw [same.1]
    time := fun same => by rw [same.1] }

/-! ## The turn of a launch -/

theorem registered_modifyLaunch {h : Launch → Launch}
    (keeps : ∀ l, (h l).registered = l.registered) (f : Fleet) (m id : Nat) (r : RunName) :
    ((f.modifyManager m fun mgr => mgr.modifyLaunch id h).launch r).registered =
      (f.launch r).registered := by
  rcases manager_modifyManager_or f m r.manager (fun mgr => mgr.modifyLaunch id h) with
    same | ⟨-, changed⟩
  · rw [launch, same]
    rfl
  · rw [launch, changed]
    show (((f.manager r.manager).launches.modify id h).getD r.id default).registered =
      ((f.manager r.manager).launches.getD r.id default).registered
    rw [List.getD_eq_getElem?_getD, List.getD_eq_getElem?_getD, List.getElem?_modify]
    cases (f.manager r.manager).launches[r.id]? with
    | none => rfl
    | some l => by_cases same : id = r.id <;> simp [same, keeps]

theorem launch_modifyManager {h : Manager → Manager}
    (keeps : ∀ mgr, (h mgr).launches = mgr.launches) (f : Fleet) (m : Nat) (r : RunName) :
    (f.modifyManager m h).launch r = f.launch r := by
  rcases manager_modifyManager_or f m r.manager h with same | ⟨-, changed⟩
  · rw [launch, same]
    rfl
  · rw [launch, changed, keeps]
    rfl

theorem launch_publish (f : Fleet) (m : Nat) (e : Event) (r : RunName) :
    (f.publish m e).launch r = f.launch r := by
  have told := launch_modifyManager (h := fun mgr => { mgr with bus := mgr.bus.publish e })
    (fun _ => rfl) f m r
  unfold publish wakeListener
  split
  · refine (launch_modifyManager (fun _ => ?_) _ m r).trans told
    rfl
  · exact told

namespace OnRecord

variable (on : f.OnRecord r)

include on

theorem of_eq (logs : g.logs = f.logs)
    (registered : (g.launch r).registered = (f.launch r).registered) : g.OnRecord r :=
  ⟨on.quiet.of_logs logs, registered.trans on.registered⟩

theorem setStage (r' : RunName) (stage : Stage) : (f.setStage r' stage).OnRecord r :=
  on.of_eq rfl (registered_modifyLaunch (h := fun l => { l with stage }) (fun _ => rfl) f _ _ r)

theorem setSlots (m : Nat) (slots : Manager → Option (Permits Nat)) :
    (f.modifyManager m fun mgr => { mgr with slots := slots mgr }).OnRecord r :=
  on.of_eq rfl (congrArg Launch.registered
    (launch_modifyManager (h := fun mgr => { mgr with slots := slots mgr }) (fun _ => rfl) f m r))

theorem wake (t : Task) : (f.wake t).OnRecord r := on.of_eq rfl rfl

theorem modifyBot (b : Nat) (h : Bot → Bot) : (f.modifyBot b h).OnRecord r := on.of_eq rfl rfl

theorem releaseSlot (m : Nat) : (f.releaseSlot m).OnRecord r := by
  unfold Fleet.releaseSlot
  split
  · exact on
  · split
    · exact on.setSlots m fun _ => _
    · exact ((on.setSlots m fun _ => _).setStage _ _).wake _

theorem addPermit (b : Nat) : (f.addPermit b).OnRecord r := by
  unfold Fleet.addPermit
  split
  · exact on.modifyBot b _
  · exact ((on.modifyBot b _).setStage _ _).wake _

theorem dismiss (b : Nat) : (f.dismiss b).OnRecord r := by
  unfold Fleet.dismiss
  dsimp only
  split <;> exact on.of_eq rfl rfl

end OnRecord

theorem quiet_endTask (quiet : f.Quiet) (r : RunName) : (f.endTask r).Quiet := by
  unfold endTask
  dsimp only
  split <;> exact quiet

/-- A launch that is registered is found in the registry when it is completed. -/
theorem OnRecord.complete (on : f.OnRecord r) (outcome : RunOutcome) :
    (f.complete r outcome).Quiet := by
  unfold Fleet.complete
  split
  · exact quiet_endTask on.quiet r
  · rename_i name answered
    dsimp only
    have said : (f.sayOutcome r.id name outcome).OnRecord r := by
      rw [sayOutcome_eq]
      refine ⟨on.quiet.push ?_ rfl, on.registered⟩
      cases outcome <;> simp [outcomeLine, strayLine]
    have same : Both Quiet (f.sayOutcome r.id name outcome) (f.sayOutcome r.id name outcome) :=
      ⟨rfl, said.quiet⟩
    have told := Lockstep.quiet.publish same
      (e := outcomeEvent r.id name outcome) (by cases outcome <;> rfl) r.manager
    have registered : (((f.sayOutcome r.id name outcome).publish r.manager
        (outcomeEvent r.id name outcome)).launch r).registered = true := by
      rw [launch_publish]
      exact said.registered
    refine quiet_endTask ?_ r
    unfold unregister
    rw [if_pos registered]
    have left := Lockstep.quiet.manager told (Manager.plain_modifyLaunch r.id
      (g := fun l => { l with registered := false }) fun _ => rfl) r.manager
    have removed := Lockstep.quiet.publish left (e := .botRemoved r.id name) rfl r.manager
    exact (Lockstep.quiet.terminateIfEmpty removed r.manager none).2

theorem OnRecord.finishRun (on : f.OnRecord r) : (f.finishRun r).Quiet :=
  ((on.modifyBot _ _).releaseSlot _).complete _

theorem OnRecord.awaitPermit (on : f.OnRecord r) (heedsQuit : Bool) :
    (f.awaitPermit r heedsQuit).Quiet := by
  unfold Fleet.awaitPermit
  dsimp only
  split
  · exact (on.modifyBot _ _).finishRun
  · exact on.quiet

theorem OnRecord.quitRun (on : f.OnRecord r) : (f.quitRun r).Quiet :=
  (on.dismiss _).awaitPermit false

theorem OnRecord.afterCalls (on : f.OnRecord r) : (f.afterCalls r).Quiet := by
  unfold Fleet.afterCalls
  dsimp only
  split
  · split
    · exact on.quitRun
    · exact on.awaitPermit _
  · exact on.finishRun

theorem OnRecord.enterRun (on : f.OnRecord r) : (f.enterRun r).Quiet := by
  unfold Fleet.enterRun
  dsimp only
  split
  · exact (on.modifyBot _ _).finishRun
  · exact on.quiet

theorem OnRecord.beginRun (on : f.OnRecord r) : (f.beginRun r).Quiet := by
  unfold Fleet.beginRun
  split
  · have admitted : (f.modifyManager r.manager fun m =>
        m.modifyLaunch r.id fun l => { l with admitted := true }).OnRecord r :=
      on.of_eq rfl (registered_modifyLaunch (h := fun l => { l with admitted := true })
        (fun _ => rfl) f _ _ r)
    generalize (f.modifyManager r.manager fun m =>
      m.modifyLaunch r.id fun l => { l with admitted := true }) = g at admitted ⊢
    dsimp only
    split
    · exact quiet_endTask (admitted.releaseSlot _).quiet r
    · exact admitted.enterRun
  · exact (on.releaseSlot _).complete _

theorem OnRecord.seekSlot (on : f.OnRecord r) : (f.seekSlot r).Quiet := by
  unfold Fleet.seekSlot
  dsimp only
  split
  · exact on.complete _
  · split
    · exact on.beginRun
    · split
      · exact (on.setSlots _ fun _ => _).beginRun
      · exact on.quiet

theorem OnRecord.resumePermitted (on : f.OnRecord r) (heedsQuit : Bool) :
    (f.resumePermitted r heedsQuit).Quiet := by
  have go {g : Fleet} (on : g.OnRecord r) (asked : Bool) (b : Nat) :
      (if asked then (g.addPermit b).quitRun r else g.finishRun r).Quiet := by
    split
    · exact (on.addPermit b).quitRun
    · exact on.finishRun
  unfold Fleet.resumePermitted
  cases heedsQuit with
  | false => exact go on _ _
  | true => exact go (on.modifyBot _ _) _ _

theorem OnRecord.resumeWaiting (on : f.OnRecord r) (heedsQuit : Bool) :
    (f.resumeWaiting r heedsQuit).Quiet := by
  unfold Fleet.resumeWaiting
  dsimp only
  split
  · exact (on.modifyBot _ _).quitRun
  · exact on.quiet

/-- The turn of a launch that is registered, unless its task is over, keeps the log quiet. -/
theorem quiet_stepBot (quiet : f.Quiet)
    (registered : (f.launch r).stage ≠ .over → (f.launch r).registered = true) :
    (f.stepBot r).Quiet := by
  have on (goesOn : (f.launch r).stage ≠ .over) : f.OnRecord r := ⟨quiet, registered goesOn⟩
  unfold stepBot
  split
  · rename_i stage
    exact (on (by rw [stage]; nofun)).seekSlot
  · rename_i stage
    split
    · exact ((on (by rw [stage]; nofun)).setSlots _ _).complete _
    · exact quiet
  · rename_i stage
    have on := on (by rw [stage]; nofun)
    split
    · exact (on.releaseSlot _).complete _
    · exact on.beginRun
  · rename_i c rest stage
    exact (Lockstep.quiet.perform_of_agrees ⟨rfl, quiet⟩ (.refl f) _ c).fleets.2
  · rename_i stage
    exact (on (by rw [stage]; nofun)).afterCalls
  · rename_i stage
    exact (on (by rw [stage]; nofun)).resumeWaiting _
  · rename_i stage
    exact (on (by rw [stage]; nofun)).resumePermitted _
  · exact quiet

/-! ## Other turns and moves -/

theorem quiet_stepListener (quiet : f.Quiet) (m : Nat) : (f.stepListener m).Quiet := by
  unfold stepListener
  split
  · exact quiet
  · rename_i relay _
    split
    · rcases (f.manager m).bus.read relay.reader with ⟨_ | n | _, reader⟩
      · exact quiet.of_logs
          (logs_publishAll (((f.modifyRelay m _).modifyRelay m _).wakeAll _) m _)
      · refine quiet.push ?_ rfl
        show "subscriber listener lagged behind the bus" ≠ strayLine
        decide
      · dsimp only
        unfold listenerRests
        split <;> exact quiet
    all_goals exact quiet

theorem quiet_stepWorker (quiet : f.Quiet) (m i : Nat) : (f.stepWorker m i).Quiet := by
  unfold stepWorker
  split
  · exact quiet
  · rename_i relay _
    rcases relay.fanout.work i with ⟨fanout, report, pace⟩
    have told := quiet.of_logs (logs_publishAll (f.modifyRelay m fun r => { r with fanout }) m
      report.toList)
    dsimp only
    cases pace with
    | again | waits => exact told
    | «over» =>
        unfold workerGone
        dsimp only
        split <;> exact told

theorem quiet_stepTask (quiet : f.Quiet) (registered : ∀ r, t = .bot r →
      (f.launch r).stage ≠ .over → (f.launch r).registered = true) : (f.stepTask t).Quiet := by
  cases t with
  | bot r => exact quiet_stepBot quiet (registered r rfl)
  | wait w => exact ((WaiterInStep.quiet w).stepWait ⟨rfl, quiet⟩).2
  | listener m => exact quiet_stepListener quiet m
  | worker m i => exact quiet_stepWorker quiet m i
  | dismissal =>
      show f.stepDismissal.Quiet
      have given {g : Fleet} (quiet : g.Quiet) (bots : List Nat) : (g.addPermits bots).Quiet :=
        (Lockstep.quiet.addPermits ⟨rfl, quiet⟩ bots).2
      unfold stepDismissal
      dsimp only
      split
      · exact quiet
      · exact quiet
      · split
        · exact given (g := { f with dismissal := { stage := .deferred } }) quiet _
        · exact given (g := { f with dismissal := {} }) quiet _

theorem quiet_move (quiet : f.Quiet) (registered : ∀ r, f.tasks.running = some (.bot r) →
      (f.launch r).stage ≠ .over → (f.launch r).registered = true) (mv : Move) :
    (f.move mv).Quiet := by
  by_cases apart : mv.isApart = true
  · exact (MovesInStep.quiet.move ⟨rfl, quiet⟩ apart).2
  · cases mv with
    | release m i times =>
        show (f.releaseSubscriber m i times).Quiet
        unfold releaseSubscriber
        split
        · exact quiet
        · dsimp only
          split <;> exact quiet
    | look => exact quiet
    | turn =>
        rcases turn_cases f with ⟨t, turn, eq⟩ | ⟨-, eq | ⟨tasks, -, eq⟩⟩
        · rw [eq]
          refine quiet_stepTask quiet fun r is => registered r ?_
          rw [turn, is]
        · rw [eq]
          exact quiet
        · rw [eq]
          exact quiet
    | _ => exact absurd rfl apart

/-! ## Runs -/

variable {managers : List ManagerPlan} {bots : List BotPlan} {ms : List Move}

/-- Where every bot that a manager launches gives its name, each is registered as long as its task
goes on. -/
theorem registered_of_goesOn {r : RunName} (answers : (raw managers bots).Answering r.manager ms)
    (goesOn : (((raw managers bots).play ms).launch r).stage ≠ .over) :
    (((raw managers bots).play ms).launch r).registered = true := by
  have found := found_of_stage rfl goesOn
  rw [(clear_play (has_play.mp (has_of_launch? found)) answers).accounted _ _ found]
  cases stage : (((raw managers bots).play ms).launch r).stage with
  | «over» => exact absurd stage goesOn
  | _ => rfl

/-- In a run in which every bot that is launched gives its name, the log never says that a launch
was completed and was not registered. -/
theorem quiet_play (answers : ∀ m, (raw managers bots).Answering m ms) :
    ((raw managers bots).play ms).Quiet := by
  induction ms using List.reverseRecOn with
  | nil => exact fun line mem => absurd mem (Array.not_mem_empty line)
  | append_singleton ms mv ih =>
      have before (m : Nat) : (raw managers bots).Answering m ms :=
        (answers m).mono (sound_raw managers bots) (List.prefix_append ms [mv])
      rw [play_append]
      exact quiet_move (ih before) (fun r _ => registered_of_goesOn (before r.manager)) mv

end Flotilla.Fleet
