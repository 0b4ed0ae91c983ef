import Flotilla.Proofs.Lockstep.Calls

/-!
# Runs in lockstep

Two fleets in lockstep stay so in every step of a launched bot's task. That a run ends on both
sides is all that matters: the slot is freed and the launch completed however it ends, and only
what is told of it shows the ending. Where a slot is sought or a call is made it takes more than
that the fleets accord, and this is left to be shown (`Fleet.RunsInStep.stepBot`).
-/

namespace Flotilla.Fleet

variable {R : Fleet → Fleet → Prop} {f g : Fleet} {r : RunName} {b : Nat}

/-! ## Who was launched -/

theorem prefix_bots_modifyManager {h : Manager → Manager} (bots : ∀ x, x.bots <+: (h x).bots)
    (f : Fleet) (m m' : Nat) :
    (f.manager m').bots <+: ((f.modifyManager m h).manager m').bots := by
  rcases manager_modifyManager_or f m m' h with same | changed
  · simp only [same, List.prefix_rfl]
  · rw [changed.2]
    exact bots _

theorem prefix_bots_wakeListener (f : Fleet) (m m' : Nat) :
    (f.manager m').bots <+: ((f.wakeListener m).manager m').bots := by
  unfold wakeListener
  split
  · exact prefix_bots_modifyManager (h := fun mgr => mgr.modifyRelay _)
      (fun _ => List.prefix_rfl) f m m'
  · exact List.prefix_rfl

theorem prefix_bots_publish (f : Fleet) (m : Nat) (e : Event) (m' : Nat) :
    (f.manager m').bots <+: ((f.publish m e).manager m').bots :=
  (prefix_bots_modifyManager (h := fun mgr => { mgr with bus := mgr.bus.publish e })
    (fun _ => List.prefix_rfl) f m m').trans (prefix_bots_wakeListener _ m m')

/-- The bots launched by every manager of a fleet are still so in another. -/
def KeepsBots (f g : Fleet) : Prop := ∀ m, (f.manager m).bots <+: (g.manager m).bots

/-- Calls forget no launch. -/
theorem Lockstep.keepsBots (f : Fleet) : Lockstep (Both f.KeepsBots) :=
  .ofKept
    (fun kept managers _ _ m => by
      unfold Fleet.manager
      rw [managers]
      exact kept m)
    (fun kept apart m m' => (kept m').trans (prefix_bots_modifyManager apart.bots _ m m'))
    (fun kept _ m => kept m)
    (fun kept _ m m' => (kept m').trans (prefix_bots_publish _ m _ m'))

theorem KeepsBots.refl (f : Fleet) : Both f.KeepsBots f f := ⟨rfl, fun _ => List.prefix_rfl⟩

theorem keepsBots_releaseSlot (f : Fleet) (m : Nat) : f.KeepsBots (f.releaseSlot m) :=
  ((Lockstep.keepsBots f).releaseSlot_of_slots (KeepsBots.refl f) rfl fun slots =>
    ⟨rfl, prefix_bots_modifyManager (Manager.apart_slots slots).bots f m⟩).2

/-- The launch behind a run was made, of this bot. -/
def Launched (f : Fleet) (r : RunName) (b : Nat) : Prop :=
  (f.manager r.manager).bots[r.id]? = some b

theorem Launched.kept (launched : f.Launched r b) (kept : f.KeepsBots g) : g.Launched r b := by
  obtain ⟨more, eq⟩ := kept r.manager
  unfold Launched at launched ⊢
  rw [← eq, List.getElem?_append_left (List.getElem?_eq_some_iff.mp launched).choose, launched]

theorem Launched.bot_eq (launched : f.Launched r b) : (f.launch r).bot = b := by
  unfold Launched Manager.bots at launched
  rw [List.getElem?_map] at launched
  obtain ⟨l, found, rfl⟩ := Option.map_eq_some_iff.mp launched
  rw [launch, List.getD_eq_getElem?_getD, found, Option.getD_some]

theorem launched_of_stage (goesOn : (f.launch r).stage ≠ .over) :
    f.Launched r (f.launch r).bot := by
  unfold Launched Manager.bots
  rw [List.getElem?_map]
  cases found : (f.manager r.manager).launches[r.id]? with
  | none =>
      rw [launch, List.getD_eq_getElem?_getD, found] at goesOn
      exact absurd rfl goesOn
  | some l =>
      rw [launch, List.getD_eq_getElem?_getD, found]
      rfl

/-! ## Completion -/

theorem ending_releaseSlot (f : Fleet) (m b : Nat) :
    ((f.releaseSlot m).bot b).ending = (f.bot b).ending := by
  unfold releaseSlot
  split
  · rfl
  · split <;> rfl

theorem ending_exit (f : Fleet) (b : Nat) :
    ((f.modifyBot b Bot.exit).bot b).ending = (f.bot b).ending := by
  rw [bot_modifyBot]
  split
  · exact Bot.apart_exit.ending _
  · rfl

namespace RunsInStep

variable (lock : RunsInStep R) (same : R f g)

include lock same

theorem endTask (r : RunName) : R (f.endTask r) (g.endTask r) := by
  unfold Fleet.endTask
  dsimp only
  have ended := lock.setStage same r .over
  rw [(lock.accords ended).isDrained]
  split
  · exact lock.park (lock.tellDrained ended _)
  · exact lock.park ended

theorem unregister (r : RunName) (name : String) :
    R (f.unregister r name) (g.unregister r name) := by
  unfold Fleet.unregister
  rw [(lock.accords same).launch]
  split
  · have left := lock.manager same (Manager.plain_modifyLaunch r.id
      (g := fun l => { l with registered := false }) fun _ => rfl) r.manager
    exact lock.terminateIfEmpty (lock.publish left rfl r.manager) r.manager none
  · exact lock.stray same _

theorem complete_notStarted (r : RunName) :
    R (f.complete r .notStarted) (g.complete r .notStarted) := by
  unfold Fleet.complete
  rw [(lock.accords same).launch, (lock.accords same).askName]
  split
  · exact lock.endTask same r
  · refine lock.endTask (lock.unregister (lock.publish ?_ rfl r.manager) r _) r
    exact lock.say same _ _ _ _ (by decide)

/-- A launch is completed on both sides, each as the run of its bot ended. -/
theorem complete_run (launched : f.Launched r b) :
    R (f.complete r (.ofEnding (f.bot b).ending)) (g.complete r (.ofEnding (g.bot b).ending)) := by
  unfold Fleet.complete
  rw [(lock.accords same).launch, (lock.accords same).askName, launched.bot_eq]
  cases named : f.askName b with
  | error text => exact lock.endTask same r
  | ok name =>
      exact lock.endTask (lock.unregister (lock.outcome same launched named) r name) r

/-! ## The end of a run -/

theorem finishRun (launched : f.Launched r b) : R (f.finishRun r) (g.finishRun r) := by
  unfold Fleet.finishRun
  dsimp only
  rw [(lock.accords same).launch, launched.bot_eq]
  have freed := lock.releaseSlot (lock.bot same Bot.apart_exit b) r.manager
  have kept := (Lockstep.keepsBots f).bot (KeepsBots.refl f) Bot.apart_exit b
  have completed := lock.complete_run freed
    ((launched.kept kept.2).kept (keepsBots_releaseSlot _ r.manager))
  rw [ending_releaseSlot, ending_exit, ending_releaseSlot, ending_exit] at completed
  exact completed

theorem awaitPermit (launched : f.Launched r b) (heedsQuit : Bool) :
    R (f.awaitPermit r heedsQuit) (g.awaitPermit r heedsQuit) := by
  unfold Fleet.awaitPermit
  dsimp only
  rw [(lock.accords same).launch, launched.bot_eq, (lock.accords same).permits]
  rcases (f.bot b).permits.acquire r with ⟨permits, _ | _⟩
  · have waits := lock.bot same
      (h := fun bot => { bot with
        permits
        liveness := if heedsQuit then bot.liveness.watch r else bot.liveness })
      ⟨fun _ _ => rfl, fun _ => rfl⟩ b
    exact lock.park (lock.setStage waits r _)
  · have takes : Bot.Apart fun bot => { bot with permits } := ⟨fun _ _ => rfl, fun _ => rfl⟩
    have kept := (Lockstep.keepsBots f).bot (KeepsBots.refl f) takes b
    exact lock.finishRun (lock.bot same takes b) (launched.kept kept.2)

theorem quitRun (launched : f.Launched r b) : R (f.quitRun r) (g.quitRun r) := by
  unfold Fleet.quitRun
  rw [(lock.accords same).launch, launched.bot_eq]
  have kept := (Lockstep.keepsBots f).dismiss (KeepsBots.refl f) b
  exact lock.awaitPermit (lock.dismiss same b) (launched.kept kept.2) false

/-! ## The steps of a run -/

theorem afterCalls (launched : f.Launched r b) : R (f.afterCalls r) (g.afterCalls r) := by
  unfold Fleet.afterCalls
  dsimp only
  rw [(lock.accords same).launch, launched.bot_eq, (lock.accords same).plan,
    (lock.accords same).isClosure, (lock.accords same).liveness]
  split
  · split
    · exact lock.quitRun same launched
    · exact lock.awaitPermit same launched _
  · exact lock.finishRun same launched

theorem enterRun (launched : f.Launched r b) : R (f.enterRun r) (g.enterRun r) := by
  unfold Fleet.enterRun
  dsimp only
  rw [(lock.accords same).launch, launched.bot_eq, (lock.accords same).eager,
    (lock.accords same).plan]
  have entered := lock.bot same Bot.apart_enter b
  have kept := (Lockstep.keepsBots f).bot (KeepsBots.refl f) Bot.apart_enter b
  split
  · exact lock.finishRun entered (launched.kept kept.2)
  · have counted := lock.bot entered (h := fun bot => { bot with runs := bot.runs + 1 })
      ⟨fun _ _ => rfl, fun _ => rfl⟩ b
    rw [(lock.accords counted).spanOf]
    exact lock.setStage (lock.note counted _) r _

theorem beginRun (launched : f.Launched r b) : R (f.beginRun r) (g.beginRun r) := by
  unfold Fleet.beginRun
  rw [(lock.accords same).isAdmissible]
  split
  · have admits : Manager.Plain fun m => m.modifyLaunch r.id fun l => { l with admitted := true } :=
      Manager.plain_modifyLaunch r.id fun _ => rfl
    have admitted := lock.manager same admits r.manager
    have kept := (Lockstep.keepsBots f).manager (KeepsBots.refl f) admits r.manager
    dsimp only
    rw [(lock.accords admitted).launch, (lock.accords admitted).askName]
    split
    · exact lock.endTask (lock.releaseSlot admitted r.manager) r
    · exact lock.enterRun admitted (launched.kept kept.2)
  · exact lock.complete_notStarted (lock.releaseSlot same r.manager) r

/-- A slot is sought on both sides where the slots are the same. -/
theorem seekSlot_of_slots (launched : f.Launched r b)
    (slots : (g.manager r.manager).slots = (f.manager r.manager).slots)
    (set : ∀ slots, R (f.modifyManager r.manager fun m => { m with slots })
      (g.modifyManager r.manager fun m => { m with slots })) :
    R (f.seekSlot r) (g.seekSlot r) := by
  unfold Fleet.seekSlot
  dsimp only
  rw [(lock.accords same).closed, slots]
  split
  · exact lock.complete_notStarted same r
  · split
    · exact lock.beginRun same launched
    · rename_i p _
      have kept (slots : Option (Permits Nat)) : f.KeepsBots (f.modifyManager r.manager fun m =>
          { m with slots }) :=
        prefix_bots_modifyManager (Manager.apart_slots slots).bots f r.manager
      rcases p.acquire r.id with ⟨p, _ | _⟩
      · exact lock.park (lock.setStage (set _) r _)
      · exact lock.beginRun (set _) (launched.kept (kept _))

theorem resumePermitted (launched : f.Launched r b) (heedsQuit : Bool) :
    R (f.resumePermitted r heedsQuit) (g.resumePermitted r heedsQuit) := by
  have go {f g : Fleet} (same : R f g) (launched : f.Launched r b) :
      R (if heedsQuit && (f.bot b).liveness.quitRequested then (f.addPermit b).quitRun r
          else f.finishRun r)
        (if heedsQuit && (g.bot b).liveness.quitRequested then (g.addPermit b).quitRun r
          else g.finishRun r) := by
    rw [(lock.accords same).liveness]
    have kept := (Lockstep.keepsBots f).addPermit (KeepsBots.refl f) b
    split
    · exact lock.quitRun (lock.addPermit same b) (launched.kept kept.2)
    · exact lock.finishRun same launched
  unfold Fleet.resumePermitted
  dsimp only
  rw [(lock.accords same).launch, launched.bot_eq]
  cases heedsQuit with
  | false => exact go same launched
  | true =>
      have unwatches : Bot.Apart fun bot => { bot with liveness := bot.liveness.unwatch r } :=
        ⟨fun _ _ => rfl, fun _ => rfl⟩
      have kept := (Lockstep.keepsBots f).bot (KeepsBots.refl f) unwatches b
      exact go (lock.bot same unwatches b) (launched.kept kept.2)

theorem resumeWaiting (launched : f.Launched r b) (heedsQuit : Bool) :
    R (f.resumeWaiting r heedsQuit) (g.resumeWaiting r heedsQuit) := by
  unfold Fleet.resumeWaiting
  dsimp only
  rw [(lock.accords same).launch, launched.bot_eq, (lock.accords same).liveness]
  split
  · have leaves : Bot.Apart fun bot => { bot with
        liveness := bot.liveness.unwatch r
        permits := bot.permits.leave r } :=
      ⟨fun _ _ => rfl, fun _ => rfl⟩
    have kept := (Lockstep.keepsBots f).bot (KeepsBots.refl f) leaves b
    exact lock.quitRun (lock.bot same leaves b) (launched.kept kept.2)
  · exact lock.park same

theorem stepBot_calling {c : Call} {rest : List Call}
    (stage : (f.launch r).stage = .calling (c :: rest))
    (performed : Alongside R (f.perform (some (f.spanOf r)) c) (g.perform (some (f.spanOf r)) c)) :
    R (f.stepBot r) (g.stepBot r) := by
  unfold Fleet.stepBot
  rw [(lock.accords same).launch, stage]
  dsimp only
  rw [(lock.accords same).spanOf]
  obtain ⟨f', g', reply, eq, eq', same⟩ := performed
  rw [eq, eq']
  dsimp only
  rw [(lock.accords same).launch]
  exact lock.setStage (lock.note same _) r _

/-- A step of the task of a launch, where seeking a slot and making a call keep the relation. -/
theorem stepBot (r : RunName)
    (seek : (f.launch r).stage = .submitted → R (f.seekSlot r) (g.seekSlot r))
    (call : ∀ c rest, (f.launch r).stage = .calling (c :: rest) →
      R (f.stepBot r) (g.stepBot r)) :
    R (f.stepBot r) (g.stepBot r) := by
  have launched (goesOn : (f.launch r).stage ≠ .over) := launched_of_stage goesOn
  by_cases calls : ∃ c rest, (f.launch r).stage = .calling (c :: rest)
  · obtain ⟨c, rest, stage⟩ := calls
    exact call c rest stage
  unfold Fleet.stepBot
  rw [(lock.accords same).launch]
  split
  · rename_i stage
    exact seek stage
  · rw [(lock.accords same).closed]
    split
    · exact lock.complete_notStarted (lock.leaveSlotLine same r) r
    · exact lock.park same
  · rename_i stage
    rw [(lock.accords same).closed]
    split
    · exact lock.complete_notStarted (lock.releaseSlot same r.manager) r
    · exact lock.beginRun same (launched (by rw [stage]; nofun))
  · rename_i c rest stage
    exact absurd ⟨c, rest, stage⟩ calls
  · rename_i stage
    exact lock.afterCalls same (launched (by rw [stage]; nofun))
  · rename_i stage
    exact lock.resumeWaiting same (launched (by rw [stage]; nofun)) _
  · rename_i stage
    exact lock.resumePermitted same (launched (by rw [stage]; nofun)) _
  · exact lock.park same

/-! ## Dismissals -/

/-- A step of the task that gives permits. -/
theorem stepDismissal : R f.stepDismissal g.stepDismissal := by
  unfold Fleet.stepDismissal
  dsimp only
  rw [(lock.accords same).dismissal]
  split
  · exact lock.park same
  · exact lock.park (lock.wake (lock.dismissal same _) rfl)
  · split
    · exact lock.park (lock.wake (lock.addPermits (lock.dismissal same _) _) rfl)
    · exact lock.park (lock.addPermits (lock.dismissal same _) _)

end RunsInStep

end Flotilla.Fleet
