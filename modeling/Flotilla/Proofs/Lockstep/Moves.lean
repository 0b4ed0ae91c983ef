import Flotilla.Proofs.Lockstep.Runs
import Flotilla.Proofs.Moves

/-!
# Moves in lockstep

Two fleets in lockstep stay so in every move but those that concern the bus and its readers: a
turn of a listener or a worker, permits for a subscriber, and the owner's look.
-/

namespace Flotilla

/-- Whether a move concerns a bus and its readers, or is a turn. -/
def Move.isApart : Move → Bool
  | .release _ _ _ | .look | .turn => false
  | _ => true

namespace Fleet

variable {R : Fleet → Fleet → Prop} {f g : Fleet} {w : Nat}

/-- Calls leave those who wait as they are, and the time. -/
theorem Lockstep.keepsTimes (f : Fleet) : Lockstep (Both f.SameTimes) :=
  .ofKept (fun kept _ _ times => kept.trans times) (fun kept _ _ => kept.trans ⟨rfl, rfl, rfl⟩)
    (fun kept _ => kept.trans ⟨rfl, rfl, rfl⟩) fun kept _ m =>
      kept.trans (passesOn_publish _ m _).times

theorem wait_of_waits (waits : g.waits = f.waits) (w : Nat) : g.wait w = f.wait w := by
  rw [wait, waits]
  rfl

/-! ## The owner's look -/

theorem lookAt_default : lookAt default = default := by
  show lookAt (Manager.build {} 0 []) = Manager.build {} 0 []
  simp [lookAt, Manager.build, Manager.modifyRelay, Bus.drain, Bus.subscribe, Bus.oldest,
    Bus.published, Bus.ofCapacity]

theorem manager_look (f : Fleet) (m : Nat) : (f.move .look).manager m = lookAt (f.manager m) := by
  show (f.managers.map lookAt).getD m default = lookAt (f.managers.getD m default)
  rw [List.getD_eq_getElem?_getD, List.getD_eq_getElem?_getD, List.getElem?_map]
  cases f.managers[m]? with
  | none => exact lookAt_default.symm
  | some x => rfl

/-! ## What is done for those who wait -/

namespace WaitsInStep

variable (lock : WaitsInStep R) (same : R f g)

include lock same

theorem addWait {wt : Wait} (held : f.isHeld wt.manager = true)
    (held' : g.isHeld wt.manager = true) : Alongside R (f.addWait wt) (g.addWait wt) := by
  have spawned := lock.wake (t := .wait f.waits.length) (lock.spawn same held held') rfl
  unfold Fleet.addWait
  dsimp only
  rw [lock.number same]
  exact .intro spawned _

theorem spawnWait {m : Nat} (held : g.isHeld m = f.isHeld m) (poll : Option Duration)
    (cancelled : Bool) : Alongside R (f.spawnWait m poll cancelled) (g.spawnWait m poll cancelled) := by
  unfold Fleet.spawnWait
  rw [held, (lock.accords same).poll]
  split
  · rename_i holds
    exact lock.addWait same holds (held.trans holds)
  · exact .intro same _

theorem spawnRun {m : Nat} (held : g.isHeld m = f.isHeld m) :
    Alongside R (f.spawnRun m) (g.spawnRun m) := by
  unfold Fleet.spawnRun
  rw [held, (lock.accords same).poll]
  split
  · rename_i holds
    exact lock.addWait same holds (held.trans holds)
  · exact .intro same _

theorem arm (b : Nat) (what : Method) : R (f.modifyBot b fun bot => bot.arm what)
    (g.modifyBot b fun bot => bot.arm what) := by
  refine lock.bot same ⟨fun x ending => ?_, fun x => ?_⟩ b
  · unfold Bot.arm Bot.isClosure
    dsimp only
    split <;> rfl
  · unfold Bot.arm
    split <;> rfl

theorem disarm (b : Nat) (what : Method) : R (f.modifyBot b fun bot => bot.disarm what)
    (g.modifyBot b fun bot => bot.disarm what) :=
  lock.bot same (h := fun bot => bot.disarm what) ⟨fun _ _ => rfl, fun _ => rfl⟩ b

end WaitsInStep

namespace MarksInStep

variable (lock : MarksInStep R w) (same : R f g)

include lock same

theorem cancelWait (here : g.waits[w]? = f.waits[w]?) :
    Alongside R (f.cancelWait w) (g.cancelWait w) := by
  unfold Fleet.cancelWait
  rw [here]
  split
  · exact .intro same _
  · split
    · exact .intro (lock.wake (lock.modifyWait same (h := fun wt => { wt with cancelled := true })
        (fun _ => rfl) (Or.inr fun _ => rfl)) rfl) _
    · exact .intro same _

theorem abortWait (here : g.waits[w]? = f.waits[w]?) :
    Alongside R (f.abortWait w) (g.abortWait w) := by
  unfold Fleet.abortWait
  rw [here]
  split
  · exact .intro same _
  · split
    · exact .intro same _
    · exact .intro (lock.wake (lock.modifyWait same (h := fun wt => { wt with aborted := true })
        (fun _ => rfl) (Or.inr fun _ => rfl)) rfl) _

theorem signalWait (here : g.wait w = f.wait w) (s : Signal) :
    R (f.signalWait s w) (g.signalWait s w) := by
  unfold Fleet.signalWait
  rw [here]
  split
  · rename_i listens
    exact lock.wake (lock.modifyWait same (h := fun wt => { wt with stage := .signalled s })
      (fun _ => rfl) (Or.inl (by rw [listens]; rfl))) rfl
  · exact same

end MarksInStep

/-! ## Waiters -/

/-- Where a waiter is the same on both sides, and so is the time, its turns keep the relation. -/
structure WaiterInStep (R : Fleet → Fleet → Prop) (w : Nat) : Prop extends MarksInStep R w where
  park : ∀ {f g}, R f g → R f.park g.park
  wait : ∀ {f g}, R f g → g.wait w = f.wait w
  time : ∀ {f g}, R f g → g.clock = f.clock

namespace WaiterInStep

variable (lock : WaiterInStep R w) (same : R f g)

include lock same

theorem endWait (goesOn : (f.wait w).stage.isOver = false) (result : WaitResult) :
    R (f.endWait w result) (g.endWait w result) := by
  have ended := lock.modifyWait same (h := fun wt => { wt with stage := .over result })
    (fun _ => rfl) (Or.inl goesOn)
  unfold Fleet.endWait
  dsimp only
  rw [lock.wait same]
  exact lock.park (lock.leave (lock.dropTimer ended w) _)

theorem lookAround (goesOn : (f.wait w).stage.isOver = false) {f' g' : Fleet} (next : R f' g') :
    R (f.lookAround w f') (g.lookAround w g') := by
  unfold Fleet.lookAround
  rw [lock.wait same, (lock.accords same).isDrained]
  split
  · exact lock.endWait (lock.say same _ _ _ _ (by decide)) goesOn _
  · split
    · exact lock.endWait same goesOn .ok
    · exact next

theorem pollBots (goesOn : (f.wait w).stage.isOver = false) : R (f.pollBots w) (g.pollBots w) := by
  unfold Fleet.pollBots
  dsimp only
  rw [lock.wait same, (lock.accords same).outstanding]
  split
  · exact lock.endWait same goesOn _
  · rename_i labels _
    have reported := lock.reportOutstanding same (f.wait w).manager (f.wait w).poll labels
    have kept := (Lockstep.keepsTimes f).reportOutstanding ⟨rfl, .refl f⟩ (f.wait w).manager
      (f.wait w).poll labels
    rw [← wait_of_waits kept.2.waits w] at goesOn
    have due := congrArg (· + (f.wait w).poll.ceilMillis) (lock.time reported)
    rw [due]
    refine lock.lookAround reported goesOn (lock.park ?_)
    exact lock.modifyWait (lock.addTimer (lock.dropTimer reported w) _) (fun _ => rfl)
      (Or.inl goesOn)

theorem beginWaiting (goesOn : (f.wait w).stage.isOver = false) :
    R (f.beginWaiting w) (g.beginWaiting w) := by
  have kept := (Lockstep.keepsTimes f).stop ⟨rfl, .refl f⟩ (f.wait w).manager none
  unfold Fleet.beginWaiting
  rw [lock.wait same]
  obtain ⟨f', g', halt, eq, eq', same⟩ := lock.stop same (f.wait w).manager none
  rw [eq] at kept
  rw [eq, eq']
  rw [← wait_of_waits kept.fleets.2.waits w] at goesOn
  cases halt with
  | some halt => exact lock.endWait same goesOn _
  | none => exact lock.pollBots same goesOn

theorem beginListening (goesOn : (f.wait w).stage.isOver = false) :
    R (f.beginListening w) (g.beginListening w) := by
  have kept := (Lockstep.keepsTimes f).start ⟨rfl, .refl f⟩ (f.wait w).manager none
  unfold Fleet.beginListening
  rw [lock.wait same]
  obtain ⟨f', g', halt, eq, eq', same⟩ := lock.start same (f.wait w).manager none
  rw [eq] at kept
  rw [eq, eq']
  rw [← wait_of_waits kept.fleets.2.waits w] at goesOn
  cases halt with
  | some halt => exact lock.endWait same goesOn _
  | none =>
      exact lock.park (lock.modifyWait same (h := fun wt => { wt with stage := .listening })
        (fun _ => rfl) (Or.inl goesOn))

theorem heedSignal (goesOn : (f.wait w).stage.isOver = false) (s : Signal) :
    R (f.heedSignal w s) (g.heedSignal w s) := by
  unfold Fleet.heedSignal
  dsimp only
  have observed := lock.say same .debug "termination signal observed"
    [("signal", .text s.label)] none (by decide)
  have kept (m : Nat) := (Lockstep.keepsTimes f).publish
    ((Lockstep.keepsTimes f).say ((Lockstep.keepsTimes f).say ⟨rfl, .refl f⟩ .debug
      "termination signal observed" [("signal", .text s.label)] none (by decide)) .info
        "shutdown signal received" [(f.say .debug "termination signal observed"
          [("signal", .text s.label)] none).numberField m] none (by decide))
            (e := .shutdownRequested) rfl m
  rw [lock.wait same, (lock.accords observed).numberField]
  rw [← wait_of_waits (kept (f.wait w).manager).2.waits w] at goesOn
  exact lock.beginWaiting (lock.publish (lock.say observed _ _ _ _ (by decide)) rfl _) goesOn

theorem stepWait : R (f.stepWait w) (g.stepWait w) := by
  unfold Fleet.stepWait
  dsimp only
  rw [lock.wait same]
  split
  · exact lock.park same
  · rename_i goesOn
    rw [Bool.not_eq_true] at goesOn
    split
    · exact lock.endWait same goesOn .aborted
    · split
      · split
        · exact lock.beginWaiting same goesOn
        · exact lock.beginListening same goesOn
      · exact lock.heedSignal same goesOn _
      · rw [lock.time same]
        split
        · exact lock.lookAround same goesOn (lock.pollBots same goesOn)
        · exact lock.lookAround same goesOn (lock.park same)
      · exact lock.park same
      · exact lock.park same

end WaiterInStep

/-! ## Fleets that agree -/

theorem Lockstep.perform_of_agrees (lock : Lockstep R) (same : R f g) (agrees : f.Agrees g)
    (span : Option Span) (c : Call) : Alongside R (f.perform span c) (g.perform span c) :=
  lock.perform same span c (fun m _ => agrees.isHeld m) fun m _ => agrees.settings m

namespace MovesInStep

variable (lock : MovesInStep R) (same : R f g)

include lock same

theorem waits_getElem? (w : Nat) : g.waits[w]? = f.waits[w]? := by
  rw [(lock.agrees same).waits]

theorem dropManager (m : Nat) : R (f.dropManager m) (g.dropManager m) :=
  lock.leave (lock.disown same m) m

theorem strike (time : Nat) : R (f.strike time) (g.strike time) := by
  have struck := lock.clock same time
  have due : (g.timers.filter fun t => t.due ≤ time) = f.timers.filter fun t => t.due ≤ time := by
    rw [(lock.agrees same).timers]
  unfold Fleet.strike
  dsimp only
  rw [due]
  refine lock.wakeAll struck fun t mem => ?_
  obtain ⟨timer, -, rfl⟩ := List.mem_map.mp mem
  rfl

/-- A move that does not concern a bus and its readers. -/
theorem move {mv : Move} (apart : mv.isApart = true) : R (f.move mv) (g.move mv) := by
  have agrees := lock.agrees same
  cases mv with
  | call c => exact (lock.perform_of_agrees same agrees none c).fleets
  | wait m poll cancelled => exact (lock.spawnWait same (agrees.isHeld m) poll cancelled).fleets
  | runUntilSignal m => exact (lock.spawnRun same (agrees.isHeld m)).fleets
  | cancel w => exact ((lock.marks w).cancelWait same (lock.waits_getElem? same w)).fleets
  | abort w => exact ((lock.marks w).abortWait same (lock.waits_getElem? same w)).fleets
  | signal s w => exact (lock.marks w).signalWait same (agrees.wait w) s
  | drop m => exact lock.dropManager same m
  | arm b what => exact lock.arm same b what
  | disarm b what => exact lock.disarm same b what
  | strike time => exact lock.strike same time
  | setClock time => exact lock.clock same time
  | release | look | turn => cases apart

end MovesInStep

namespace TurnsInStep

theorem waiter (lock : TurnsInStep R) (w : Nat) : WaiterInStep R w :=
  { lock.marks w with
    park := lock.park
    wait := fun same => (lock.agrees same).wait w
    time := fun same => (lock.agrees same).clock }

variable (lock : TurnsInStep R) (same : R f g)

include lock same

theorem stepBot (r : RunName) : R (f.stepBot r) (g.stepBot r) := by
  refine lock.toRunsInStep.stepBot same r (fun stage => ?_) fun c rest stage => ?_
  · exact lock.seekSlot_of_slots same (launched_of_stage (by rw [stage]; nofun))
      ((lock.agrees same).slots _) (lock.setSlots same _)
  · exact lock.stepBot_calling same stage (lock.perform_of_agrees same (lock.agrees same) _ c)

/-- A step of any task but a listener or a worker. -/
theorem stepTask {t : Task} (away : t.isRelay = false) : R (f.stepTask t) (g.stepTask t) := by
  cases t with
  | bot r => exact lock.stepBot same r
  | wait w => exact (lock.waiter w).stepWait same
  | dismissal => exact lock.stepDismissal same
  | listener | worker => cases away

end TurnsInStep

end Fleet

end Flotilla
