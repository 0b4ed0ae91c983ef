import Flotilla.Proofs.Lockstep.Moves
import Flotilla.Proofs.Sessions

/-!
# Commands in lockstep

Two fleets in lockstep that agree stay so whatever command is carried out on both sides, and the
answers are the same, if settling and permits for a subscriber keep the relation. Settling may have
to come to an end for this.
-/

namespace Flotilla.Fleet

theorem Agrees.compareHandles {f g : Fleet} (agrees : f.Agrees g) (a b : Nat × Nat) :
    g.compareHandles a b = f.compareHandles a b := by
  have handleAt (place : Nat × Nat) : g.handleAt? place = f.handleAt? place := by
    rw [handleAt?, agrees.isHeld, agrees.handles]
    rfl
  rw [Fleet.compareHandles, handleAt, handleAt]
  rfl

namespace MovesInStep

variable {R : Fleet → Fleet → Prop} {Q : Fleet → Prop} {f g : Fleet} (lock : MovesInStep R)
  (settles : ∀ {f g}, R f g → Q f.settle → Q g.settle → R f.settle g.settle)

include lock

theorem signalWaits (same : R f g) (s : Signal) (ws : List Nat) :
    R (ws.foldl (Fleet.signalWait s) f) (ws.foldl (Fleet.signalWait s) g) := by
  induction ws generalizing f g with
  | nil => exact same
  | cons w ws ih => exact ih ((lock.marks w).signalWait same ((lock.agrees same).wait w) s)

include settles

theorem runClock {limit n : Nat} (same : R f g) (ends : ∀ x ∈ clockRests limit n f, Q x)
    (ends' : ∀ x ∈ clockRests limit n g, Q x) :
    R (Fleet.runClock limit n f) (Fleet.runClock limit n g) := by
  induction n generalizing f g with
  | zero => exact same
  | succ n ih =>
      have agrees := lock.agrees same
      have due : g.nextDue? limit = f.nextDue? limit := by
        rw [nextDue?, agrees.timers, agrees.clock]
        rfl
      unfold Fleet.runClock
      unfold clockRests at ends ends'
      rw [due] at ends' ⊢
      cases next : f.nextDue? limit with
      | none => exact same
      | some due =>
          rw [next] at ends ends'
          have settled := settles (lock.strike same due) (ends _ List.mem_cons_self)
            (ends' _ List.mem_cons_self)
          exact ih settled (fun x mem => ends x (List.mem_cons_of_mem _ mem))
            fun x mem => ends' x (List.mem_cons_of_mem _ mem)

theorem sleep {millis : Nat} (same : R f g) (ends : ∀ x ∈ f.rests (.sleep millis), Q x)
    (ends' : ∀ x ∈ g.rests (.sleep millis), Q x) : R (f.sleep millis) (g.sleep millis) := by
  unfold rests at ends ends'
  unfold Fleet.sleep
  dsimp only
  rw [(lock.agrees same).clock] at ends' ⊢
  have settled := settles same (ends _ List.mem_cons_self) (ends' _ List.mem_cons_self)
  exact lock.clock (lock.runClock settles settled
    (fun x mem => ends x (List.mem_cons_of_mem _ mem))
    fun x mem => ends' x (List.mem_cons_of_mem _ mem)) _

theorem raise {s : Signal} (same : R f g) (ends : ∀ x ∈ f.rests (.raise s), Q x)
    (ends' : ∀ x ∈ g.rests (.raise s), Q x) : Alongside R (f.raise s) (g.raise s) := by
  unfold rests at ends ends'
  have settled := settles same (ends _ List.mem_cons_self) (ends' _ List.mem_cons_self)
  have listens : g.settle.someoneListens = f.settle.someoneListens := by
    rw [someoneListens, (lock.agrees settled).waits]
    rfl
  rw [listens, lock.number settled] at ends'
  unfold Fleet.raise
  dsimp only
  rw [listens, lock.number settled]
  cases listening : f.settle.someoneListens with
  | false => exact .intro settled _
  | true =>
      rw [listening] at ends ends'
      exact .intro (settles (lock.signalWaits settled s _)
        (ends _ (List.mem_cons_of_mem _ List.mem_cons_self))
        (ends' _ (List.mem_cons_of_mem _ List.mem_cons_self))) _

/-- A command keeps the relation and has the same answer on both sides. -/
theorem carryOut (releases : ∀ {f g}, R f g → ∀ m i times,
      R (f.releaseSubscriber m i times) (g.releaseSubscriber m i times))
    (same : R f g) (c : Command) (ends : ∀ x ∈ f.rests c, Q x) (ends' : ∀ x ∈ g.rests c, Q x) :
    Alongside R (f.carryOut c) (g.carryOut c) := by
  have agrees := lock.agrees same
  cases c with
  | call c =>
      obtain ⟨f', g', reply, eq, eq', same⟩ := lock.perform_of_agrees same agrees none c
      simp only [Fleet.carryOut, eq, eq']
      exact .intro same _
  | settle =>
      exact .intro (settles same (ends _ List.mem_cons_self) (ends' _ List.mem_cons_self)) _
  | sleep millis => exact .intro (lock.sleep settles same ends ends') _
  | wait m poll cancelled => exact lock.spawnWait same (agrees.isHeld m) poll cancelled
  | runUntilSignal m => exact lock.spawnRun same (agrees.isHeld m)
  | cancel w => exact (lock.marks w).cancelWait same (lock.waits_getElem? same w)
  | abort w => exact (lock.marks w).abortWait same (lock.waits_getElem? same w)
  | raise s => exact lock.raise settles same ends ends'
  | drop m => exact .intro (lock.dropManager same m) _
  | release m i times => exact .intro (releases same m i times) _
  | arm b what => exact .intro (lock.arm same b what) _
  | disarm b what => exact .intro (lock.disarm same b what) _
  | compare a b =>
      simp only [Fleet.carryOut, agrees.compareHandles]
      exact .intro same _

end MovesInStep

end Flotilla.Fleet
