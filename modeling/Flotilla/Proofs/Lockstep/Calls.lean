import Flotilla.Proofs.Lockstep

/-!
# Calls in lockstep

Two fleets in lockstep stay so whatever call is made on both sides, and the answers are the
same.
-/

namespace Flotilla.Fleet

variable {R : Fleet → Fleet → Prop} {f g : Fleet} {α : Type}

/-- Two fleets with what they answer: they are in lockstep, and the answers are the same. -/
def Alongside (R : Fleet → Fleet → Prop) (x y : Fleet × α) : Prop :=
  ∃ f g answer, x = (f, answer) ∧ y = (g, answer) ∧ R f g

theorem Alongside.intro (same : R f g) (answer : α) : Alongside R (f, answer) (g, answer) :=
  ⟨f, g, answer, rfl, rfl, same⟩

theorem Alongside.fleets {x y : Fleet × α} (along : Alongside R x y) : R x.1 y.1 := by
  obtain ⟨f, g, answer, rfl, rfl, same⟩ := along
  exact same

theorem Alongside.answers {x y : Fleet × α} (along : Alongside R x y) : y.2 = x.2 := by
  obtain ⟨f, g, answer, rfl, rfl, -⟩ := along
  rfl

namespace Lockstep

variable (lock : Lockstep R) (same : R f g)

include lock same

/-! ## Registering and launching -/

theorem setPhase (m : Nat) (phase : Phase) :
    R (f.modifyManager m fun mgr => { mgr with phase })
      (g.modifyManager m fun mgr => { mgr with phase }) :=
  lock.manager same (h := fun mgr => { mgr with phase })
    (.of_launches (fun _ _ _ _ => rfl) (fun _ _ _ => rfl) (fun _ => rfl) fun _ => rfl) m

theorem setQueue (m : Nat) (change : List Nat → List Nat) :
    R (f.modifyManager m fun mgr => { mgr with queue := change mgr.queue })
      (g.modifyManager m fun mgr => { mgr with queue := change mgr.queue }) :=
  lock.manager same (h := fun mgr => { mgr with queue := change mgr.queue })
    (.of_launches (fun _ _ _ _ => rfl) (fun _ _ _ => rfl) (fun _ => rfl) fun _ => rfl) m

theorem advance (m : Nat) (op : String) (source target : Phase) :
    Alongside R (f.advance m op source target) (g.advance m op source target) := by
  unfold Fleet.advance
  dsimp only
  rw [(lock.accords same).phase]
  split
  · exact .intro (lock.publish (lock.setPhase same m target) rfl m) _
  · exact .intro same _

theorem terminateIfEmpty (m : Nat) (span : Option Span) :
    R (f.terminateIfEmpty m span) (g.terminateIfEmpty m span) := by
  unfold Fleet.terminateIfEmpty
  dsimp only
  rw [(lock.accords same).phase, (lock.accords same).registry]
  split
  · have told := lock.publish (lock.setPhase same m .terminated)
      (e := .stateChanged .terminated) rfl m
    rw [(lock.accords told).numberField]
    exact lock.say told _ _ _ _ (by decide)
  · exact same

theorem appendLaunch (m : Nat) (l : Launch) :
    R (f.modifyManager m fun mgr => { mgr with launches := mgr.launches ++ [l] })
      (g.modifyManager m fun mgr => { mgr with launches := mgr.launches ++ [l] }) :=
  lock.manager same (Manager.plain_launch l) m

theorem launchBot (m b : Nat) (span : Option Span) :
    Alongside R (f.launchBot m b span) (g.launchBot m b span) := by
  unfold Fleet.launchBot
  dsimp only
  rw [(lock.accords same).launches, (lock.accords same).closed]
  split
  · exact .intro (lock.appendLaunch same m _) _
  · have woken := lock.wake (t := .bot ⟨m, (f.manager m).launches.length⟩)
      (lock.appendLaunch same m { bot := b }) rfl
    rw [(lock.accords woken).askName]
    split
    · exact .intro woken _
    · exact .intro (lock.manager (lock.publish (lock.say woken _ _ _ _ (by decide)) rfl m)
        (Manager.plain_modifyLaunch _ (g := fun l => { l with registered := true }) fun _ => rfl)
          m) _

theorem launchBots (m : Nat) (span : Option Span) (bots : List Nat) :
    Alongside R (f.launchBots m span bots) (g.launchBots m span bots) := by
  induction bots generalizing f g with
  | nil => exact .intro same none
  | cons b rest ih =>
      obtain ⟨f₁, g₁, halt, eq, eq', same⟩ := lock.launchBot same m b span
      rw [Fleet.launchBots, Fleet.launchBots, eq, eq']
      cases halt with
      | none => exact ih same
      | some halt => exact .intro same _

theorem add (m b : Nat) (span : Option Span) :
    Alongside R (f.add m b span) (g.add m b span) := by
  unfold Fleet.add
  rw [(lock.accords same).phase, (lock.accords same).askName]
  split
  · split
    · exact .intro same _
    · refine .intro (lock.publish (lock.setQueue ?_ m (· ++ [b])) rfl m) _
      exact lock.say same _ _ _ _ (by decide)
  · split
    · exact .intro same _
    · exact lock.launchBot (lock.say same _ _ _ _ (by decide)) m b span
  · exact .intro same _

theorem start (m : Nat) (span : Option Span) :
    Alongside R (f.start m span) (g.start m span) := by
  unfold Fleet.start
  obtain ⟨f₁, g₁, halt, eq, eq', same⟩ := lock.advance same m "start" .new .starting
  rw [eq, eq']
  cases halt with
  | some halt => exact .intro same _
  | none =>
      dsimp only
      rw [(lock.accords same).queue]
      obtain ⟨f₂, g₂, halt, eq, eq', same⟩ :=
        lock.launchBots (lock.setQueue same m fun _ => []) m span (f₁.manager m).queue
      rw [eq, eq']
      cases halt with
      | some halt => exact .intro same _
      | none =>
          dsimp only
          obtain ⟨f₃, g₃, halt, eq, eq', same⟩ := lock.advance same m "start" .starting .running
          rw [eq, eq']
          cases halt with
          | some halt => exact .intro same _
          | none =>
              dsimp only
              rw [(lock.accords same).numberField]
              exact .intro (lock.say same _ _ _ _ (by decide)) _

/-! ## Stopping -/

theorem closePool (m : Nat) : R (f.closePool m) (g.closePool m) := by
  unfold Fleet.closePool
  dsimp only
  rw [lock.slotWaiters same]
  have closed := lock.manager same (h := fun mgr => { mgr with closed := true })
    (.of_launches (fun _ _ _ _ => rfl) (fun _ _ _ => rfl) (fun _ => rfl) fun _ => rfl) m
  refine lock.wakeAll closed fun t mem => ?_
  obtain ⟨id, -, rfl⟩ := List.mem_map.mp mem
  rfl

theorem quitBot (b : Nat) : Alongside R (f.quitBot b) (g.quitBot b) := by
  unfold Fleet.quitBot
  rw [(lock.accords same).panicOf?]
  split
  · exact .intro same _
  · dsimp only
    rw [(lock.accords same).isClosure, (lock.accords same).liveness, (lock.accords same).plan]
    split
    · exact .intro (lock.wakeAll_bot (lock.bot same
        (h := fun bot => { bot with liveness := bot.liveness.quit })
        ⟨fun _ _ => rfl, fun _ => rfl⟩ b) _) _
    · have counted := lock.bot same (h := fun bot => { bot with quits := bot.quits + 1 })
        ⟨fun _ _ => rfl, fun _ => rfl⟩ b
      split
      · exact .intro (lock.dismiss counted b) _
      · exact .intro counted _

theorem quitLive (launches : List (Nat × Launch)) :
    Alongside R (f.quitLive launches) (g.quitLive launches) := by
  induction launches generalizing f g with
  | nil => exact .intro same _
  | cons first rest ih =>
      obtain ⟨id, l⟩ := first
      rw [Fleet.quitLive, Fleet.quitLive, (lock.accords same).isLive]
      split
      · exact .intro same _
      · exact ih same
      · obtain ⟨f₁, g₁, panicked, eq, eq', same⟩ := lock.quitBot same l.bot
        rw [eq, eq']
        cases panicked with
        | some text => exact .intro same _
        | none =>
            dsimp only
            obtain ⟨f₂, g₂, asked, eq, eq', same⟩ := ih same
            rw [eq, eq']
            cases asked with
            | ok asked => exact .intro same _
            | error text => exact .intro same _

theorem announceQuits (m : Nat) (span : Option Span) (handles : List Handle) :
    Alongside R (f.announceQuits m span handles) (g.announceQuits m span handles) := by
  induction handles generalizing f g with
  | nil => exact .intro same _
  | cons h rest ih =>
      rw [Fleet.announceQuits, Fleet.announceQuits, (lock.accords same).askName]
      split
      · exact .intro same _
      · exact ih (lock.publish (lock.say same _ _ _ _ (by decide)) rfl m)

theorem stop (m : Nat) (span : Option Span) : Alongside R (f.stop m span) (g.stop m span) := by
  unfold Fleet.stop
  obtain ⟨f₁, g₁, halt, eq, eq', same⟩ := lock.advance same m "stop" .running .stopping
  rw [eq, eq']
  cases halt with
  | some halt => exact .intro same _
  | none =>
      dsimp only
      have closed := lock.closePool same m
      rw [(lock.accords closed).walked]
      obtain ⟨f₂, g₂, asked, eq, eq', same⟩ :=
        lock.quitLive closed ((f₁.closePool m).manager m).walked
      rw [eq, eq']
      cases asked with
      | error text => exact .intro same _
      | ok asked =>
          dsimp only
          obtain ⟨f₃, g₃, panicked, eq, eq', same⟩ := lock.announceQuits same m span (sortBy Handle.id asked)
          rw [eq, eq']
          cases panicked with
          | some text => exact .intro same _
          | none =>
              dsimp only
              rw [(lock.accords same).registry, (lock.accords same).numberField]
              exact .intro (lock.terminateIfEmpty (lock.say same _ _ _ _ (by decide)) m span) _

/-- The report of a waiter. -/
theorem reportOutstanding (m : Nat) (poll : Duration) (labels : List String) :
    R (f.reportOutstanding m poll labels) (g.reportOutstanding m poll labels) := by
  unfold Fleet.reportOutstanding
  split
  · exact same
  · exact lock.publish (lock.say same _ _ _ _ (waiting_ne_strayLine _ _)) rfl m

/-! ## Any call -/

theorem finish (b : Nat) (ending : Option Ending) : R (f.finish b ending) (g.finish b ending) := by
  unfold Fleet.finish
  refine lock.addPermit ?_ b
  cases ending with
  | none => exact lock.bot same (h := fun bot => bot) ⟨fun _ _ => rfl, fun _ => rfl⟩ b
  | some ending => exact lock.ending same b ending

/-- A call to a manager that somebody has on both sides, or on neither, has the same answer; only
one for the settings goes by these. -/
theorem perform (span : Option Span) (c : Call)
    (held : ∀ m, callee? c = some m → g.isHeld m = f.isHeld m)
    (settings : ∀ m, c = .capacities m → (g.manager m).settings = (f.manager m).settings) :
    Alongside R (f.perform span c) (g.perform span c) := by
  have accords := lock.accords same
  have callee : ((callee? c).any fun m => !g.isHeld m) = (callee? c).any fun m => !f.isHeld m := by
    cases called : callee? c with
    | none => rfl
    | some m => exact congrArg (!·) (held m called)
  unfold Fleet.perform
  rw [callee]
  split
  · exact .intro same _
  cases c
  all_goals dsimp only
  case add m b _ =>
    obtain ⟨f', g', halt, eq, eq', same⟩ := lock.add same m b span
    rw [eq, eq']
    exact .intro same _
  case start m _ =>
    obtain ⟨f', g', halt, eq, eq', same⟩ := lock.start same m span
    rw [eq, eq']
    exact .intro same _
  case stop m _ =>
    obtain ⟨f', g', halt, eq, eq', same⟩ := lock.stop same m span
    rw [eq, eq']
    exact .intro same _
  case phase m _ =>
    rw [accords.phase]
    exact .intro same _
  case queued m _ =>
    rw [accords.queue]
    exact .intro same _
  case inFlight m _ =>
    rw [accords.inFlight]
    exact .intro same _
  case number m _ =>
    rw [accords.number]
    exact .intro same _
  case ids m _ =>
    rw [accords.handles]
    exact .intro same _
  case handles m _ =>
    rw [accords.handles, accords.handleTexts]
    split <;> exact .intro same _
  case capacities m _ =>
    rw [settings m rfl]
    exact .intro same _
  case wraps m b _ =>
    rw [accords.handles]
    exact .intro same _
  case finish b ending _ => exact .intro (lock.finish same b ending) _
  case unknown m _ => exact .intro same _

end Lockstep

end Flotilla.Fleet
