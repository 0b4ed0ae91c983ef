import Flotilla.Proofs.ComingToRest

/-!
# The moves of a session

What the commands of a session do is done by moves, and which moves these are is said here:
`Fleet.movesOf` of a command and `Fleet.sessionMoves` of commands one after another. So a statement
can speak of every moment of one session, between two turns of a settling too. To settle is to make
a fixed number of turns, of which those after the fleet settled change nothing.

Two fleets whose clocks, timers and waiters are the same at every such moment make the same moves
(`Fleet.movesOf_eq`).

A settling of which nothing is known may go on for ever, and is given up then. `Fleet.rests` is how
the fleet is found after each settling in the course of a command, so that a statement can be about
sessions in which every settling ends (`Fleet.EverySettlingEnds`).
-/

namespace Flotilla.Fleet

/-- The turns that are made when a fleet is left to settle. -/
def settling : List Move := List.replicate restBudget .turn

/-- The moves that are made while the clock runs to a limit. -/
def clockMoves (limit : Nat) : Nat → Fleet → List Move
  | 0, _ => []
  | n + 1, f =>
    match f.nextDue? limit with
    | none => []
    | some due => .strike due :: (settling ++ clockMoves limit n (f.strike due).settle)

/-- The moves that a command consists of. -/
def movesOf (f : Fleet) : Command → List Move
  | .call c => [.call c]
  | .settle => settling
  | .sleep millis =>
    settling ++ (clockMoves (f.clock + millis) millis f.settle ++ [.setClock (f.clock + millis)])
  | .wait m poll cancelled => [.wait m poll cancelled]
  | .runUntilSignal m => [.runUntilSignal m]
  | .cancel w => [.cancel w]
  | .abort w => [.abort w]
  | .raise s =>
    settling ++
      if f.settle.someoneListens then
        (List.range f.settle.waits.length).map (.signal s) ++ settling
      else []
  | .drop m => [.drop m]
  | .release m i times => [.release m i times]
  | .arm b what => [.arm b what]
  | .disarm b what => [.disarm b what]
  | .compare _ _ => []

/-- The moves that commands one after another consist of, the owner looking after each. -/
def sessionMoves (f : Fleet) : List Command → List Move
  | [] => []
  | c :: cs => f.movesOf c ++ .look :: sessionMoves (f.observe c).1 cs

/-! ## Settlings -/

/-- How the fleet is found after each settling while the clock runs to a limit. -/
def clockRests (limit : Nat) : Nat → Fleet → List Fleet
  | 0, _ => []
  | n + 1, f =>
    match f.nextDue? limit with
    | none => []
    | some due => (f.strike due).settle :: clockRests limit n (f.strike due).settle

/-- How the fleet is found after each settling in the course of a command. -/
def rests (f : Fleet) : Command → List Fleet
  | .settle => [f.settle]
  | .sleep millis => f.settle :: clockRests (f.clock + millis) millis f.settle
  | .raise s =>
    f.settle ::
      if f.settle.someoneListens then
        [((List.range f.settle.waits.length).foldl (signalWait s) f.settle).settle]
      else []
  | _ => []

/-- How the fleet is found after each settling in the course of commands. -/
def sessionRests (f : Fleet) : List Command → List Fleet
  | [] => []
  | c :: cs => f.rests c ++ sessionRests (f.observe c).1 cs

/-- Every settling of a session with a fleet just built comes to its end. -/
def EverySettlingEnds (managers : List ManagerPlan) (bots : List BotPlan) (commands : List Command) :
    Prop :=
  ∀ f ∈ build managers bots :: (build managers bots).sessionRests commands, f.tasks.isSettled = true

instance (managers : List ManagerPlan) (bots : List BotPlan) (commands : List Command) :
    Decidable (EverySettlingEnds managers bots commands) :=
  inferInstanceAs (Decidable (∀ f ∈ _, _))

/-! ## What the moves do -/

variable {f g : Fleet} {c : Command}

theorem settle_eq_play (f : Fleet) : f.settle = f.play settling :=
  runToRest_eq_play restBudget f

theorem runClock_eq_play (limit n : Nat) (f : Fleet) :
    runClock limit n f = f.play (clockMoves limit n f) := by
  induction n generalizing f with
  | zero => rfl
  | succ n ih =>
      unfold runClock clockMoves
      cases f.nextDue? limit with
      | none => rfl
      | some due =>
          dsimp only
          rw [ih, play_cons, play_append]
          rw [← settle_eq_play]
          rfl

theorem carryOut_eq_play (f : Fleet) (c : Command) : (f.carryOut c).1 = f.play (f.movesOf c) := by
  cases c with
  | settle => exact settle_eq_play f
  | sleep millis =>
      unfold carryOut sleep movesOf
      rw [play_append, ← settle_eq_play, play_append, ← runClock_eq_play]
      rfl
  | raise s =>
      unfold carryOut raise movesOf
      dsimp only
      rw [play_append, ← settle_eq_play]
      split
      · rw [play_append, ← foldl_signalWait_eq_play, ← settle_eq_play]
      · rfl
  | _ => rfl

theorem observe_eq_play (f : Fleet) (c : Command) :
    (f.observe c).1 = f.play (f.movesOf c ++ [.look]) := by
  rw [play_append, ← carryOut_eq_play]
  rfl

theorem observeAll_eq_play (f : Fleet) (cs : List Command) :
    (f.observeAll cs).1 = f.play (f.sessionMoves cs) := by
  induction cs generalizing f with
  | nil => rfl
  | cons c cs ih =>
      show ((f.observe c).1.observeAll cs).1 = f.play (f.movesOf c ++ .look :: _)
      rw [ih, List.append_cons, play_append, ← observe_eq_play]

/-! ## Throughout a run -/

/-- Something holds before and after each of these moves. -/
def Throughout (P : Fleet → Prop) (f : Fleet) (ms : List Move) : Prop :=
  ∀ pre, pre <+: ms → P (f.play pre)

theorem Throughout.last {P : Fleet → Prop} {ms : List Move} (through : Throughout P f ms) :
    P (f.play ms) :=
  through ms List.prefix_rfl

theorem throughout_append_iff {P : Fleet → Prop} {ms ms' : List Move} :
    Throughout P f (ms ++ ms') ↔ Throughout P f ms ∧ Throughout P (f.play ms) ms' := by
  refine ⟨fun through => ⟨fun pre short => through pre (short.trans (List.prefix_append ..)),
    fun pre short => ?_⟩, fun through pre short => ?_⟩
  · rw [← play_append]
    exact through _ ((List.prefix_append_right_inj ms).mpr short)
  · rcases List.prefix_or_prefix_of_prefix short (List.prefix_append ms ms') with within | beyond
    · exact through.1 pre within
    · obtain ⟨more, rfl⟩ := beyond
      rw [play_append]
      exact through.2 more ((List.prefix_append_right_inj ms).mp short)

/-- Of the turns of a settling only those until nothing can go on matter. -/
theorem throughout_turns {P : Fleet → Prop} {n : Nat}
    (settled : (f.play (List.replicate n .turn)).tasks.isSettled = true)
    (through : ∀ k, k ≤ n → P (f.play (List.replicate k .turn))) (n' : Nat) :
    Throughout P f (List.replicate n' .turn) := by
  intro pre short
  obtain ⟨k, -, rfl⟩ : ∃ k, k ≤ n' ∧ pre = List.replicate k .turn := by
    obtain ⟨eq, le⟩ := List.prefix_replicate_iff.mp short
    exact ⟨pre.length, eq, le⟩
  rcases Nat.le_total k n with le | ge
  · exact through k le
  · obtain ⟨more, rfl⟩ := Nat.exists_eq_add_of_le ge
    rw [← List.replicate_append_replicate, play_append, play_of_settled settled]
    exact through n (Nat.le_refl n)

/-- A fleet that has settled after some turns is left so by settling. -/
theorem play_settling {n : Nat} (short : n ≤ restBudget)
    (settled : (f.play (List.replicate n .turn)).tasks.isSettled = true) :
    f.play settling = f.play (List.replicate n .turn) := by
  obtain ⟨more, budget⟩ := Nat.exists_eq_add_of_le short
  rw [settling, budget, ← List.replicate_append_replicate, play_append, play_of_settled settled]

theorem throughout_settling {P : Fleet → Prop} {ms : List Move} (n : Nat) (short : n ≤ restBudget)
    (settled : (f.play (List.replicate n .turn)).tasks.isSettled = true)
    (through : ∀ k, k ≤ n → P (f.play (List.replicate k .turn)))
    (later : Throughout P (f.play (List.replicate n .turn)) ms) :
    Throughout P f (settling ++ ms) := by
  refine throughout_append_iff.mpr ⟨throughout_turns settled through _, ?_⟩
  rw [play_settling short settled]
  exact later

theorem throughout_iff_take {P : Fleet → Prop} {ms : List Move} :
    Throughout P f ms ↔ ∀ k, k ≤ ms.length → P (f.play (ms.take k)) := by
  refine ⟨fun through k _ => through _ (List.take_prefix k ms), fun through pre short => ?_⟩
  rw [List.prefix_iff_eq_take.mp short]
  exact through _ short.length_le

instance (P : Fleet → Prop) [DecidablePred P] (f : Fleet) (ms : List Move) :
    Decidable (Throughout P f ms) :=
  decidable_of_iff _ throughout_iff_take.symm

/-! ## Two fleets side by side -/

/-- Two fleets are related before and after each of these moves. -/
def Beside (R : Fleet → Fleet → Prop) (f g : Fleet) (ms : List Move) : Prop :=
  ∀ pre, pre <+: ms → R (f.play pre) (g.play pre)

variable {R : Fleet → Fleet → Prop} {ms ms' : List Move}

theorem Beside.first (beside : Beside R f g ms) : R f g := beside [] List.nil_prefix

theorem Beside.last (beside : Beside R f g ms) : R (f.play ms) (g.play ms) :=
  beside ms List.prefix_rfl

theorem Beside.left (beside : Beside R f g (ms ++ ms')) : Beside R f g ms :=
  fun pre short => beside pre (short.trans (List.prefix_append ms ms'))

theorem Beside.right (beside : Beside R f g (ms ++ ms')) :
    Beside R (f.play ms) (g.play ms) ms' := by
  intro pre short
  rw [← play_append, ← play_append]
  exact beside _ ((List.prefix_append_right_inj ms).mpr short)

section SameTimes

variable (same : ∀ {f g}, R f g → f.SameTimes g)

include same

theorem clockMoves_eq {limit n : Nat} (beside : Beside R f g (clockMoves limit n f)) :
    clockMoves limit n g = clockMoves limit n f := by
  induction n generalizing f g with
  | zero => rfl
  | succ n ih =>
      have times := same beside.first
      have due : g.nextDue? limit = f.nextDue? limit := by
        rw [nextDue?, times.clock, times.timers]
        rfl
      unfold clockMoves at beside ⊢
      rw [due]
      cases next : f.nextDue? limit with
      | none => rfl
      | some due =>
          rw [next] at beside
          dsimp only at beside ⊢
          have later : Beside R (f.strike due).settle (g.strike due).settle
              (clockMoves limit n (f.strike due).settle) := by
            rw [← List.cons_append, ← List.singleton_append] at beside
            have struck := beside.right
            rw [play_append, play_append, ← settle_eq_play, ← settle_eq_play] at struck
            exact struck
          rw [ih later]

/-- A command consists of the same moves in two fleets whose times are the same throughout. -/
theorem movesOf_eq (beside : Beside R f g (f.movesOf c)) : g.movesOf c = f.movesOf c := by
  cases c with
  | sleep millis =>
      simp only [movesOf] at beside ⊢
      have later := beside.right.left
      rw [← settle_eq_play, ← settle_eq_play] at later
      rw [(same beside.first).clock, clockMoves_eq same later]
  | raise s =>
      simp only [movesOf] at beside ⊢
      have settled := beside.right.first
      rw [← settle_eq_play, ← settle_eq_play] at settled
      have listens : g.settle.someoneListens = f.settle.someoneListens := by
        rw [someoneListens, (same settled).waits]
        rfl
      rw [listens, (same settled).waits]
  | _ => rfl

end SameTimes

end Flotilla.Fleet
