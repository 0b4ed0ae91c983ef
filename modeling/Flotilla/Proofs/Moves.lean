import Flotilla.Fleet.Session
import Mathlib.Data.List.Induction

/-!
# Runs of a fleet, move by move

A session lets many things happen in one command: `settle` alone may take any number of turns.
This module cuts a session into *moves*, so that a statement can name every state in between.
A move is one call, one thing done to a waiter, a manager or a bot, one step of the task being
run, or one change of the clock; `Fleet.play` makes moves in order.

* `Fleet.exists_play_observeAll`: what a session does to a fleet is done by moves.
* `During`: something that happened at some move of a run.

A run here is any list of moves, also one in which calls fall between two steps of a turn, so
what holds after every list of moves holds at every moment of every session.
-/

namespace Flotilla

/-- One thing that happens to a fleet. -/
inductive Move where
  /-- The owner makes a call. -/
  | call (c : Call)
  | wait (manager : Nat) (poll : Option Duration) (cancelled : Bool)
  | runUntilSignal (manager : Nat)
  | cancel (wait : Nat)
  | abort (wait : Nat)
  /-- A waiter gets a signal, if it listens for one. -/
  | signal (s : Signal) (wait : Nat)
  | drop (manager : Nat)
  | release (manager subscriber times : Nat)
  | arm (bot : Nat) (what : Method)
  | disarm (bot : Nat) (what : Method)
  /-- The owner looks at every manager. -/
  | look
  /-- One step of the task being run, or the first task in line gets its turn. -/
  | turn
  /-- The clock is set, and the waiters whose timers are due are woken. -/
  | strike (time : Nat)
  /-- The clock is set. -/
  | setClock (time : Nat)

namespace Fleet

/-- What a move does. -/
def move (f : Fleet) : Move → Fleet
  | .call c => (f.perform none c).1
  | .wait m poll cancelled => (f.spawnWait m poll cancelled).1
  | .runUntilSignal m => (f.spawnRun m).1
  | .cancel w => (f.cancelWait w).1
  | .abort w => (f.abortWait w).1
  | .signal s w => f.signalWait s w
  | .drop m => f.dropManager m
  | .release m i times => f.releaseSubscriber m i times
  | .arm b what => f.modifyBot b fun bot => bot.arm what
  | .disarm b what => f.modifyBot b fun bot => bot.disarm what
  | .look => { f with managers := f.managers.map lookAt }
  | .turn => f.step?.getD f
  | .strike time => f.strike time
  | .setClock time => { f with clock := time }

/-- Makes moves in order. -/
def play (f : Fleet) (ms : List Move) : Fleet := ms.foldl move f

/-- A fleet before anything happened, its tasks in line. -/
def raw (managers : List ManagerPlan) (bots : List BotPlan) : Fleet :=
  { managers := managers.map ManagerPlan.build, bots := bots.map BotPlan.build : Fleet }.wakeAll
    (managers.zipIdx.flatMap fun x => x.1.tasks x.2)

/-- Something happened at one of these moves; it may depend on the fleet before the move. -/
def During (f : Fleet) (ms : List Move) (P : Fleet → Move → Prop) : Prop :=
  ∃ pre mv post, ms = pre ++ mv :: post ∧ P (f.play pre) mv

/-! ## Playing -/

@[simp] theorem play_nil (f : Fleet) : f.play [] = f := rfl

@[simp] theorem play_cons (f : Fleet) (mv : Move) (ms : List Move) :
    f.play (mv :: ms) = (f.move mv).play ms := rfl

@[simp] theorem play_append (f : Fleet) (ms ms' : List Move) :
    f.play (ms ++ ms') = (f.play ms).play ms' :=
  List.foldl_append

theorem During.snoc_iff {f : Fleet} {ms : List Move} {mv : Move} {P : Fleet → Move → Prop} :
    f.During (ms ++ [mv]) P ↔ f.During ms P ∨ P (f.play ms) mv := by
  constructor
  · intro happens
    rcases happens with ⟨pre, mv', post, eq, holds⟩
    rcases List.eq_nil_or_concat post with rfl | ⟨post, last, rfl⟩
    · obtain ⟨rfl, same⟩ := List.append_inj' eq rfl
      cases same
      exact Or.inr holds
    · rw [List.concat_eq_append, ← List.cons_append, ← List.append_assoc] at eq
      exact Or.inl ⟨pre, mv', post, (List.append_inj' eq rfl).1, holds⟩
  · intro happens
    rcases happens with ⟨pre, mv', post, rfl, holds⟩ | holds
    · exact ⟨pre, mv', post ++ [mv], by simp, holds⟩
    · exact ⟨ms, mv, [], rfl, holds⟩

theorem During.not_nil {f : Fleet} {P : Fleet → Move → Prop} : ¬ f.During [] P := by
  intro happens
  rcases happens with ⟨pre, mv, post, eq, -⟩
  simp at eq

/-! ## Sessions are made of moves -/

theorem exists_play_runToRest (n : Nat) (f : Fleet) :
    ∃ ms, runToRest step? n f = f.play ms :=
  ⟨List.replicate n .turn, runToRest_eq_foldl (fun _ => rfl) n f⟩

theorem exists_play_settle (f : Fleet) : ∃ ms, f.settle = f.play ms :=
  exists_play_runToRest restBudget f

theorem exists_play_runClock (limit n : Nat) (f : Fleet) :
    ∃ ms, runClock limit n f = f.play ms := by
  induction n generalizing f with
  | zero => exact ⟨[], rfl⟩
  | succ n ih =>
      rw [runClock]
      cases f.nextDue? limit with
      | none => exact ⟨[], rfl⟩
      | some due =>
          obtain ⟨turns, settled⟩ := exists_play_settle (f.strike due)
          obtain ⟨ms, eq⟩ := ih (f.strike due).settle
          refine ⟨.strike due :: turns ++ ms, ?_⟩
          rw [play_append, play_cons, move, ← settled]
          exact eq

theorem exists_play_sleep (f : Fleet) (millis : Nat) : ∃ ms, f.sleep millis = f.play ms := by
  obtain ⟨turns, settled⟩ := exists_play_settle f
  obtain ⟨ms, eq⟩ := exists_play_runClock (f.clock + millis) millis f.settle
  refine ⟨turns ++ ms ++ [.setClock (f.clock + millis)], ?_⟩
  rw [play_append, play_append, ← settled, ← eq]
  rfl

theorem foldl_signalWait_eq_play (s : Signal) (f : Fleet) (ws : List Nat) :
    ws.foldl (signalWait s) f = f.play (ws.map (Move.signal s)) := by
  rw [play, List.foldl_map]
  rfl

theorem exists_play_raise (f : Fleet) (s : Signal) : ∃ ms, (f.raise s).1 = f.play ms := by
  obtain ⟨turns, settled⟩ := exists_play_settle f
  rw [raise]
  split
  · obtain ⟨turns', settled'⟩ := exists_play_settle
      ((List.range f.settle.waits.length).foldl (signalWait s) f.settle)
    refine ⟨turns ++ (List.range f.settle.waits.length).map (Move.signal s) ++ turns', ?_⟩
    rw [play_append, play_append, ← settled, ← foldl_signalWait_eq_play, ← settled']
  · exact ⟨turns, settled⟩

theorem exists_play_carryOut (f : Fleet) (c : Command) : ∃ ms, (f.carryOut c).1 = f.play ms := by
  cases c with
  | call c => exact ⟨[.call c], rfl⟩
  | settle => exact exists_play_settle f
  | sleep millis => exact exists_play_sleep f millis
  | wait m poll cancelled => exact ⟨[.wait m poll cancelled], rfl⟩
  | runUntilSignal m => exact ⟨[.runUntilSignal m], rfl⟩
  | cancel w => exact ⟨[.cancel w], rfl⟩
  | abort w => exact ⟨[.abort w], rfl⟩
  | raise s => exact exists_play_raise f s
  | drop m => exact ⟨[.drop m], rfl⟩
  | release m i times => exact ⟨[.release m i times], rfl⟩
  | arm b what => exact ⟨[.arm b what], rfl⟩
  | disarm b what => exact ⟨[.disarm b what], rfl⟩
  | compare a b => exact ⟨[], rfl⟩

/-- What the commands of a session do to a fleet is done by moves. -/
theorem exists_play_observeAll (f : Fleet) (cs : List Command) :
    ∃ ms, (f.observeAll cs).1 = f.play ms := by
  induction cs generalizing f with
  | nil => exact ⟨[], rfl⟩
  | cons c cs ih =>
      obtain ⟨ms, eq⟩ := exists_play_carryOut f c
      obtain ⟨rest, eq'⟩ := ih (f.observe c).1
      refine ⟨ms ++ .look :: rest, ?_⟩
      rw [play_append, play_cons, ← eq]
      exact eq'

/-- A fleet just built is reached from the raw one. -/
theorem exists_play_build (managers : List ManagerPlan) (bots : List BotPlan) :
    ∃ ms, build managers bots = (raw managers bots).play ms :=
  exists_play_settle (raw managers bots)

end Fleet

end Flotilla
