import Flotilla.Duration

/-!
# Settings of a manager

Two settings have a value that stands for something else: no limit is written as a limit of
zero, and a capacity or an interval that is too small is raised to the smallest one allowed.
-/

namespace Flotilla

/-- What a manager is built with. -/
structure Settings where
  /-- How many bots may run at once; zero means any number. -/
  maxConcurrent : Nat := 0
  /-- How often a waiter reports the bots it waits for. -/
  poll : Duration := .ofSeconds 5
  /-- How many events a slow reader may be behind. -/
  busCapacity : Nat := 1024

namespace Settings

/-- How many bots may run at once, if that is limited. -/
def limit (s : Settings) : Option Nat :=
  if s.maxConcurrent = 0 then none else some s.maxConcurrent

/-- The shortest interval between two reports of a waiter. -/
def shortestPoll : Duration := .ofMillis 1

/-- An interval raised to the shortest one allowed. -/
def clampPoll (d : Duration) : Duration := d.max shortestPoll

/-- The interval between two reports of a waiter. -/
def pollClamped (s : Settings) : Duration := clampPoll s.poll

/-- The capacity asked of the bus, at least one. -/
def busCapacityClamped (s : Settings) : Nat := Nat.max s.busCapacity 1

/-- The largest number of slots a pool can have. -/
def largestLimit : Nat := Nat.pow 2 61 - 1

theorem limit_eq_none_iff (s : Settings) : s.limit = none ↔ s.maxConcurrent = 0 := by
  unfold limit
  split <;> simp [*]

end Settings

end Flotilla
