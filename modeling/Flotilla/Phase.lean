/-!
# Phases of a fleet

A manager moves its fleet through five phases, always forward: it is built, it launches the
bots registered so far, it runs, it waits for its bots to finish, and it is done.
-/

namespace Flotilla

/-- The phase a fleet is in. -/
inductive Phase where
  /-- Built and not started: registrations are queued. -/
  | new
  /-- Launching the bots registered so far. -/
  | starting
  /-- Registrations launch at once. -/
  | running
  /-- Asked to stop, and waiting for its bots to finish. -/
  | stopping
  /-- Stopped, and every bot finished. -/
  | terminated
  deriving DecidableEq

namespace Phase

/-- The phases in the order in which a fleet passes through them. -/
def all : List Phase :=
  [.new, .starting, .running, .stopping, .terminated]

/-- The name of a phase in messages and log lines. -/
def label : Phase → String
  | .new => "NEW"
  | .starting => "STARTING"
  | .running => "RUNNING"
  | .stopping => "STOPPING"
  | .terminated => "TERMINATED"

/-- The phase with a given name. -/
def ofLabel? (text : String) : Option Phase :=
  all.find? fun p => p.label == text

/-- How many phases come before this one. -/
def rank : Phase → Nat
  | .new => 0
  | .starting => 1
  | .running => 2
  | .stopping => 3
  | .terminated => 4

/-- Phases are ordered by progress. -/
instance : Ord Phase := ⟨fun a b => compare a.rank b.rank⟩

theorem ofLabel?_label (p : Phase) : ofLabel? p.label = some p := by
  cases p <;> decide

end Phase

end Flotilla
