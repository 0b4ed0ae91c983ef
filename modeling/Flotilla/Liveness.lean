/-!
# Connected, and asked to quit

Two facts about a bot that others ask for: whether it is connected, and whether it was asked
to quit. A request to quit stays, and it wakes the runs that wait for it, in the order in
which they began to wait.
-/

namespace Flotilla

/-- Whether a bot is connected and whether it was asked to quit; `α` names its runs. -/
structure Liveness (α : Type) where
  connected : Bool := false
  quitRequested : Bool := false
  /-- The runs that wait to be asked to quit, longest first. -/
  watchers : List α := []

namespace Liveness

variable {α : Type}

/-- A run reports the bot as connected. -/
def connect (l : Liveness α) : Liveness α := { l with connected := true }

/-- A run reports the bot as not connected. -/
def disconnect (l : Liveness α) : Liveness α := { l with connected := false }

/-- Asks the bot to quit. -/
def quit (l : Liveness α) : Liveness α := { l with quitRequested := true }

/-- The runs that a request to quit wakes: none if there was one before. -/
def wokenByQuit (l : Liveness α) : List α := if l.quitRequested then [] else l.watchers

/-- A run begins to wait to be asked to quit. -/
def watch (l : Liveness α) (a : α) : Liveness α := { l with watchers := l.watchers ++ [a] }

/-- A run stops waiting. -/
def unwatch [DecidableEq α] (l : Liveness α) (a : α) : Liveness α :=
  { l with watchers := l.watchers.erase a }

end Liveness

end Flotilla
