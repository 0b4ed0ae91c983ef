/-!
# Log lines

A log line has a level, a message and structured fields. A line written while a bot is being
run also names that run, its *span*.
-/

namespace Flotilla

/-- How much a log line matters. -/
inductive Level where
  | debug
  | info
  | warn
  | error

/-- The name of a level. -/
def Level.label : Level → String
  | .debug => "DEBUG"
  | .info => "INFO"
  | .warn => "WARN"
  | .error => "ERROR"

/-- The value of a field. -/
inductive FieldValue where
  | text (s : String)
  | number (n : Nat)

/-- The run of a bot within which something happened. -/
structure Span where
  /-- The number of the manager. -/
  pool : Nat
  /-- The id of the bot. -/
  id : Nat
  /-- The name of the bot. -/
  name : String

/-- One line of a log. -/
structure LogLine where
  level : Level
  message : String
  fields : List (String × FieldValue) := []
  span : Option Span := none
  /-- The topic of the line, where it is not the program's own running. -/
  target : Option String := none

end Flotilla
