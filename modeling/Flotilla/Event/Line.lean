import Flotilla.Event
import Flotilla.Log
import Flotilla.Text.Quoted

/-!
# Events as log lines

One line for each event: its kind in square brackets, then the details that belong to the
kind as `key=value`. The name of a bot stands in quotes, so that it cannot be taken for
anything else; a reason stands last and as it is.
-/

namespace Flotilla.Event

/-- The topic of the lines written for events. -/
def lineTarget : String := "fleetvisor::events"

/-- A text, or the word for one that is missing. -/
def orUnknown (text : Option String) : String := text.getD "unknown"

/-- The id of the bot concerned, or a dash. -/
def botText (e : Event) : String :=
  match e.bot with
  | some id => toString id
  | none => "-"

/-- The name of the bot concerned, in quotes. -/
def quotedName (e : Event) : String := Text.quoted (orUnknown e.name)

/-- What a line says of a launched bot. -/
def botDetails (e : Event) : String := " bot=" ++ e.botText ++ " name=" ++ e.quotedName

/-- The word for a kind that a line begins with. -/
def tag : EventKind → String
  | .stateChanged => "state"
  | .shutdownRequested => "shutdown-requested"
  | .waitingForBots => "waiting"
  | .botQueued => "queued"
  | .botLaunched => "launched"
  | .botFinished => "finished"
  | .botFailed => "failed"
  | .botRemoved => "removed"
  | .quitRequested => "quit"
  | .subscriberOverflow => "subscriber-overflow"
  | .subscriberPanicked => "subscriber-panicked"

/-- What the line for an event says after the kind. -/
def lineDetails (e : Event) : String :=
  match e.kind with
  | .stateChanged => " state=" ++ orUnknown (e.phase.map Phase.label)
  | .shutdownRequested => ""
  | .waitingForBots => " outstanding=" ++ toString (e.outstanding.getD 0)
  | .botQueued => " bot=" ++ e.quotedName
  | .botLaunched | .botFinished | .botRemoved | .quitRequested => e.botDetails
  | .botFailed => e.botDetails ++ " err=" ++ orUnknown e.reason
  | .subscriberOverflow =>
    " subscriber=" ++ orUnknown e.name ++ " reason=" ++ orUnknown e.reason
  | .subscriberPanicked =>
    " subscriber=" ++ orUnknown e.name ++ " info=" ++ orUnknown e.reason

/-- The text of the line for an event. -/
def lineMessage (e : Event) : String := "[" ++ tag e.kind ++ "]" ++ e.lineDetails

/-- The level of the line for an event of a kind. -/
def lineLevel : EventKind → Level
  | .botFailed | .subscriberOverflow => .warn
  | .subscriberPanicked => .error
  | _ => .info

/-- The log line for an event. -/
def line (e : Event) : LogLine :=
  { level := lineLevel e.kind, message := e.lineMessage, target := some lineTarget }

/-- The name under which events are written to the log. -/
def lineWriterName : String := "LogWriter"

/-- How many events may wait to be written. -/
def lineWriterCapacity : Nat := 1024

end Flotilla.Event
