import Flotilla.Phase

/-!
# Events

What a manager tells its observers. An event has a kind, the number under which it was
published, and up to five details; which details an event carries depends on its kind. The
functions named `Event.…` after a happening build the event a manager publishes for it.
-/

namespace Flotilla

/-- What happened. -/
inductive EventKind where
  | subscriberPanicked
  | subscriberOverflow
  | stateChanged
  | shutdownRequested
  | waitingForBots
  | botQueued
  | botLaunched
  | botFinished
  | botFailed
  | botRemoved
  | quitRequested
  deriving DecidableEq

namespace EventKind

def all : List EventKind :=
  [.subscriberPanicked, .subscriberOverflow, .stateChanged, .shutdownRequested,
    .waitingForBots, .botQueued, .botLaunched, .botFinished, .botFailed, .botRemoved,
    .quitRequested]

/-- The name of a kind. -/
def label : EventKind → String
  | .subscriberPanicked => "SubscriberPanicked"
  | .subscriberOverflow => "SubscriberOverflow"
  | .stateChanged => "StateChanged"
  | .shutdownRequested => "ShutdownRequested"
  | .waitingForBots => "WaitingForBots"
  | .botQueued => "BotQueued"
  | .botLaunched => "BotLaunched"
  | .botFinished => "BotFinished"
  | .botFailed => "BotFailed"
  | .botRemoved => "BotRemoved"
  | .quitRequested => "QuitRequested"

/-- The kind with a given name. -/
def ofLabel? (text : String) : Option EventKind :=
  all.find? fun k => k.label == text

/-- Whether events of this kind report on a subscriber rather than on the fleet. -/
def isDiagnostic : EventKind → Bool
  | .subscriberPanicked | .subscriberOverflow => true
  | _ => false

theorem mem_all (k : EventKind) : k ∈ all := by
  cases k <;> decide

theorem ofLabel?_label (k : EventKind) : ofLabel? k.label = some k := by
  cases k <;> decide

end EventKind

/-- Something that happened, with its details. -/
structure Event where
  kind : EventKind
  /-- The number under which the event was published. -/
  seq : Nat := 0
  /-- The id of the bot concerned. -/
  bot : Option Nat := none
  /-- The name of the bot or subscriber concerned. -/
  name : Option String := none
  /-- Why it happened. -/
  reason : Option String := none
  /-- The phase the manager moved to. -/
  phase : Option Phase := none
  /-- How many bots are waited for. -/
  outstanding : Option Nat := none
  deriving DecidableEq

namespace Event

/-! ## Adding details -/

/-- An event of a kind, without details. -/
def of (kind : EventKind) : Event := { kind }

/-- The event with the bot concerned, by id and name. -/
def withBot (e : Event) (id : Nat) (name : String) : Event :=
  { e with bot := some id, name := some name }

def withName (e : Event) (name : String) : Event := { e with name := some name }

def withReason (e : Event) (reason : String) : Event := { e with reason := some reason }

def withPhase (e : Event) (phase : Phase) : Event := { e with phase := some phase }

def withOutstanding (e : Event) (n : Nat) : Event := { e with outstanding := some n }

/-- The event under another number. -/
def withSeq (e : Event) (seq : Nat) : Event := { e with seq }

/-! ## What a manager publishes -/

/-- The manager moved to a phase. -/
def stateChanged (phase : Phase) : Event := (of .stateChanged).withPhase phase

/-- A bot was registered before the start. -/
def botQueued (name : String) : Event := (of .botQueued).withName name

/-- A bot was launched under an id. -/
def botLaunched (id : Nat) (name : String) : Event := (of .botLaunched).withBot id name

/-- A bot ended without an error, or was never run. -/
def botFinished (id : Nat) (name : String) : Event := (of .botFinished).withBot id name

/-- A bot ended by an error. -/
def botFailed (id : Nat) (name reason : String) : Event :=
  ((of .botFailed).withReason reason).withBot id name

/-- A bot left the registry. -/
def botRemoved (id : Nat) (name : String) : Event := (of .botRemoved).withBot id name

/-- A bot was asked to quit. -/
def quitRequested (id : Nat) (name : String) : Event := (of .quitRequested).withBot id name

/-- Somebody waits for so many bots to end. -/
def waitingForBots (n : Nat) : Event := (of .waitingForBots).withOutstanding n

/-- The process was asked to end. -/
def shutdownRequested : Event := of .shutdownRequested

/-- A subscriber was not handed an event, for a reason. -/
def subscriberOverflow (subscriber reason : String) : Event :=
  ((of .subscriberOverflow).withName subscriber).withReason
    ("subscriber=" ++ subscriber ++ " reason=" ++ reason)

/-- The handler of a subscriber panicked. -/
def subscriberPanicked (subscriber info : String) : Event :=
  ((of .subscriberPanicked).withName subscriber).withReason info

end Event

end Flotilla
