import Flotilla.Failure
import Flotilla.Liveness
import Flotilla.Permits

/-!
# Scripted bots

A bot is one object that may be registered any number of times, with any number of managers;
what is counted of it is counted over all its runs. What its runs do is scripted by a `Plan`:
the calls a run makes, whether it then waits for a permit, and how it ends. A bot is either
made to measure, and then the plan also says when it reports itself as connected, or made from
a function, and then it is connected exactly while it runs.
-/

namespace Flotilla

/-- One run of a bot: the manager that launched it and the id it was given. -/
structure RunName where
  manager : Nat
  id : Nat
  deriving DecidableEq

/-- Something asked of a manager or of a bot. -/
inductive Call where
  | add (manager bot : Nat)
  | start (manager : Nat)
  | stop (manager : Nat)
  | phase (manager : Nat)
  | queued (manager : Nat)
  | inFlight (manager : Nat)
  | number (manager : Nat)
  | ids (manager : Nat)
  /-- The written form of each handle. -/
  | handles (manager : Nat)
  /-- The two capacities among the settings. -/
  | capacities (manager : Nat)
  /-- Of each handle, whether it is one to the bot. -/
  | wraps (manager bot : Nat)
  /-- Adds a permit to a bot, after replacing its ending if one is given. -/
  | finish (bot : Nat) (ending : Option Ending)
  | unknown (manager : Nat)

/-- What a manager asks a bot. -/
inductive Method where
  | name
  | quit
  | isConnected
  deriving DecidableEq

/-- The name of a question. -/
def Method.label : Method → String
  | .name => "name"
  | .quit => "quit"
  | .isConnected => "is_connected"

/-- How a bot is made. -/
inductive Make where
  /-- Made to measure: whether the bot reports itself as connected from the beginning, whether
  a run that begins reports it as connected, and whether a run that ends reports it as not
  connected. -/
  | custom (connected connects disconnects : Bool)
  /-- Made from a function; an eager one that is to end by a panic does so before its work
  begins. -/
  | closure (eager : Bool)

/-- The script of a bot. -/
structure Plan where
  name : String
  make : Make
  /-- Whether a run waits for a permit before it ends. -/
  waits : Bool
  /-- Whether the bot heeds a request to quit. -/
  quittable : Bool
  /-- What a run calls before it waits. -/
  calls : List Call

/-- A bot. -/
structure Bot where
  plan : Plan
  /-- How a run that comes to its end now ends. -/
  ending : Ending
  liveness : Liveness RunName := {}
  permits : Permits RunName := { free := 0 }
  /-- How many runs began their work. -/
  runs : Nat := 0
  /-- How many requests to quit were counted. -/
  quits : Nat := 0
  /-- The questions that make the bot panic. -/
  armed : List Method := []

namespace Bot

instance : Inhabited Bot where
  default :=
    { plan := ⟨"", .custom false false false, false, false, []⟩
      ending := .ok }

/-- A bot that was never run. -/
def build (plan : Plan) (ending : Ending) : Bot :=
  { plan
    ending
    liveness :=
      match plan.make with
      | .custom connected _ _ => { connected }
      | .closure _ => {} }

/-- Whether the bot is made from a function. -/
def isClosure (b : Bot) : Bool :=
  match b.plan.make with
  | .closure _ => true
  | .custom _ _ _ => false

/-- Makes the bot panic when it is asked a question; a bot made from a function never does. -/
def arm (b : Bot) (what : Method) : Bot :=
  if b.isClosure then b else { b with armed := what :: b.armed }

/-- Lets the bot answer a question again. -/
def disarm (b : Bot) (what : Method) : Bot :=
  { b with armed := b.armed.filter (· ≠ what) }

/-- Whether a run panics before its work begins. -/
def panicsEagerly (b : Bot) : Bool :=
  match b.plan.make with
  | .closure eager => eager && b.ending.isPanic
  | .custom _ _ _ => false

/-- What a run that is called does to the bot's report on being connected. -/
def enter (b : Bot) : Bot :=
  match b.plan.make with
  | .closure _ | .custom _ true _ => { b with liveness := b.liveness.connect }
  | .custom _ false _ => b

/-- What a run that ends does to the bot's report on being connected. -/
def exit (b : Bot) : Bot :=
  match b.plan.make with
  | .closure _ | .custom _ _ true => { b with liveness := b.liveness.disconnect }
  | .custom _ _ false => b

end Bot

end Flotilla
