import Flotilla.Fleet.Manager
import Flotilla.Log
import Flotilla.Scheduler

/-!
# The state of a fleet

Managers, the bots they share, those who wait for a manager to come to its end, and the one
thread on which all their tasks run. This module holds the state and the small changes that
everything else is made of: waking a task, publishing an event, writing a log line, handing a
slot on.
-/

namespace Flotilla

/-! ## Waiting for a manager -/

/-- A signal that asks the process to end. -/
inductive Signal where
  | term
  | int
  | quit

/-- The name of a signal. -/
def Signal.label : Signal → String
  | .term => "SIGTERM"
  | .int => "SIGINT"
  | .quit => "SIGQUIT"

/-- Why a call stops short of its end. -/
inductive Halt where
  | refused (e : ManagerError)
  | panicked (text : String)

/-- How waiting came to its end. -/
inductive WaitResult where
  | ok
  | halted (h : Halt)
  | aborted

/-- Where the task of a waiter is. -/
inductive WaitStage where
  /-- Its turn has not come. -/
  | submitted
  /-- It started the fleet and waits for a signal. -/
  | listening
  /-- It got a signal; its turn has not come since. -/
  | signalled (s : Signal)
  /-- It stopped the fleet and waits for the bots, to report again when the clock shows `due`. -/
  | polling (due : Nat)
  | over (result : WaitResult)

/-- Whether the task of a waiter is over. -/
def WaitStage.isOver : WaitStage → Bool
  | .over _ => true
  | _ => false

/-- What a waiter does first. -/
inductive Purpose where
  /-- Stops the fleet. -/
  | stop
  /-- Starts the fleet, and stops it at a signal. -/
  | untilSignal
  deriving DecidableEq

/-- Somebody who waits until every bot of a manager ended. The manager is held until then. -/
structure Wait where
  manager : Nat
  purpose : Purpose
  /-- The time between two reports. -/
  poll : Duration
  /-- Whether there is a token to give up by. -/
  cancellable : Bool
  /-- Whether the token was cancelled. -/
  cancelled : Bool := false
  /-- Whether the task is to be dropped when its turn comes. -/
  aborted : Bool := false
  stage : WaitStage := .submitted

instance : Inhabited Wait :=
  ⟨{ manager := 0, purpose := .stop, poll := ⟨0⟩, cancellable := false, stage := .over .ok }⟩

/-- A waiter's next report. -/
structure Timer where
  wait : Nat
  /-- When it is due, in milliseconds. -/
  due : Nat

/-! ## Notes -/

/-- The answer to a call. -/
inductive Reply where
  | nothing
  | done
  | halted (h : Halt)
  | phase (p : Phase)
  | count (n : Nat)
  | ids (ids : List Nat)
  | texts (ts : List String)
  | capacities (maxConcurrent busCapacity : Nat)
  | flags (bs : List Bool)
  | noManager
  | unknownCall

/-- The answer to a call that may stop short. -/
def Reply.ofHalt : Option Halt → Reply
  | none => .done
  | some h => .halted h

/-- What a scripted run notes down. -/
inductive Note where
  /-- A run began its work. -/
  | ran (bot id : Nat) (span : Span)
  /-- A run made a call and got an answer. -/
  | called (bot : Nat) (reply : Reply)

/-! ## The fleet -/

/-- The tasks of a fleet. -/
inductive Task where
  /-- Runs a launched bot. -/
  | bot (run : RunName)
  | wait (w : Nat)
  /-- Reads a manager's bus for its subscribers. -/
  | listener (manager : Nat)
  /-- Hands events to a subscriber of a manager. -/
  | worker (manager subscriber : Nat)
  /-- Gives permits to bots that were asked to quit. -/
  | dismissal
  deriving DecidableEq

/-- Where the task is that gives permits to bots asked to quit. -/
inductive DismissalStage where
  /-- Waiting to be told of a bot. -/
  | asleep
  /-- Told of one. -/
  | told
  /-- Back at the end of the line, to act at its next turn. -/
  | deferred
  deriving DecidableEq

/-- The bots that were asked to quit and are to be given a permit each. -/
structure Dismissal where
  bots : List Nat := []
  /-- Whether it was told of a bot while it was awake. -/
  again : Bool := false
  stage : DismissalStage := .asleep

/-- A fleet at work. -/
structure Fleet where
  managers : List Manager
  bots : List Bot
  waits : List Wait := []
  /-- The reports to come, in the order in which their timers were set. -/
  timers : List Timer := []
  dismissal : Dismissal := {}
  /-- The time in milliseconds. -/
  clock : Nat := 0
  tasks : Scheduler Task := .empty
  /-- Every log line, in order. -/
  logs : Array LogLine := #[]
  /-- Everything noted down, in order. -/
  notes : Array Note := #[]

namespace Fleet

/-! ## Parts -/

def manager (f : Fleet) (m : Nat) : Manager := f.managers.getD m default

def bot (f : Fleet) (b : Nat) : Bot := f.bots.getD b default

def wait (f : Fleet) (w : Nat) : Wait := f.waits.getD w default

/-- The launch behind a run. -/
def launch (f : Fleet) (r : RunName) : Launch := (f.manager r.manager).launches.getD r.id default

def modifyManager (f : Fleet) (m : Nat) (g : Manager → Manager) : Fleet :=
  { f with managers := f.managers.modify m g }

def modifyBot (f : Fleet) (b : Nat) (g : Bot → Bot) : Fleet :=
  { f with bots := f.bots.modify b g }

def modifyWait (f : Fleet) (w : Nat) (g : Wait → Wait) : Fleet :=
  { f with waits := f.waits.modify w g }

/-- Moves a launch to another stage. -/
def setStage (f : Fleet) (r : RunName) (stage : Stage) : Fleet :=
  f.modifyManager r.manager fun m => m.modifyLaunch r.id fun l => { l with stage }

/-- Whether the owner has a manager of this number. -/
def isOwned (f : Fleet) (m : Nat) : Bool := (f.managers[m]?.map Manager.owned).getD false

/-- Whether somebody has the manager: its owner, or a waiter. -/
def isHeld (f : Fleet) (m : Nat) : Bool :=
  f.isOwned m || f.waits.any fun w => w.manager == m && !w.stage.isOver

/-! ## Tasks -/

/-- Lets a task go on when its turn comes. -/
def wake (f : Fleet) (t : Task) : Fleet := { f with tasks := f.tasks.wake t }

def wakeAll (f : Fleet) (ts : List Task) : Fleet := { f with tasks := f.tasks.wakeAll ts }

/-- The task being run waits or is over. -/
def park (f : Fleet) : Fleet := { f with tasks := f.tasks.park }

/-- Wakes the task that reads a manager's bus, if it waits for something to do. -/
def wakeListener (f : Fleet) (m : Nat) : Fleet :=
  if (f.manager m).listenerIsIdle then
    (f.modifyManager m fun mgr => mgr.modifyRelay fun r => { r with listening := .reading }).wake
      (.listener m)
  else f

/-! ## Telling -/

/-- Writes a log line. -/
def say (f : Fleet) (level : Level) (message : String) (fields : List (String × FieldValue))
    (span : Option Span) : Fleet :=
  { f with logs := f.logs.push { level, message, fields, span } }

/-- Notes something down. -/
def note (f : Fleet) (n : Note) : Fleet := { f with notes := f.notes.push n }

/-- Publishes an event on a manager's bus. -/
def publish (f : Fleet) (m : Nat) (e : Event) : Fleet :=
  (f.modifyManager m fun mgr => { mgr with bus := mgr.bus.publish e }).wakeListener m

def publishAll (f : Fleet) (m : Nat) (es : List Event) : Fleet :=
  es.foldl (fun f e => f.publish m e) f

/-- The field that names the manager in a log line. -/
def numberField (f : Fleet) (m : Nat) : String × FieldValue :=
  ("manager", .number (f.manager m).number)

/-- The fields that name a launched bot in a log line. -/
def botFields (id : Nat) (name : String) : List (String × FieldValue) :=
  [("bot", .text (toString id)), ("name", .text name)]

/-! ## Asking a bot -/

/-- The panic of a bot that is asked a question, if that makes it panic. -/
def panicOf? (f : Fleet) (b : Nat) (what : Method) : Option String :=
  if what ∈ (f.bot b).armed then some (what.label ++ " of bot " ++ toString b) else none

/-- The name of a bot, or its panic. -/
def askName (f : Fleet) (b : Nat) : Except String String :=
  match f.panicOf? b .name with
  | some text => .error text
  | none => .ok (f.bot b).plan.name

/-! ## Permits and slots -/

/-- Adds a permit to a bot and wakes the run that gets it. -/
def addPermit (f : Fleet) (b : Nat) : Fleet :=
  match (f.bot b).permits.release with
  | (permits, none) => f.modifyBot b fun bot => { bot with permits }
  | (permits, some r) =>
    let stage : Stage :=
      match (f.launch r).stage with
      | .waiting heedsQuit => .permitted heedsQuit
      | other => other
    ((f.modifyBot b fun bot => { bot with permits }).setStage r stage).wake (.bot r)

/-- Frees a slot of a manager's pool and wakes the launch that gets it. -/
def releaseSlot (f : Fleet) (m : Nat) : Fleet :=
  match (f.manager m).slots with
  | none => f
  | some p =>
    match p.release with
    | (p, none) => f.modifyManager m fun mgr => { mgr with slots := some p }
    | (p, some id) =>
      ((f.modifyManager m fun mgr => { mgr with slots := some p }).setStage ⟨m, id⟩ .offered).wake
        (.bot ⟨m, id⟩)

/-- Sets a bot aside to be given a permit, and tells the task that gives it. -/
def dismiss (f : Fleet) (b : Nat) : Fleet :=
  let d := { f.dismissal with bots := f.dismissal.bots ++ [b] }
  match d.stage with
  | .asleep => { f with dismissal := { d with stage := .told } }.wake .dismissal
  | _ => { f with dismissal := { d with again := true } }

end Fleet

end Flotilla
