import Flotilla.Failure
import Flotilla.Liveness
import Flotilla.Permits
import Flotilla.Scheduler

/-!
# A bot made from a function

A bot that is nothing but a function reports itself as connected while it runs, and hands the
function a token that is cancelled when the bot is asked to quit. The bot can be run any
number of times, also several times at once; its runs share the flag and the token. Here the
function is scripted, and the runs of one bot are driven by commands.
-/

namespace Flotilla.Closure

/-- What the function does before it ends. -/
inductive Behaviour where
  /-- Ends at once. -/
  | atOnce
  /-- Waits to be asked to quit. -/
  | awaitQuit
  /-- Waits for a permit. -/
  | awaitPermit
  /-- Asks its own bot to quit. -/
  | cancelSelf
  /-- If it is to end by a panic, panics before its work begins. -/
  | eager
  deriving DecidableEq

/-- How a run came to its end. -/
inductive Outcome where
  | ok
  | failed (e : BotError)
  | aborted
  | panicked

/-- Where a run is. -/
inductive Stage where
  /-- Not begun. -/
  | submitted
  /-- Waiting to be asked to quit. -/
  | awaitingQuit
  /-- Waiting for a permit. -/
  | awaitingPermit
  /-- Given a permit. -/
  | permitted
  | over (outcome : Outcome)

/-- One run of the bot. -/
structure Run where
  /-- The id the run was given. -/
  id : Nat
  stage : Stage := .submitted
  /-- Whether the run is to be dropped when its turn comes. -/
  aborted : Bool := false

/-- A bot with its runs, which are known by their number. -/
structure State where
  name : String
  behaviour : Behaviour
  /-- How a run that comes to its end now ends. -/
  ending : Ending
  liveness : Liveness Nat := {}
  permits : Permits Nat := { free := 0 }
  runs : List Run := []
  /-- For each run begun: its id, and whether the bot had been asked to quit by then. -/
  begun : List (Nat × Bool) := []
  tasks : Scheduler Nat := .empty

/-- Something asked of a bot. -/
inductive Command where
  | run (id : Nat)
  | quit
  /-- Adds a permit, after replacing the ending if one is given. -/
  | finish (ending : Option Ending)
  | abort (run : Nat)
  | settle
  | unknown

/-- The answer to a command. -/
inductive Reply where
  | nothing
  | noRun
  | unknownCommand

/-- Whether a run has come to its end. -/
def Stage.isOver : Stage → Bool
  | .over _ => true
  | _ => false

/-- Whether a run has begun and not come to its end. -/
def Stage.isBegun : Stage → Bool
  | .submitted | .over _ => false
  | _ => true

/-- The end a run comes to by itself. -/
def Outcome.ofEnding : Ending → Outcome
  | .ok => .ok
  | .error e => .failed e
  | .panic _ => .panicked

namespace State

/-! ## Steps of a run -/

/-- Moves a run to another stage. -/
def setStage (s : State) (r : Nat) (stage : Stage) : State :=
  { s with runs := s.runs.modify r fun run => { run with stage } }

/-- The run waits, or is over. -/
def park (s : State) : State := { s with tasks := s.tasks.park }

/-- A run comes to its end; the bot no longer reports itself as connected. -/
def endRun (s : State) (r : Nat) (outcome : Outcome) : State :=
  ({ s with liveness := s.liveness.disconnect }.setStage r (.over outcome)).park

/-- A run ends the way the script says. -/
def finishRun (s : State) (r : Nat) : State := s.endRun r (.ofEnding s.ending)

/-- Adds a permit and wakes the run that gets it. -/
def addPermit (s : State) : State :=
  match s.permits.release with
  | (permits, some r) =>
    { s with permits, tasks := s.tasks.wake r }.setStage r .permitted
  | (permits, none) => { s with permits }

/-- Asks the bot to quit. -/
def quit (s : State) : State :=
  { s with
    liveness := s.liveness.quit
    tasks := s.tasks.wakeAll s.liveness.wokenByQuit }

/-- The run begins. -/
def beginRun (s : State) (r id : Nat) : State :=
  let s := { s with
    liveness := s.liveness.connect
    begun := s.begun ++ [(id, s.liveness.quitRequested)] }
  match s.behaviour with
  | .atOnce | .eager => s.finishRun r
  | .cancelSelf => s.quit.finishRun r
  | .awaitQuit =>
    if s.liveness.quitRequested then s.finishRun r
    else ({ s with liveness := s.liveness.watch r }.setStage r .awaitingQuit).park
  | .awaitPermit =>
    match s.permits.acquire r with
    | (permits, true) => { s with permits }.finishRun r
    | (permits, false) => ({ s with permits }.setStage r .awaitingPermit).park

/-- Drops a run at its turn: what it waited for or was given it leaves to others. -/
def dropRun (s : State) (r : Nat) (stage : Stage) : State :=
  match stage with
  | .submitted => (s.setStage r (.over .aborted)).park
  | .awaitingQuit => { s with liveness := s.liveness.unwatch r }.endRun r .aborted
  | .awaitingPermit => { s with permits := s.permits.leave r }.endRun r .aborted
  | .permitted => s.addPermit.endRun r .aborted
  | .over _ => s.park

/-- One step of the run whose turn it is. -/
def advance (s : State) (r : Nat) : State :=
  match s.runs[r]? with
  | none => s.park
  | some run =>
    if run.aborted then s.dropRun r run.stage
    else
      match run.stage with
      | .submitted => s.beginRun r run.id
      | .awaitingQuit =>
        if s.liveness.quitRequested then
          { s with liveness := s.liveness.unwatch r }.finishRun r
        else s.park
      | .permitted => s.finishRun r
      | .awaitingPermit | .over _ => s.park

/-- One step of whichever run can go on; `none` when none can. -/
def step? (s : State) : Option State :=
  match s.tasks.running with
  | some r => some (s.advance r)
  | none => s.tasks.next?.map fun tasks => { s with tasks }

/-- Runs until no run can go on. -/
def settle (s : State) : State := runToRest step? restBudget s

/-! ## Commands -/

/-- Carries out a command. -/
def perform (s : State) : Command → State × Reply
  | .run id =>
    ({ s with runs := s.runs ++ [{ id }], tasks := s.tasks.wake s.runs.length }, .nothing)
  | .quit => (s.quit, .nothing)
  | .finish ending => ({ s with ending := ending.getD s.ending }.addPermit, .nothing)
  | .abort r =>
    match s.runs[r]? with
    | none => (s, .noRun)
    | some run =>
      if run.stage.isOver then (s, .nothing)
      else
        ({ s with
            runs := s.runs.modify r fun run => { run with aborted := true }
            tasks := s.tasks.wake r }, .nothing)
  | .settle => (s.settle, .nothing)
  | .unknown => (s, .unknownCommand)

/-- What is shown after a command. -/
structure Report where
  connected : Bool
  quitRequested : Bool
  /-- How each run came to its end, if it did. -/
  runs : List (Option Outcome)
  begun : List (Nat × Bool)
  reply : Reply

/-- How a run came to its end, if it did. -/
def outcome? (run : Run) : Option Outcome :=
  match run.stage with
  | .over outcome => some outcome
  | _ => none

/-- Carries out a command and looks at the bot. -/
def observe (s : State) (c : Command) : State × Report :=
  let (s, reply) := s.perform c
  ({ s with begun := [] },
    { connected := s.liveness.connected
      quitRequested := s.liveness.quitRequested
      runs := s.runs.map outcome?
      begun := s.begun
      reply })

/-- The reports on commands carried out in order. -/
def reports (s : State) : List Command → List Report
  | [] => []
  | c :: cs =>
    let (s, report) := s.observe c
    report :: reports s cs

end State

end Flotilla.Closure
