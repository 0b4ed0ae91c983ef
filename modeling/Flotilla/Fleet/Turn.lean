import Flotilla.Fleet.Delivery
import Flotilla.Fleet.Waiting

/-!
# Turns and time

A step of the fleet is a step of the task whose turn it is. The fleet is settled when no task
can go on; time passes only then.
-/

namespace Flotilla.Fleet

/-! ## Dismissals -/

/-- Gives each bot of a list a permit. -/
def addPermits (f : Fleet) (bots : List Nat) : Fleet := bots.foldl addPermit f

/-- One step of the task that gives permits to bots asked to quit. Told of a bot, it goes once
more to the end of the line, so that everything else that can go on comes first; then it gives
the permits in the order of the bots. -/
def stepDismissal (f : Fleet) : Fleet :=
  let d := f.dismissal
  match d.stage with
  | .asleep => f.park
  | .told => ({ f with dismissal := { d with stage := .deferred } }.wake .dismissal).park
  | .deferred =>
    if d.again then
      (({ f with dismissal := { stage := .deferred } }.addPermits (d.bots.mergeSort)).wake
        .dismissal).park
    else ({ f with dismissal := {} }.addPermits (d.bots.mergeSort)).park

/-! ## Turns -/

/-- One step of a task. -/
def stepTask (f : Fleet) : Task → Fleet
  | .bot r => f.stepBot r
  | .wait w => f.stepWait w
  | .listener m => f.stepListener m
  | .worker m i => f.stepWorker m i
  | .dismissal => f.stepDismissal

/-- One step of the task being run, or the first task in line gets its turn; `none` when no
task can go on. -/
def step? (f : Fleet) : Option Fleet :=
  match f.tasks.running with
  | some t => some (f.stepTask t)
  | none => f.tasks.next?.map fun tasks => { f with tasks }

/-- Runs the tasks until none can go on. -/
def settle (f : Fleet) : Fleet := runToRest step? restBudget f

/-! ## Time -/

/-- The earliest time after now and not after a limit at which a timer is due. -/
def nextDue? (f : Fleet) (limit : Nat) : Option Nat :=
  ((f.timers.map Timer.due).filter fun due => f.clock < due && due ≤ limit).min?

/-- Sets the clock, and wakes the waiters whose timers are due in the order in which the
timers were set. -/
def strike (f : Fleet) (time : Nat) : Fleet :=
  let due := f.timers.filter fun t => t.due ≤ time
  let f := { f with clock := time }
  f.wakeAll (due.map fun t => Task.wait t.wait)

/-- Lets the clock run to a limit, one due time after another, each settled before the next.
There are at most as many due times as milliseconds. -/
def runClock (limit : Nat) : Nat → Fleet → Fleet
  | 0, f => f
  | n + 1, f =>
    match f.nextDue? limit with
    | none => f
    | some due => runClock limit n (f.strike due).settle

/-- Lets so many milliseconds pass. -/
def sleep (f : Fleet) (millis : Nat) : Fleet :=
  let limit := f.clock + millis
  { runClock limit millis f.settle with clock := limit }

end Flotilla.Fleet
