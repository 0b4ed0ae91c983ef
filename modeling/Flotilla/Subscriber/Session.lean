import Flotilla.Bus
import Flotilla.Scheduler
import Flotilla.Subscriber.Fanout

/-!
# A session with a set of subscribers

A set of subscribers on a bus of its own, which carries the set's reports and has one reader.
A session is driven by commands; the workers, and the task that closes the set, go on only
where a command says so.
-/

namespace Flotilla.Fanout

/-- The tasks of a session. -/
inductive Task where
  | worker (i : Nat)
  | closer
  deriving DecidableEq

/-- What a task that is run is charged with: a worker may wake the one who closes the set. -/
def Task.left : Task → Nat
  | .worker _ => 3
  | .closer => 1

/-- A set of subscribers at work. -/
structure Session where
  fanout : Fanout
  bus : Bus
  /-- The one who reads the bus. -/
  reader : Reader
  /-- How far the task that closes the set is, once there is one. -/
  closing : Option Closing := none
  tasks : Scheduler Task := .empty

/-- Something asked of a session. -/
inductive Command where
  | emit (e : Event) (times : Nat)
  | release (subscriber times : Nat)
  | settle
  | shutdown
  | unknown

/-- The answer to a command. -/
inductive Reply where
  | nothing
  /-- Every worker is gone. -/
  | done
  /-- Some worker is still there. -/
  | draining
  /-- The set was closed before. -/
  | shutDown
  | unknownCommand

namespace Session

/-! ## Steps -/

/-- Offers an event to the set and publishes the reports on refusals. -/
def emit (s : Session) (e : Event) : Session :=
  { s with
    fanout := s.fanout.offer e
    bus := s.bus.publishAll (s.fanout.overflows e)
    tasks := s.tasks.wakeAll (s.fanout.wokenByOffer.map .worker) }

/-- Offers an event so many times. -/
def emitTimes (s : Session) (e : Event) : Nat → Session
  | 0 => s
  | n + 1 => emitTimes (s.emit e) e n

/-- The task being run waits or is over. -/
def park (s : Session) : Session := { s with tasks := s.tasks.park }

/-- A worker is gone; whoever awaits it goes on. -/
def workerGone (s : Session) (i : Nat) : Session :=
  if s.closing = some (.awaiting i) then { s with tasks := s.tasks.wake .closer } else s

/-- One step of a worker. -/
def work (s : Session) (i : Nat) : Session :=
  let (fanout, report, pace) := s.fanout.work i
  let s := { s with fanout, bus := s.bus.publishAll report.toList }
  match pace with
  | .again => s
  | .waits => s.park
  | .over => (s.workerGone i).park

/-- One step of the task that closes the set. -/
def close (s : Session) : Session :=
  match s.closing with
  | some .begun =>
    { s with
      fanout := s.fanout.close
      closing := some (.awaiting 0)
      tasks := s.tasks.wakeAll (s.fanout.wokenByClose.map .worker) }
  | some (.awaiting i) =>
    { s with closing := some (s.fanout.awaitFrom i), tasks := s.tasks.park }
  | _ => s.park

/-- One step of whichever task can go on; `none` when none can. -/
def step? (s : Session) : Option Session :=
  match s.tasks.running with
  | some (.worker i) => some (s.work i)
  | some .closer => some s.close
  | none => s.tasks.next?.map fun tasks => { s with tasks }

/-- What closing a set of so many subscribers takes before each worker was woken. -/
def closingLeft (n : Nat) : Option Closing → Nat
  | some .begun => 4 * n + 1
  | _ => 0

/-- What the tasks of a session have before them; every step lowers it. -/
def left (s : Session) : Nat :=
  s.fanout.left + closingLeft s.fanout.feeds.length s.closing + s.tasks.weight Task.left

/-- Runs the tasks until none can go on. -/
def settle (s : Session) : Session := runToRest step? s.left s

/-! ## Commands -/

/-- A set of subscribers whose workers wait for events. -/
def start (subscribers : List Subscriber) (busCapacity : Nat) : Session :=
  let bus := Bus.ofCapacity busCapacity
  let workers := (List.range subscribers.length).map Task.worker
  settle
    { fanout := .ofSubscribers subscribers
      bus
      reader := bus.subscribe
      tasks := (Scheduler.empty : Scheduler Task).wakeAll workers }

/-- Carries out a command. -/
def perform (s : Session) : Command → Session × Reply
  | .emit e times =>
    if s.closing.isSome then (s, .shutDown) else (s.emitTimes e times, .nothing)
  | .release subscriber times =>
    let tasks :=
      if s.fanout.wakesOnRelease subscriber times then s.tasks.wake (.worker subscriber)
      else s.tasks
    ({ s with fanout := s.fanout.release subscriber times, tasks }, .nothing)
  | .settle => (s.settle, .nothing)
  | .shutdown =>
    if s.closing.isSome then (s, .shutDown)
    else
      let s := settle { s with closing := some .begun, tasks := s.tasks.wake .closer }
      (s, if s.closing = some .finished then .done else .draining)
  | .unknown => (s, .unknownCommand)

/-- What is shown after a command: the answer, what the reader of the bus gets, and what is
seen of each subscriber. -/
structure Report where
  reply : Reply
  bus : List Reading
  seen : List (List Kept)

/-- Carries out a command and looks at the session. -/
def observe (s : Session) (c : Command) : Session × Report :=
  let (s, reply) := s.perform c
  let (bus, reader) := s.bus.drain s.reader
  ({ s with reader, fanout := s.fanout.look }, { reply, bus, seen := s.fanout.seen })

/-- The reports on commands carried out in order. -/
def reports (s : Session) : List Command → List Report
  | [] => []
  | c :: cs =>
    let (s, report) := s.observe c
    report :: reports s cs

end Session

/-- Whether a set can be made: the bus and the queues can be as large as asked for. -/
def isPossible (subscribers : List Subscriber) (busCapacity : Nat) : Bool :=
  busCapacity ≤ Bus.largestCapacity
    && subscribers.all fun s => s.places ≤ Subscriber.largestCapacity

/-- The reports on commands to a fresh set; `none` when the set cannot be made. -/
def run (subscribers : List Subscriber) (busCapacity : Nat) (commands : List Command) :
    Option (List Session.Report) :=
  if isPossible subscribers busCapacity then
    some ((Session.start subscribers busCapacity).reports commands)
  else none

end Flotilla.Fanout
