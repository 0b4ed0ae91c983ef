import Flotilla.Subscriber

/-!
# The queue and the worker of one subscriber

Each subscriber has a bounded queue and a worker that takes events out of it one at a time
and hands them over. An event that is being handled is no longer in the queue. A panic within
the handler's work is reported and the worker goes on; a panic of the call itself ends the
worker, and the events still waiting are lost.
-/

namespace Flotilla

/-- Where a worker is. -/
inductive Worker where
  /-- About to take the next event. -/
  | taking
  /-- Waiting for an event. -/
  | idle
  /-- Waiting for a permit to keep an event. -/
  | blocked (e : Event)
  /-- Given the permit to keep an event. -/
  | permitted (e : Event)
  /-- Done: no more events will come. -/
  | ended
  /-- Ended by a panic. -/
  | dead
  deriving DecidableEq

namespace Worker

/-- Whether the worker takes no more events. -/
def isGone : Worker → Bool
  | .ended | .dead => true
  | _ => false

/-- A worker that was given a permit has an event to keep. -/
def effort : Worker → Nat
  | .permitted _ => 1
  | _ => 0

/-- A worker that waits for an event is to look again. -/
def rouse : Worker → Worker
  | .idle => .taking
  | w => w

end Worker

/-- A subscriber with its queue and its worker. -/
structure Feed where
  subscriber : Subscriber
  /-- Events accepted and not yet handed over. -/
  queue : List Event := []
  worker : Worker := .taking
  /-- Every event handed over, in order. -/
  handed : Array Event := #[]
  /-- Permits nobody has taken. -/
  permits : Nat := 0
  /-- Events kept since somebody last looked. -/
  kept : Array Event := #[]

/-- Why an event is not accepted. -/
inductive Refusal where
  | full
  | closed

/-- The wording of a refusal. -/
def Refusal.message : Refusal → String
  | .full => "full"
  | .closed => "closed"

/-- How a worker's turn continues. -/
inductive Pace where
  /-- It goes on at once. -/
  | again
  /-- It waits. -/
  | waits
  /-- It is over. -/
  | over
  deriving DecidableEq

/-- What somebody who looks at a subscriber sees. -/
inductive Kept where
  | event (e : Event)
  | count (n : Nat)

namespace Feed

/-! ## Accepting events -/

/-- Why an event offered now would be refused, if it would. -/
def refusal? (f : Feed) : Option Refusal :=
  if f.worker.isGone then some .closed
  else if f.subscriber.places ≤ f.queue.length then some .full
  else none

/-- The feed after an event was offered to it. -/
def offer (f : Feed) (e : Event) : Feed :=
  match f.refusal? with
  | some _ => f
  | none => { f with queue := f.queue ++ [e], worker := f.worker.rouse }

/-- Whether an event offered now wakes the worker. -/
def wakesOnOffer (f : Feed) : Bool :=
  f.refusal?.isNone && f.worker == .idle

/-- The report on an event that is refused. A refused report on a refusal is not itself
reported. -/
def overflow? (f : Feed) (e : Event) : Option Event :=
  if e.kind = .subscriberOverflow then none
  else f.refusal?.map fun r => Event.subscriberOverflow f.subscriber.name r.message

/-! ## Handing events over -/

/-- Keeps an event and looks for the next one. -/
def keep (f : Feed) (e : Event) : Feed :=
  { f with kept := f.kept.push e, worker := .taking }

/-- The number of the next call of the handler. -/
def calls (f : Feed) : Nat := f.handed.size

/-- The worker hands the first waiting event over. -/
def handOver (f : Feed) (e : Event) (later : List Event) : Feed × Option Event × Pace :=
  let begun := { f with queue := later, handed := f.handed.push e }
  match f.subscriber.treatment f.calls with
  | .keep => (begun.keep e, none, .again)
  | .awaitPermit =>
    if f.permits = 0 then ({ begun with worker := .blocked e }, none, .waits)
    else ({ begun.keep e with permits := f.permits - 1 }, none, .again)
  | .panic payload =>
    (begun, some (.subscriberPanicked f.subscriber.name payload.message), .again)
  | .panicAtOnce => ({ begun with queue := [], worker := .dead }, none, .over)

/-- One step of the worker: the feed after it, a report it publishes, and how its turn
continues. `isOpen` says whether events may still come. -/
def work (f : Feed) (isOpen : Bool) : Feed × Option Event × Pace :=
  match f.worker with
  | .taking =>
    match f.queue with
    | e :: later => f.handOver e later
    | [] =>
      if isOpen then ({ f with worker := .idle }, none, .waits)
      else ({ f with worker := .ended }, none, .over)
  | .permitted e => (f.keep e, none, .again)
  | _ => (f, none, .waits)

/-- What a feed has before it: the events that wait, and one that it was given a permit for. -/
def left (f : Feed) : Nat := f.queue.length + f.worker.effort

/-! ## Permits -/

/-- Adds a permit; a worker that waits for one gets it. -/
def release (f : Feed) : Feed :=
  match f.worker with
  | .blocked e => { f with worker := .permitted e }
  | _ => { f with permits := f.permits + 1 }

/-- Adds permits. -/
def releaseTimes (f : Feed) : Nat → Feed
  | 0 => f
  | n + 1 => releaseTimes f.release n

/-- Whether the worker waits for a permit. -/
def isBlocked (f : Feed) : Bool :=
  match f.worker with
  | .blocked _ => true
  | _ => false

/-! ## Looking -/

/-- What is seen of the subscriber since somebody last looked. -/
def seen (f : Feed) : List Kept :=
  match f.subscriber.handling with
  | .count => if f.kept.isEmpty then [] else [.count f.kept.size]
  | _ => f.kept.toList.map .event

/-- The feed after somebody looked. -/
def look (f : Feed) : Feed := { f with kept := #[] }

end Feed

end Flotilla
