import Flotilla.Subscriber.Feed

/-!
# A set of subscribers

An event is offered to every subscriber of a set. One subscriber's full queue or dead worker
is reported and does not keep the event from the others. Once the set is closed no event is
offered any more, each worker hands over what still waits for it, and whoever closed the set
awaits the workers one after another.
-/

namespace Flotilla

/-- A set of subscribers. -/
structure Fanout where
  feeds : List Feed
  /-- Whether events may still be offered. -/
  isOpen : Bool := true

/-- How far somebody is who closes a set. -/
inductive Closing where
  /-- About to close it. -/
  | begun
  /-- Waiting for the worker with this number. -/
  | awaiting (worker : Nat)
  /-- Every worker is gone. -/
  | finished
  deriving DecidableEq

namespace Fanout

/-- A set of fresh subscribers. -/
def ofSubscribers (subscribers : List Subscriber) : Fanout :=
  { feeds := subscribers.map fun s => { subscriber := s } }

/-- Whether a set has no subscribers. -/
def isEmpty (s : Fanout) : Bool := s.feeds.isEmpty

/-- The numbers of the feeds for which a test holds. -/
def indicesWhere (s : Fanout) (p : Feed → Bool) : List Nat :=
  s.feeds.zipIdx.filterMap fun x => if p x.1 then some x.2 else none

/-! ## Offering an event -/

/-- The set after an event was offered to every subscriber. -/
def offer (s : Fanout) (e : Event) : Fanout :=
  { s with feeds := s.feeds.map fun f => f.offer e }

/-- The reports on the refusals of an event, in the order of the subscribers. -/
def overflows (s : Fanout) (e : Event) : List Event :=
  s.feeds.filterMap fun f => f.overflow? e

/-- The workers that an event offered now wakes. -/
def wokenByOffer (s : Fanout) : List Nat := s.indicesWhere Feed.wakesOnOffer

/-! ## Working, closing and awaiting -/

/-- One step of a worker: the set after it, a report it publishes, and how its turn
continues. -/
def work (s : Fanout) (worker : Nat) : Fanout × Option Event × Pace :=
  match s.feeds[worker]? with
  | none => (s, none, .over)
  | some f =>
    let (f', report, pace) := f.work s.isOpen
    ({ s with feeds := s.feeds.set worker f' }, report, pace)

/-- Offers no more events. -/
def close (s : Fanout) : Fanout :=
  { feeds := s.feeds.map fun f => { f with worker := f.worker.rouse }, isOpen := false }

/-- The workers that closing the set wakes. -/
def wokenByClose (s : Fanout) : List Nat := s.indicesWhere fun f => f.worker == .idle

/-- The first worker from a number on that is not gone. -/
def firstAt? (s : Fanout) (worker : Nat) : Option Nat :=
  (s.indicesWhere fun f => !f.worker.isGone).find? (worker ≤ ·)

/-- What somebody awaits who has awaited the workers before a number. -/
def awaitFrom (s : Fanout) (worker : Nat) : Closing :=
  match s.firstAt? worker with
  | some next => .awaiting next
  | none => .finished

/-- What the feeds of a set have before them. -/
def left (s : Fanout) : Nat := s.feeds.foldr (fun f n => f.left + n) 0

/-! ## Permits and looking -/

/-- Adds permits to a subscriber. -/
def release (s : Fanout) (subscriber times : Nat) : Fanout :=
  { s with feeds := s.feeds.modify subscriber fun f => f.releaseTimes times }

/-- Whether permits added to a subscriber wake its worker. -/
def wakesOnRelease (s : Fanout) (subscriber times : Nat) : Bool :=
  times != 0 && (s.feeds[subscriber]?.map Feed.isBlocked).getD false

/-- What is seen of each subscriber since somebody last looked. -/
def seen (s : Fanout) : List (List Kept) := s.feeds.map Feed.seen

/-- The set after somebody looked. -/
def look (s : Fanout) : Fanout := { s with feeds := s.feeds.map Feed.look }

@[simp] theorem length_feeds_offer (s : Fanout) (e : Event) :
    (s.offer e).feeds.length = s.feeds.length := by
  simp [offer]

theorem getElem?_feeds_offer (s : Fanout) (e : Event) (i : Nat) :
    (s.offer e).feeds[i]? = s.feeds[i]?.map fun f => f.offer e := by
  simp [offer]

end Fanout

end Flotilla
