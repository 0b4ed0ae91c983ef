import Flotilla.Event

/-!
# The event bus

A bus numbers the events published on it from zero and keeps the latest of them in a ring,
whose size is the requested capacity rounded up to a power of two. A reader remembers the
number of the event it reads next. Reading never takes an event away from another reader;
a reader that is further behind than the ring holds is told how many events it lost and goes
on with the oldest one kept.

The whole history is kept as `log`, so that what was published can be told apart from what
is still there to be read: `oldest` is the boundary between the two.
-/

namespace Flotilla

/-- An event bus. -/
structure Bus where
  /-- How many events the ring holds. -/
  slots : Nat
  /-- Every event published, in order. -/
  log : Array Event := #[]

/-- The place of a reader on a bus: the number of the event it reads next. -/
structure Reader where
  next : Nat
  deriving DecidableEq

/-- What a reader gets. -/
inductive Reading where
  /-- The next event. -/
  | event (e : Event)
  /-- So many events were lost. -/
  | lagged (n : Nat)
  /-- Everything published was read. -/
  | nothing

namespace Bus

/-- The largest capacity a bus can be asked for. -/
def largestCapacity : Nat := Nat.pow 2 63 - 1

/-- An empty bus of at least the given capacity. -/
def ofCapacity (capacity : Nat) : Bus :=
  { slots := (Nat.max capacity 1).nextPowerOfTwo }

/-- How many events were published. -/
def published (b : Bus) : Nat := b.log.size

/-- The number of the oldest event the ring still holds. -/
def oldest (b : Bus) : Nat := b.published - b.slots

/-- Publishes an event under the next number. -/
def publish (b : Bus) (e : Event) : Bus :=
  { b with log := b.log.push (e.withSeq b.published) }

/-- Publishes an event so many times. -/
def publishTimes (b : Bus) (e : Event) : Nat → Bus
  | 0 => b
  | n + 1 => publishTimes (b.publish e) e n

/-- Publishes events in order. -/
def publishAll (b : Bus) (es : List Event) : Bus :=
  es.foldl publish b

/-- A reader of what is published from now on. -/
def subscribe (b : Bus) : Reader := ⟨b.published⟩

/-- How many events a reader has not read. -/
def unread (b : Bus) (r : Reader) : Nat := b.published - r.next

/-- One attempt to read. -/
def read (b : Bus) (r : Reader) : Reading × Reader :=
  if r.next < b.oldest then (.lagged (b.oldest - r.next), ⟨b.oldest⟩)
  else
    match b.log[r.next]? with
    | some e => (.event e, ⟨r.next + 1⟩)
    | none => (.nothing, r)

/-- Everything a reader gets until nothing is left to read. -/
def drain (b : Bus) (r : Reader) : List Reading × Reader :=
  let start := Nat.max r.next b.oldest
  let lost := if r.next < b.oldest then [Reading.lagged (b.oldest - r.next)] else []
  let kept := (b.log.extract start b.published).toList
  (lost ++ kept.map Reading.event, ⟨Nat.max start b.published⟩)

/-! ## What the operations do to the history -/

@[simp] theorem log_publish (b : Bus) (e : Event) :
    (b.publish e).log = b.log.push (e.withSeq b.published) := rfl

@[simp] theorem slots_publish (b : Bus) (e : Event) : (b.publish e).slots = b.slots := rfl

@[simp] theorem published_publish (b : Bus) (e : Event) :
    (b.publish e).published = b.published + 1 := by
  simp [published]

end Bus

end Flotilla
