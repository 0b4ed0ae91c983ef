import Flotilla.Event
import Flotilla.Failure

/-!
# Scripted subscribers

A subscriber is handed events one at a time. What its handler does with an event is scripted:
it keeps the event, counts it, first waits for a permit, or panics. A panic may come from
within the handler's work, or already from the call that should begin that work.
-/

namespace Flotilla

/-- What a handler does with events. -/
inductive Handling where
  /-- Keeps the event. -/
  | record
  /-- Counts the event. -/
  | count
  /-- Takes a permit, waiting for one if need be, then keeps the event. -/
  | block
  /-- Panics while it works on the event. -/
  | panic (payload : Payload)
  /-- Panics before its work begins. -/
  | panicAtOnce

/-- A subscriber, as it is handed to a manager. -/
structure Subscriber where
  name : String
  handling : Handling := .record
  /-- How many events may wait for it; at least one may. -/
  capacity : Nat := 1024
  /-- The numbers of the calls that panic, from zero; none given means all of them. -/
  panicsAt : List Nat := []

/-- What one call of a handler comes to. -/
inductive Treatment where
  | keep
  | awaitPermit
  | panic (payload : Payload)
  | panicAtOnce

namespace Subscriber

/-- The largest number of places a queue can have. -/
def largestCapacity : Nat := Nat.pow 2 61 - 1

/-- How many events may wait for the subscriber. -/
def places (s : Subscriber) : Nat := Nat.max s.capacity 1

/-- Whether the call with this number is one of those that panic. -/
def panicsOn (s : Subscriber) (call : Nat) : Bool :=
  s.panicsAt.isEmpty || s.panicsAt.contains call

/-- What the call with this number comes to. -/
def treatment (s : Subscriber) (call : Nat) : Treatment :=
  match s.handling with
  | .record | .count => .keep
  | .block => .awaitPermit
  | .panic payload => if s.panicsOn call then .panic payload else .keep
  | .panicAtOnce => if s.panicsOn call then .panicAtOnce else .keep

theorem one_le_places (s : Subscriber) : 1 ≤ s.places := Nat.le_max_right ..

end Subscriber

end Flotilla
