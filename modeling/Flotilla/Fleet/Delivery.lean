import Flotilla.Fleet.Basic

/-!
# From the bus to the subscribers

One task of a manager reads its bus and offers each event to the subscribers; reports on
refusals are published on the same bus. Once nobody has the manager any more and everything
was read, it closes the subscribers and awaits their workers.
-/

namespace Flotilla.Fleet

/-- Changes the relay of a manager, if it has one. -/
def modifyRelay (f : Fleet) (m : Nat) (g : Relay → Relay) : Fleet :=
  f.modifyManager m fun mgr => mgr.modifyRelay g

/-- Offers an event to the subscribers of a manager and publishes the reports on refusals. -/
def deliver (f : Fleet) (m : Nat) (fanout : Fanout) (e : Event) : Fleet :=
  let f := f.modifyRelay m fun r => { r with fanout := fanout.offer e }
  let f := f.wakeAll (fanout.wokenByOffer.map (Task.worker m))
  f.publishAll m (fanout.overflows e)

/-- Nothing is left to read: the listener waits, or closes the subscribers. -/
def listenerRests (f : Fleet) (m : Nat) : Fleet :=
  if f.isHeld m then (f.modifyRelay m fun r => { r with listening := .idle }).park
  else f.modifyRelay m fun r => { r with listening := .closing .begun }

/-- One step of the listener. -/
def stepListener (f : Fleet) (m : Nat) : Fleet :=
  match (f.manager m).relay with
  | none => f.park
  | some relay =>
    match relay.listening with
    | .reading =>
      let (got, reader) := (f.manager m).bus.read relay.reader
      let f := f.modifyRelay m fun r => { r with reader }
      match got with
      | .event e => f.deliver m relay.fanout e
      | .lagged n =>
        f.say .warn "subscriber listener lagged behind the bus" [("skipped", .number n)] none
      | .nothing => f.listenerRests m
    | .closing .begun =>
      let f := f.modifyRelay m fun r =>
        { r with fanout := r.fanout.close, listening := .closing (.awaiting 0) }
      f.wakeAll (relay.fanout.wokenByClose.map (Task.worker m))
    | .closing (.awaiting i) =>
      (f.modifyRelay m fun r =>
        { r with listening := .closing (relay.fanout.awaitFrom i) }).park
    | .idle | .closing .finished => f.park

/-- A worker is gone; the listener goes on if it awaits it. -/
def workerGone (f : Fleet) (m i : Nat) (relay : Relay) : Fleet :=
  if relay.listening = .closing (.awaiting i) then f.wake (.listener m) else f

/-- One step of a worker. -/
def stepWorker (f : Fleet) (m i : Nat) : Fleet :=
  match (f.manager m).relay with
  | none => f.park
  | some relay =>
    let (fanout, report, pace) := relay.fanout.work i
    let f := f.modifyRelay m fun r => { r with fanout }
    let f := f.publishAll m report.toList
    match pace with
    | .again => f
    | .waits => f.park
    | .over => (f.workerGone m i relay).park

end Flotilla.Fleet
