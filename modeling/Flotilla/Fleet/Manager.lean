import Flotilla.Bus
import Flotilla.Fleet.Bot
import Flotilla.Settings
import Flotilla.Subscriber.Fanout

/-!
# A manager

What a manager keeps: its phase and the bots registered before the start, its launches, the
pool with its slots, its bus, and the relay that passes events on to its subscribers. The
number of a launch is the id of the bot launched. A launch is *registered* from its
announcement until its completion, and *admitted* once its bot is about to be run.

The registered launches are kept in a map, and a map does not say in which order it yields what
it holds. Whoever asks something of every registered bot goes by a `Walk`, and whatever is told
of it is put in order of ids afterwards.
-/

namespace Flotilla

/-! ## Launches -/

/-- Where the task of a launch is. -/
inductive Stage where
  /-- Handed to the pool; its turn has not come. -/
  | submitted
  /-- Waiting for a slot. -/
  | queued
  /-- Given a slot; its turn has not come since. -/
  | offered
  /-- In its run, with these calls still to make. -/
  | calling (left : List Call)
  /-- In its run, waiting for a permit of the bot, and for a request to quit if it heeds one. -/
  | waiting (heedsQuit : Bool)
  /-- In its run, given the permit; its turn has not come since. -/
  | permitted (heedsQuit : Bool)
  /-- The task is over. -/
  | over
  deriving Inhabited

namespace Stage

/-- Whether the task is over. -/
def isOver : Stage → Bool
  | .over => true
  | _ => false

/-- Whether the bot is in its run. -/
def isInRun : Stage → Bool
  | .calling _ | .waiting _ | .permitted _ => true
  | _ => false

end Stage

/-- A bot launched by a manager. -/
structure Launch where
  /-- The bot. -/
  bot : Nat
  stage : Stage := .submitted
  /-- Whether the launch is registered. -/
  registered : Bool := false
  /-- Whether the launch was admitted. -/
  admitted : Bool := false

instance : Inhabited Launch := ⟨{ bot := 0, stage := .over }⟩

/-- A registered launch as others see it: the id and the bot. -/
structure Handle where
  id : Nat
  bot : Nat

namespace Handle

/-- Handles are ordered by id, and equal if their ids are. -/
instance : Ord Handle := ⟨fun a b => compare a.id b.id⟩

end Handle

/-! ## Walks -/

/-- The order in which those who go through the registered launches come upon their ids. It may
depend on how many launches were made, and on which are registered. -/
structure Walk where
  order : Nat → List Nat → List Nat
  perm : ∀ launches ids, (order launches ids).Perm ids

/-- The walk in ascending order. -/
def Walk.ascending : Walk := ⟨fun _ ids => ids, fun _ _ => .refl _⟩

/-- Puts something in its place in a list in ascending order of keys. -/
def insertBy (key : α → Nat) (x : α) : List α → List α
  | [] => [x]
  | y :: rest => if key x ≤ key y then x :: y :: rest else y :: insertBy key x rest

/-- Puts a list in ascending order of keys. -/
def sortBy (key : α → Nat) (xs : List α) : List α := xs.foldr (insertBy key) []

/-! ## Subscribers -/

/-- Where the task is that reads the bus for the subscribers. -/
inductive Listening where
  /-- Reading. -/
  | reading
  /-- Waiting for something to read, or for the end of the manager. -/
  | idle
  /-- Closing the subscribers. -/
  | closing (c : Closing)
  deriving DecidableEq

/-- The subscribers of a manager and the task that passes events on to them. -/
structure Relay where
  fanout : Fanout
  reader : Reader
  listening : Listening := .reading

/-! ## Managers -/

/-- A manager. -/
structure Manager where
  settings : Settings
  /-- The number the manager is known by in log lines. -/
  number : Nat
  phase : Phase := .new
  /-- Bots registered before the start, in order. -/
  queue : List Nat := []
  /-- Every launch; its place is its id. -/
  launches : List Launch := []
  /-- Whether the pool takes no more bots. -/
  closed : Bool := false
  /-- The slots of the pool, if they are limited. -/
  slots : Option (Permits Nat)
  bus : Bus
  /-- The owner's reader. -/
  observer : Reader
  relay : Option Relay
  /-- Whether the owner still has the manager. -/
  owned : Bool := true
  /-- The order in which the registered launches are gone through. -/
  walk : Walk := .ascending

namespace Manager

/-- A manager just built. -/
def build (settings : Settings) (number : Nat) (subscribers : List Subscriber)
    (walk : Walk := .ascending) : Manager :=
  let bus := Bus.ofCapacity settings.busCapacityClamped
  { settings
    number
    slots := settings.limit.map fun n => { free := n }
    bus
    observer := bus.subscribe
    relay :=
      if subscribers.isEmpty then none
      else some { fanout := .ofSubscribers subscribers, reader := bus.subscribe }
    walk }

instance : Inhabited Manager := ⟨build {} 0 []⟩

/-- The registered launches with their ids, in ascending order. -/
def registry (m : Manager) : List (Nat × Launch) :=
  m.launches.zipIdx.filterMap fun x => if x.1.registered then some (x.2, x.1) else none

/-- The registered launches with their ids, in the order in which they are gone through. -/
def walked (m : Manager) : List (Nat × Launch) :=
  (m.walk.order m.launches.length (m.registry.map Prod.fst)).map fun id =>
    (id, m.launches.getD id default)

/-- The registered launches as others see them. -/
def handles (m : Manager) : List Handle :=
  m.registry.map fun x => ⟨x.1, x.2.bot⟩

/-- How many tasks were handed to the pool and are not over. -/
def inFlight (m : Manager) : Nat :=
  m.launches.countP fun l => !l.stage.isOver

/-- Whether the pool takes no more bots and none is left in it. -/
def isDrained (m : Manager) : Bool := m.closed && m.inFlight == 0

/-- Changes one launch. -/
def modifyLaunch (m : Manager) (id : Nat) (g : Launch → Launch) : Manager :=
  { m with launches := m.launches.modify id g }

/-- The launches that wait for a slot, longest first. -/
def slotWaiters (m : Manager) : List Nat :=
  match m.slots with
  | some p => p.waiting
  | none => []

/-- Whether the task that reads the bus waits for something to do. -/
def listenerIsIdle (m : Manager) : Bool :=
  match m.relay with
  | some r => r.listening == .idle
  | none => false

/-- Changes the relay, if there is one. -/
def modifyRelay (m : Manager) (g : Relay → Relay) : Manager :=
  { m with relay := m.relay.map g }

end Manager

end Flotilla
