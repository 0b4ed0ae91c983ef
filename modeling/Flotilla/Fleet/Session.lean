import Flotilla.Fleet.Turn

/-!
# A session with a fleet

A session builds managers and bots and carries out commands. Nothing goes on between the
commands but what a command itself lets go on. After each command the owner looks at every
manager.
-/

namespace Flotilla

/-- What a manager is built from. -/
structure ManagerPlan where
  settings : Settings
  number : Nat
  subscribers : List Subscriber
  /-- The order in which the registered launches are gone through. -/
  walk : Walk := .ascending

/-- What a bot is built from. -/
structure BotPlan where
  plan : Plan
  ending : Ending

namespace ManagerPlan

/-- Whether a manager can be built: its pool, its bus and the queues of its subscribers can be
as large as asked for. -/
def isPossible (p : ManagerPlan) : Bool :=
  p.settings.maxConcurrent ≤ Settings.largestLimit
    && p.settings.busCapacityClamped ≤ Bus.largestCapacity
    && p.subscribers.all fun s => s.places ≤ Subscriber.largestCapacity

def build (p : ManagerPlan) : Manager := .build p.settings p.number p.subscribers p.walk

/-- The tasks of a manager just built: the workers of its subscribers, and then the task that
reads its bus. -/
def tasks (p : ManagerPlan) (m : Nat) : List Task :=
  if p.subscribers.isEmpty then []
  else (List.range p.subscribers.length).map (Task.worker m) ++ [.listener m]

end ManagerPlan

/-- A bot just built. -/
def BotPlan.build (p : BotPlan) : Bot := .build p.plan p.ending

namespace Fleet

/-- A fleet just built, its listeners and workers waiting. -/
def build (managers : List ManagerPlan) (bots : List BotPlan) : Fleet :=
  let tasks := managers.zipIdx.flatMap fun x => x.1.tasks x.2
  ({ managers := managers.map ManagerPlan.build, bots := bots.map BotPlan.build : Fleet }.wakeAll
    tasks).settle

/-! ## Commands -/

/-- Something asked of a session. -/
inductive Command where
  | call (c : Call)
  | settle
  | sleep (millis : Nat)
  /-- Waits for a manager to come to its end, with reports at the given interval and a token to
  give up by, or at the manager's own interval and without. -/
  | wait (manager : Nat) (poll : Option Duration) (cancelled : Bool)
  /-- Starts a manager and stops it at a signal. -/
  | runUntilSignal (manager : Nat)
  | cancel (wait : Nat)
  | abort (wait : Nat)
  | raise (signal : Signal)
  | drop (manager : Nat)
  | release (manager subscriber times : Nat)
  | arm (bot : Nat) (what : Method)
  | disarm (bot : Nat) (what : Method)
  /-- Compares two handles, each known by its manager and its place. -/
  | compare (a b : Nat × Nat)

/-- Two handles compared. -/
structure Comparison where
  order : Ordering
  /-- Whether both are handles to one bot. -/
  sameBot : Bool

/-- Handles are equal, and then are found under one key, if neither comes first. -/
def Comparison.isEqual (c : Comparison) : Bool := c.order == .eq

/-- The answer to a command. -/
inductive Answer where
  | reply (r : Reply)
  /-- The number of the waiter. -/
  | index (n : Nat)
  | nobodyListens
  | noWait
  | noHandle
  | comparison (c : Comparison)

/-- A waiter's task is handed to the thread. -/
def addWait (f : Fleet) (w : Wait) : Fleet × Answer :=
  let n := f.waits.length
  ({ f with waits := f.waits ++ [w] }.wake (.wait n), .index n)

/-- Somebody waits for a manager. -/
def spawnWait (f : Fleet) (m : Nat) (poll : Option Duration) (cancelled : Bool) :
    Fleet × Answer :=
  if f.isHeld m then
    f.addWait
      { manager := m
        purpose := .stop
        poll := (poll.map Settings.clampPoll).getD (f.manager m).settings.pollClamped
        cancellable := poll.isSome
        cancelled := poll.isSome && cancelled }
  else (f, .reply .noManager)

/-- Somebody starts a manager and waits for a signal. -/
def spawnRun (f : Fleet) (m : Nat) : Fleet × Answer :=
  if f.isHeld m then
    f.addWait
      { manager := m
        purpose := .untilSignal
        poll := (f.manager m).settings.pollClamped
        cancellable := false }
  else (f, .reply .noManager)

/-- Cancels the token of a waiter. -/
def cancelWait (f : Fleet) (w : Nat) : Fleet × Answer :=
  match f.waits[w]? with
  | none => (f, .noWait)
  | some wt =>
    if wt.cancellable && !wt.cancelled && !wt.stage.isOver then
      ((f.modifyWait w fun wt => { wt with cancelled := true }).wake (.wait w), .reply .nothing)
    else (f, .reply .nothing)

/-- Has the task of a waiter dropped when its turn comes. -/
def abortWait (f : Fleet) (w : Nat) : Fleet × Answer :=
  match f.waits[w]? with
  | none => (f, .noWait)
  | some wt =>
    if wt.stage.isOver then (f, .reply .nothing)
    else
      ((f.modifyWait w fun wt => { wt with aborted := true }).wake (.wait w), .reply .nothing)

/-- Gives a signal to a waiter that listens for one. -/
def signalWait (s : Signal) (f : Fleet) (w : Nat) : Fleet :=
  match (f.wait w).stage with
  | .listening =>
    (f.modifyWait w fun wt => { wt with stage := .signalled s }).wake (.wait w)
  | _ => f

/-- Whether somebody who waits for a signal, or got one, is not done. -/
def someoneListens (f : Fleet) : Bool :=
  f.waits.any fun w => w.purpose = .untilSignal && !w.stage.isOver

/-- Raises a signal. -/
def raise (f : Fleet) (s : Signal) : Fleet × Answer :=
  let f := f.settle
  if f.someoneListens then
    (((List.range f.waits.length).foldl (signalWait s) f).settle, .reply .nothing)
  else (f, .nobodyListens)

/-- The owner drops a manager. -/
def dropManager (f : Fleet) (m : Nat) : Fleet :=
  let f := f.modifyManager m fun mgr => { mgr with owned := false }
  if f.isHeld m then f else f.wakeListener m

/-- Adds permits to a subscriber. -/
def releaseSubscriber (f : Fleet) (m i times : Nat) : Fleet :=
  match (f.manager m).relay with
  | none => f
  | some relay =>
    let f := f.modifyRelay m fun r => { r with fanout := r.fanout.release i times }
    if relay.fanout.wakesOnRelease i times then f.wake (.worker m i) else f

/-- The handle at a place among those of a manager that somebody has. -/
def handleAt? (f : Fleet) (place : Nat × Nat) : Option Handle :=
  if f.isHeld place.1 then (f.manager place.1).handles[place.2]? else none

/-- Compares two handles. -/
def compareHandles (f : Fleet) (a b : Nat × Nat) : Answer :=
  match f.handleAt? a, f.handleAt? b with
  | some x, some y => .comparison { order := compare x y, sameBot := x.bot == y.bot }
  | _, _ => .noHandle

/-- Carries out a command. -/
def carryOut (f : Fleet) : Command → Fleet × Answer
  | .call c =>
    let (f, reply) := f.perform none c
    (f, .reply reply)
  | .settle => (f.settle, .reply .nothing)
  | .sleep millis => (f.sleep millis, .reply .nothing)
  | .wait m poll cancelled => f.spawnWait m poll cancelled
  | .runUntilSignal m => f.spawnRun m
  | .cancel w => f.cancelWait w
  | .abort w => f.abortWait w
  | .raise s => f.raise s
  | .drop m => (f.dropManager m, .reply .nothing)
  | .release m i times => (f.releaseSubscriber m i times, .reply .nothing)
  | .arm b what => (f.modifyBot b fun bot => bot.arm what, .reply .nothing)
  | .disarm b what => (f.modifyBot b fun bot => bot.disarm what, .reply .nothing)
  | .compare a b => (f, f.compareHandles a b)

/-! ## Looking -/

/-- A registered bot as the owner sees it. -/
structure BotView where
  id : Nat
  name : String
  connected : Bool

/-- What the owner of a manager sees of it. -/
structure ManagerView where
  phase : Phase
  queued : Nat
  inFlight : Nat
  bots : List BotView

/-- What is seen of a manager after a command. -/
structure ManagerReport where
  events : List Reading
  /-- What only the owner sees. -/
  view : Option ManagerView
  /-- What the subscribers kept, if there are any. -/
  seen : Option (List (List Kept))

/-- What is shown after a command. -/
structure Report where
  answer : Answer
  managers : List ManagerReport
  notes : List Note
  /-- How each waiter's waiting came to its end, if it did. -/
  waits : List (Option WaitResult)
  logs : List LogLine

/-- How waiting came to its end, if it did. -/
def waitResult? (w : Wait) : Option WaitResult :=
  match w.stage with
  | .over result => some result
  | _ => none

def viewHandle (f : Fleet) (h : Handle) : BotView :=
  let bot := f.bot h.bot
  { id := h.id, name := bot.plan.name, connected := bot.liveness.connected }

def viewManager (f : Fleet) (m : Manager) : ManagerView :=
  { phase := m.phase
    queued := m.queue.length
    inFlight := m.inFlight
    bots := m.handles.map f.viewHandle }

def reportManager (f : Fleet) (m : Manager) : ManagerReport :=
  { events := (m.bus.drain m.observer).1
    view := if m.owned then some (f.viewManager m) else none
    seen := m.relay.map fun r => r.fanout.seen }

/-- A manager after it was looked at. -/
def lookAt (m : Manager) : Manager :=
  { m.modifyRelay fun r => { r with fanout := r.fanout.look } with
    observer := (m.bus.drain m.observer).2 }

/-- Carries out a command and looks at the fleet. -/
def observe (f : Fleet) (c : Command) : Fleet × Report :=
  let notes := f.notes.size
  let logs := f.logs.size
  let (f, answer) := f.carryOut c
  ({ f with managers := f.managers.map lookAt },
    { answer
      managers := f.managers.map f.reportManager
      notes := (f.notes.extract notes f.notes.size).toList
      waits := f.waits.map waitResult?
      logs := (f.logs.extract logs f.logs.size).toList })

/-- Carries out commands in order, looking at the fleet after each. -/
def observeAll (f : Fleet) : List Command → Fleet × List Report
  | [] => (f, [])
  | c :: cs =>
    let (f, report) := f.observe c
    let (f, reports) := observeAll f cs
    (f, report :: reports)

/-- What is counted of a bot. -/
structure BotTally where
  runs : Nat
  quits : Nat
  connected : Bool

def tally (b : Bot) : BotTally :=
  { runs := b.runs, quits := b.quits, connected := b.liveness.connected }

/-- The reports on commands to a fleet just built, and what is counted of each bot in the end;
`none` when a manager cannot be built. -/
def run (managers : List ManagerPlan) (bots : List BotPlan) (commands : List Command) :
    Option (List Report × List BotTally) :=
  if managers.all ManagerPlan.isPossible then
    let (f, reports) := (build managers bots).observeAll commands
    some (reports, f.bots.map tally)
  else none

end Fleet

end Flotilla
