import Flotilla.Fleet.Perform

/-!
# The task of a launched bot

A launched bot first needs a slot, if slots are limited, and has to be admitted; once the pool
is closed it gets neither. Then it is run as its plan says, and however the run ends the slot
is freed and the launch completed: the outcome is announced, the launch leaves the registry,
and the last one to leave a stopping manager brings it to its end. A bot that panics when its
name is asked ends its task on the spot.
-/

namespace Flotilla

/-- How the task of a launched bot came to its end. -/
inductive RunOutcome where
  /-- The run ended without an error. -/
  | finished
  /-- The bot was not run. -/
  | notStarted
  /-- The run ended by an error. -/
  | failed (e : BotError)

/-- The outcome of a run with a given ending, a panic being an error. -/
def RunOutcome.ofEnding (ending : Ending) : RunOutcome :=
  match ending.error? with
  | none => .finished
  | some e => .failed e

namespace Fleet

/-! ## Completion -/

/-- The waiters that are told when a manager's pool is drained, longest first. -/
def drainWaiters (f : Fleet) (m : Nat) : List Nat :=
  (f.timers.filter fun t => (f.wait t.wait).manager == m).map Timer.wait

/-- The task of a launch is over. If the pool is drained by this, its waiters are told. -/
def endTask (f : Fleet) (r : RunName) : Fleet :=
  let f := f.setStage r .over
  let f :=
    if (f.manager r.manager).isDrained then
      f.wakeAll ((f.drainWaiters r.manager).map Task.wait)
    else f
  f.park

/-- Writes the log line about an outcome. -/
def sayOutcome (f : Fleet) (id : Nat) (name : String) : RunOutcome → Fleet
  | .finished => f.say .debug "bot finished" (botFields id name) none
  | .notStarted =>
    f.say .debug "pool closed before bot started; not running it" (botFields id name) none
  | .failed e =>
    f.say .error "bot exited with error"
      (botFields id name ++ [("error", .text e.message), ("kind", .text e.label)]) none

/-- The event that announces an outcome. -/
def outcomeEvent (id : Nat) (name : String) : RunOutcome → Event
  | .finished | .notStarted => .botFinished id name
  | .failed e => .botFailed id name e.message

/-- A launch leaves the registry. -/
def unregister (f : Fleet) (r : RunName) (name : String) : Fleet :=
  if (f.launch r).registered then
    let f := f.modifyManager r.manager fun m =>
      m.modifyLaunch r.id fun l => { l with registered := false }
    let f := f.publish r.manager (.botRemoved r.id name)
    f.terminateIfEmpty r.manager none
  else f.say .warn "completed bot was not registered" (botFields r.id name) none

/-- Completes a launch. -/
def complete (f : Fleet) (r : RunName) (outcome : RunOutcome) : Fleet :=
  match f.askName (f.launch r).bot with
  | .error _ => f.endTask r
  | .ok name =>
    let f := f.sayOutcome r.id name outcome
    let f := f.publish r.manager (outcomeEvent r.id name outcome)
    (f.unregister r name).endTask r

/-! ## Running -/

/-- The span of a run. -/
def spanOf (f : Fleet) (r : RunName) : Span :=
  { pool := (f.manager r.manager).number
    id := r.id
    name := (f.bot (f.launch r).bot).plan.name }

/-- The run comes to its end as its bot's ending says. -/
def finishRun (f : Fleet) (r : RunName) : Fleet :=
  let b := (f.launch r).bot
  let outcome := RunOutcome.ofEnding (f.bot b).ending
  ((f.modifyBot b Bot.exit).releaseSlot r.manager).complete r outcome

/-- Takes a permit of the bot and finishes, or waits for one. -/
def awaitPermit (f : Fleet) (r : RunName) (heedsQuit : Bool) : Fleet :=
  let b := (f.launch r).bot
  match (f.bot b).permits.acquire r with
  | (permits, true) => (f.modifyBot b fun bot => { bot with permits }).finishRun r
  | (permits, false) =>
    let f := f.modifyBot b fun bot =>
      { bot with
        permits
        liveness := if heedsQuit then bot.liveness.watch r else bot.liveness }
    (f.setStage r (.waiting heedsQuit)).park

/-- The run heeds a request to quit: its bot is set aside, and it waits for the permit. -/
def quitRun (f : Fleet) (r : RunName) : Fleet :=
  (f.dismiss (f.launch r).bot).awaitPermit r false

/-- The run has made its calls. -/
def afterCalls (f : Fleet) (r : RunName) : Fleet :=
  let bot := f.bot (f.launch r).bot
  if bot.plan.waits then
    let heedsQuit := bot.isClosure && bot.plan.quittable
    if heedsQuit && bot.liveness.quitRequested then f.quitRun r else f.awaitPermit r heedsQuit
  else f.finishRun r

/-- The bot is run; an eager panic comes before anything else. -/
def enterRun (f : Fleet) (r : RunName) : Fleet :=
  let b := (f.launch r).bot
  let bot := f.bot b
  let f := f.modifyBot b Bot.enter
  if bot.panicsEagerly then f.finishRun r
  else
    let f := f.modifyBot b fun bot => { bot with runs := bot.runs + 1 }
    (f.note (.ran b r.id (f.spanOf r))).setStage r (.calling bot.plan.calls)

/-- Whether a launch may be admitted: the pool is open and the launch registered. -/
def isAdmissible (f : Fleet) (r : RunName) : Bool :=
  !(f.manager r.manager).closed && (f.launch r).registered

/-- A launch that has its slot is admitted and run. -/
def beginRun (f : Fleet) (r : RunName) : Fleet :=
  if f.isAdmissible r then
    let f := f.modifyManager r.manager fun m =>
      m.modifyLaunch r.id fun l => { l with admitted := true }
    match f.askName (f.launch r).bot with
    | .error _ => (f.releaseSlot r.manager).endTask r
    | .ok _ => f.enterRun r
  else (f.releaseSlot r.manager).complete r .notStarted

/-- A launch whose turn comes for the first time asks for a slot. -/
def seekSlot (f : Fleet) (r : RunName) : Fleet :=
  let mgr := f.manager r.manager
  if mgr.closed then f.complete r .notStarted
  else
    match mgr.slots with
    | none => f.beginRun r
    | some p =>
      match p.acquire r.id with
      | (p, true) => (f.modifyManager r.manager fun m => { m with slots := some p }).beginRun r
      | (p, false) =>
        ((f.modifyManager r.manager fun m => { m with slots := some p }).setStage r .queued).park

/-- A launch stops waiting for a slot. -/
def leaveSlotLine (f : Fleet) (r : RunName) : Fleet :=
  f.modifyManager r.manager fun m =>
    { m with slots := m.slots.map fun p => p.leave r.id }

/-- A run is given its permit, but a request to quit comes first: the permit goes to the next
in line, and the run waits for the one that the request brings. -/
def resumePermitted (f : Fleet) (r : RunName) (heedsQuit : Bool) : Fleet :=
  let b := (f.launch r).bot
  let f := if heedsQuit then
      f.modifyBot b fun bot => { bot with liveness := bot.liveness.unwatch r }
    else f
  if heedsQuit && (f.bot b).liveness.quitRequested then (f.addPermit b).quitRun r
  else f.finishRun r

/-- A run that waits is woken: by a request to quit, if it heeds one. -/
def resumeWaiting (f : Fleet) (r : RunName) (heedsQuit : Bool) : Fleet :=
  let b := (f.launch r).bot
  if heedsQuit && (f.bot b).liveness.quitRequested then
    let f := f.modifyBot b fun bot =>
      { bot with
        liveness := bot.liveness.unwatch r
        permits := bot.permits.leave r }
    f.quitRun r
  else f.park

/-- One step of the task of a launch. -/
def stepBot (f : Fleet) (r : RunName) : Fleet :=
  match (f.launch r).stage with
  | .submitted => f.seekSlot r
  | .queued =>
    if (f.manager r.manager).closed then (f.leaveSlotLine r).complete r .notStarted else f.park
  | .offered =>
    if (f.manager r.manager).closed then (f.releaseSlot r.manager).complete r .notStarted
    else f.beginRun r
  | .calling (c :: rest) =>
    let (f, reply) := f.perform (some (f.spanOf r)) c
    (f.note (.called (f.launch r).bot reply)).setStage r (.calling rest)
  | .calling [] => f.afterCalls r
  | .waiting heedsQuit => f.resumeWaiting r heedsQuit
  | .permitted heedsQuit => f.resumePermitted r heedsQuit
  | .over => f.park

end Fleet

end Flotilla
