import Flotilla.Fleet.Basic

/-!
# Registering, starting and stopping

The calls that move a manager through its phases. Each is allowed in certain phases only; one
that is not allowed changes nothing. A bot's panic stops a call where it stands, and what was
done by then stays done.
-/

namespace Flotilla.Fleet

/-! ## Phases -/

/-- Moves a manager from one phase to another and publishes the change. -/
def advance (f : Fleet) (m : Nat) (op : String) (source target : Phase) : Fleet × Option Halt :=
  let phase := (f.manager m).phase
  if phase = source then
    ((f.modifyManager m fun mgr => { mgr with phase := target }).publish m (.stateChanged target),
      none)
  else (f, some (.refused (.illegalState op phase)))

/-- Notices that a manager that was asked to stop has no bot left. -/
def terminateIfEmpty (f : Fleet) (m : Nat) (span : Option Span) : Fleet :=
  let mgr := f.manager m
  if mgr.phase = .stopping ∧ mgr.registry.isEmpty then
    let f := (f.modifyManager m fun mgr => { mgr with phase := .terminated }).publish m
      (.stateChanged .terminated)
    f.say .info "all bots finished; manager terminated" [f.numberField m] span
  else f

/-! ## Registering and launching -/

/-- Hands a bot to the pool under the next id, announces it and registers it. The id is used
up in any case. -/
def launchBot (f : Fleet) (m b : Nat) (span : Option Span) : Fleet × Option Halt :=
  let id := (f.manager m).launches.length
  if (f.manager m).closed then
    (f.modifyManager m fun mgr =>
      { mgr with launches := mgr.launches ++ [{ bot := b, stage := .over }] },
      some (.refused .poolClosed))
  else
    let f := (f.modifyManager m fun mgr =>
      { mgr with launches := mgr.launches ++ [{ bot := b }] }).wake (.bot ⟨m, id⟩)
    match f.askName b with
    | .error text => (f, some (.panicked text))
    | .ok name =>
      let f := f.say .debug "bot launched" (botFields id name) span
      let f := f.publish m (.botLaunched id name)
      (f.modifyManager m fun mgr => mgr.modifyLaunch id fun l => { l with registered := true },
        none)

/-- Launches bots in order. -/
def launchBots (f : Fleet) (m : Nat) (span : Option Span) : List Nat → Fleet × Option Halt
  | [] => (f, none)
  | b :: rest =>
    match f.launchBot m b span with
    | (f, none) => launchBots f m span rest
    | (f, some halt) => (f, some halt)

/-- Registers a bot: before the start it is queued, and while the fleet runs it is launched at
once. Lines of every level are logged, so it is asked its name for the line before the launch. -/
def add (f : Fleet) (m b : Nat) (span : Option Span) : Fleet × Option Halt :=
  match (f.manager m).phase with
  | .new =>
    match f.askName b with
    | .error text => (f, some (.panicked text))
    | .ok name =>
      let f := f.say .debug "not started yet; bot queued" [("name", .text name)] span
      let f := f.modifyManager m fun mgr => { mgr with queue := mgr.queue ++ [b] }
      (f.publish m (.botQueued name), none)
  | .running =>
    match f.askName b with
    | .error text => (f, some (.panicked text))
    | .ok name =>
      (f.say .debug "already running; launching bot now" [("name", .text name)] span).launchBot
        m b span
  | phase => (f, some (.refused (.illegalState "add_bot" phase)))

/-- Launches the bots registered so far and lets the fleet run. -/
def start (f : Fleet) (m : Nat) (span : Option Span) : Fleet × Option Halt :=
  match f.advance m "start" .new .starting with
  | (f, some halt) => (f, some halt)
  | (f, none) =>
    let queued := (f.manager m).queue
    let f := f.modifyManager m fun mgr => { mgr with queue := [] }
    match f.launchBots m span queued with
    | (f, some halt) => (f, some halt)
    | (f, none) =>
      match f.advance m "start" .starting .running with
      | (f, some halt) => (f, some halt)
      | (f, none) =>
        (f.say .info "manager started" [f.numberField m, ("bots", .number queued.length)] span,
          none)

/-! ## Stopping -/

/-- Takes no more bots into the pool, and wakes the launches that wait for a slot. -/
def closePool (f : Fleet) (m : Nat) : Fleet :=
  let waiters := (f.manager m).slotWaiters
  (f.modifyManager m fun mgr => { mgr with closed := true }).wakeAll
    (waiters.map fun id => Task.bot ⟨m, id⟩)

/-- Asks a bot to quit, or gets its panic. A bot made to measure that heeds the request is set
aside; one made from a function has its token cancelled. -/
def quitBot (f : Fleet) (b : Nat) : Fleet × Option String :=
  match f.panicOf? b .quit with
  | some text => (f, some text)
  | none =>
    let bot := f.bot b
    if bot.isClosure then
      ((f.modifyBot b fun bot => { bot with liveness := bot.liveness.quit }).wakeAll
        (bot.liveness.wokenByQuit.map Task.bot), none)
    else
      let f := f.modifyBot b fun bot => { bot with quits := bot.quits + 1 }
      (if bot.plan.quittable then f.dismiss b else f, none)

/-- Whether a registered launch is to be asked to quit: it was admitted, or its bot reports
itself as connected. -/
def isLive (f : Fleet) (l : Launch) : Except String Bool :=
  if l.admitted then .ok true
  else
    match f.panicOf? l.bot .isConnected with
    | some text => .error text
    | none => .ok (f.bot l.bot).liveness.connected

/-- Asks the bots among launches to quit that are to be asked, one after another, and tells which
were. -/
def quitLive (f : Fleet) : List (Nat × Launch) → Fleet × Except String (List Handle)
  | [] => (f, .ok [])
  | (id, l) :: rest =>
    match f.isLive l with
    | .error text => (f, .error text)
    | .ok false => quitLive f rest
    | .ok true =>
      match f.quitBot l.bot with
      | (f, some text) => (f, .error text)
      | (f, none) =>
        match quitLive f rest with
        | (f, .ok asked) => (f, .ok (⟨id, l.bot⟩ :: asked))
        | (f, .error text) => (f, .error text)

/-- Announces the bots that were asked to quit. -/
def announceQuits (f : Fleet) (m : Nat) (span : Option Span) :
    List Handle → Fleet × Option String
  | [] => (f, none)
  | h :: rest =>
    match f.askName h.bot with
    | .error text => (f, some text)
    | .ok name =>
      let f := f.say .debug "quit requested" (botFields h.id name) span
      announceQuits (f.publish m (.quitRequested h.id name)) m span rest

/-- Stops a fleet that runs: the pool is closed first, so that a bot not admitted by then is
never run, and then every bot that is live is asked to quit. They are announced in order of ids. -/
def stop (f : Fleet) (m : Nat) (span : Option Span) : Fleet × Option Halt :=
  match f.advance m "stop" .running .stopping with
  | (f, some halt) => (f, some halt)
  | (f, none) =>
    let f := f.closePool m
    match f.quitLive (f.manager m).walked with
    | (f, .error text) => (f, some (.panicked text))
    | (f, .ok asked) =>
      match f.announceQuits m span (sortBy Handle.id asked) with
      | (f, some text) => (f, some (.panicked text))
      | (f, none) =>
        let registered := (f.manager m).registry.length
        let f := f.say .info "manager stopping; pool closed to new bots"
          [f.numberField m, ("registered", .number registered), ("quit", .number asked.length)]
          span
        (f.terminateIfEmpty m span, none)

end Flotilla.Fleet
