import Flotilla.Fleet.Run

/-!
# The task of a waiter

A waiter stops its manager, or starts it and stops it at a signal, and then waits until the
pool is drained. Until then it reports from time to time which bots it waits for. It gives up
as soon as its token is cancelled; the shutdown itself goes on.
-/

namespace Flotilla.Fleet

/-- The waiter is done. Its timer goes, and if nobody has the manager any more the task that
reads the manager's bus is told. -/
def endWait (f : Fleet) (w : Nat) (result : WaitResult) : Fleet :=
  let m := (f.wait w).manager
  let f := f.modifyWait w fun wt => { wt with stage := .over result }
  let f := { f with timers := f.timers.filter fun t => t.wait != w }
  let f := if f.isHeld m then f else f.wakeListener m
  f.park

/-- The label of a bot that is waited for; a bot whose task is over is about to leave. -/
def outstandingLabel (id : Nat) (name : String) (isOver : Bool) : String :=
  name ++ "#" ++ toString id ++ if isOver then " (exiting)" else ""

/-- The labels of registered launches with their ids, or the panic of the first bot that
panics. -/
def outstandingLabels (f : Fleet) : List (Nat × Launch) → Except String (List (Nat × String))
  | [] => .ok []
  | (id, l) :: rest =>
    match f.askName l.bot with
    | .error text => .error text
    | .ok name =>
      (outstandingLabels f rest).map ((id, outstandingLabel id name l.stage.isOver) :: ·)

/-- The labels of the bots that a manager has still to wait for, in order of ids. -/
def outstanding (f : Fleet) (m : Nat) : Except String (List String) :=
  (f.outstandingLabels (f.manager m).walked).map fun labels =>
    (sortBy Prod.fst labels).map Prod.snd

/-- Reports the bots that are waited for, if there are any. -/
def reportOutstanding (f : Fleet) (m : Nat) (poll : Duration) (labels : List String) : Fleet :=
  if labels.isEmpty then f
  else
    let f := f.say .debug ("waiting " ++ poll.text ++ " for bots to terminate")
      [("bots", .text (Text.quotedList labels))] none
    f.publish m (.waitingForBots labels.length)

/-- What a waiter does whenever it looks: it gives up, is done, or goes on. -/
def lookAround (f : Fleet) (w : Nat) (goOn : Fleet) : Fleet :=
  if (f.wait w).cancelled then
    (f.say .debug "interrupted while waiting for bots to terminate" [] none).endWait w
      (.halted (.refused .interrupted))
  else if (f.manager (f.wait w).manager).isDrained then f.endWait w .ok
  else goOn

/-- The waiter reports and sets its timer for the next report. -/
def pollBots (f : Fleet) (w : Nat) : Fleet :=
  let wt := f.wait w
  match f.outstanding wt.manager with
  | .error text => f.endWait w (.halted (.panicked text))
  | .ok labels =>
    let f := f.reportOutstanding wt.manager wt.poll labels
    let due := f.clock + wt.poll.ceilMillis
    let timers := (f.timers.filter fun t => t.wait != w) ++ [{ wait := w, due }]
    let goOn := ({ f with timers }.modifyWait w fun wt => { wt with stage := .polling due }).park
    f.lookAround w goOn

/-- The waiter stops its manager and waits for the bots. -/
def beginWaiting (f : Fleet) (w : Nat) : Fleet :=
  match f.stop (f.wait w).manager none with
  | (f, some halt) => f.endWait w (.halted halt)
  | (f, none) => f.pollBots w

/-- The waiter starts its manager and waits for a signal. -/
def beginListening (f : Fleet) (w : Nat) : Fleet :=
  match f.start (f.wait w).manager none with
  | (f, some halt) => f.endWait w (.halted halt)
  | (f, none) => (f.modifyWait w fun wt => { wt with stage := .listening }).park

/-- The waiter got a signal. -/
def heedSignal (f : Fleet) (w : Nat) (s : Signal) : Fleet :=
  let m := (f.wait w).manager
  let f := f.say .debug "termination signal observed" [("signal", .text s.label)] none
  let f := f.say .info "shutdown signal received" [f.numberField m] none
  (f.publish m .shutdownRequested).beginWaiting w

/-- One step of the task of a waiter. -/
def stepWait (f : Fleet) (w : Nat) : Fleet :=
  let wt := f.wait w
  if wt.stage.isOver then f.park
  else if wt.aborted then f.endWait w .aborted
  else
    match wt.stage with
    | .submitted =>
      match wt.purpose with
      | .stop => f.beginWaiting w
      | .untilSignal => f.beginListening w
    | .signalled s => f.heedSignal w s
    | .polling due => f.lookAround w (if due ≤ f.clock then f.pollBots w else f.park)
    | .listening | .over _ => f.park

end Flotilla.Fleet
