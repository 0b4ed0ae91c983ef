import Flotilla.Phase

/-!
# What can go wrong

Three kinds of failure, each an inductive type of causes with one function for the wording:
`BotError` is how a bot's run fails, `ManagerError` is why a manager refuses a call, and
`IoCause` is the input/output failure that either may carry. `Payload` is what a panic
carries, and `Ending` is how a scripted run comes to its end.
-/

namespace Flotilla

/-! ## Input/output failures -/

/-- The kinds of input/output failure that are named without further detail. -/
inductive IoKind where
  | connectionReset
  | connectionRefused
  | connectionAborted
  | brokenPipe
  | unexpectedEof
  | timedOut
  | notConnected
  | permissionDenied
  | addrInUse
  | notFound

namespace IoKind

def all : List IoKind :=
  [.connectionReset, .connectionRefused, .connectionAborted, .brokenPipe, .unexpectedEof,
    .timedOut, .notConnected, .permissionDenied, .addrInUse, .notFound]

/-- The name by which a kind is asked for. -/
def label : IoKind → String
  | .connectionReset => "ConnectionReset"
  | .connectionRefused => "ConnectionRefused"
  | .connectionAborted => "ConnectionAborted"
  | .brokenPipe => "BrokenPipe"
  | .unexpectedEof => "UnexpectedEof"
  | .timedOut => "TimedOut"
  | .notConnected => "NotConnected"
  | .permissionDenied => "PermissionDenied"
  | .addrInUse => "AddrInUse"
  | .notFound => "NotFound"

/-- The kind with a given name. -/
def ofLabel? (text : String) : Option IoKind :=
  all.find? fun k => k.label == text

/-- The wording of a failure of this kind. -/
def message : IoKind → String
  | .connectionReset => "connection reset"
  | .connectionRefused => "connection refused"
  | .connectionAborted => "connection aborted"
  | .brokenPipe => "broken pipe"
  | .unexpectedEof => "unexpected end of file"
  | .timedOut => "timed out"
  | .notConnected => "not connected"
  | .permissionDenied => "permission denied"
  | .addrInUse => "address in use"
  | .notFound => "entity not found"

end IoKind

/-- An input/output failure: a bare kind, or one described in words. -/
inductive IoCause where
  | kind (k : IoKind)
  | described (text : String)

/-- The wording of an input/output failure. -/
def IoCause.message : IoCause → String
  | .kind k => k.message
  | .described text => text

/-! ## Failures of a bot -/

/-- How the run of a bot fails. -/
inductive BotError where
  /-- The connection ended. -/
  | disconnected (reason : String)
  /-- Reading or writing failed. -/
  | io (cause : IoCause)
  /-- The bot cannot go on. -/
  | fatal (error : String)
  /-- The run panicked. -/
  | panicked (info : String)

namespace BotError

/-- The short name of the failure in log lines. -/
def label : BotError → String
  | .disconnected _ => "bot_disconnected"
  | .io _ => "bot_io"
  | .fatal _ => "bot_fatal"
  | .panicked _ => "bot_panicked"

/-- The wording of the failure. -/
def message : BotError → String
  | .disconnected reason => "disconnected: " ++ reason
  | .io cause => "io error: " ++ cause.message
  | .fatal error => "fatal error: " ++ error
  | .panicked info => "bot panicked: " ++ info

/-- The wording of the failure underneath, where there is one. -/
def source? : BotError → Option String
  | .io cause => some cause.message
  | _ => none

end BotError

/-! ## Failures of a manager -/

/-- Why a manager refuses a call. -/
inductive ManagerError where
  /-- The operation is not allowed in the phase the manager is in. -/
  | illegalState (op : String) (phase : Phase)
  /-- The caller gave up waiting. -/
  | interrupted
  /-- The pool takes no more bots. -/
  | poolClosed
  /-- Listening for termination signals failed. -/
  | signal (cause : IoCause)

namespace ManagerError

/-- The short name of the refusal. -/
def label : ManagerError → String
  | .illegalState _ _ => "manager_illegal_state"
  | .interrupted => "manager_interrupted"
  | .poolClosed => "manager_pool_closed"
  | .signal _ => "manager_signal"

/-- The wording of the refusal. -/
def message : ManagerError → String
  | .illegalState op phase => "cannot " ++ op ++ " while manager is " ++ phase.label
  | .interrupted => "interrupted while waiting for bots to terminate"
  | .poolClosed => "bot pool is closed"
  | .signal cause => "failed to listen for shutdown signal: " ++ cause.message

/-- The wording of the refusal for a log line, with its details as key and value. -/
def summary : ManagerError → String
  | .illegalState op phase => "illegal " ++ op ++ " in state=" ++ phase.label
  | .interrupted => "wait interrupted"
  | .poolClosed => "pool closed"
  | .signal cause => "signal: " ++ cause.message

/-- Whether the phase was the reason. -/
def isIllegalState : ManagerError → Bool
  | .illegalState _ _ => true
  | _ => false

/-- The wording of the failure underneath, where there is one. -/
def source? : ManagerError → Option String
  | .signal cause => some cause.message
  | _ => none

end ManagerError

/-! ## Panics and endings -/

/-- What a panic carries: a text, or something that is no text. -/
inductive Payload where
  | text (s : String)
  | other

/-- The wording of a panic. -/
def Payload.message : Payload → String
  | .text s => s
  | .other => "unknown panic"

/-- How a scripted run ends. -/
inductive Ending where
  | ok
  | error (e : BotError)
  | panic (payload : Payload)

namespace Ending

/-- Whether the run ends by a panic. -/
def isPanic : Ending → Bool
  | .panic _ => true
  | _ => false

/-- The failure a supervised run reports, a panic being one of them. -/
def error? : Ending → Option BotError
  | .ok => none
  | .error e => some e
  | .panic payload => some (.panicked payload.message)

end Ending

end Flotilla
