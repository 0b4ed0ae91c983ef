import Flotilla.Fleet.Lifecycle
import Flotilla.Text.Quoted

/-!
# Calls

The answer to each call, and what it changes. Calls that only ask change nothing.
-/

namespace Flotilla.Fleet

/-- The written form of a handle to a bot of a name. -/
def handleText (id : Nat) (name : String) : String :=
  "BotHandle \x7b id: BotId(" ++ toString id ++ "), name: " ++ Text.quoted name ++ " \x7d"

/-- The written forms of handles, or the panic of the first bot that panics. -/
def handleTexts (f : Fleet) : List Handle → Except String (List String)
  | [] => .ok []
  | h :: rest =>
    match f.askName h.bot with
    | .error text => .error text
    | .ok name => (handleTexts f rest).map (handleText h.id name :: ·)

/-- The manager a call is made to, if it is made to one. -/
def callee? : Call → Option Nat
  | .add m _ | .start m | .stop m | .phase m | .queued m | .inFlight m | .number m | .ids m
  | .handles m | .capacities m | .wraps m _ | .unknown m => some m
  | .finish _ _ => none

/-- Gives a bot another ending, if one is given, and a permit. -/
def finish (f : Fleet) (b : Nat) (ending : Option Ending) : Fleet :=
  (f.modifyBot b fun bot => { bot with ending := ending.getD bot.ending }).addPermit b

/-- Carries out a call, which is made within a bot's run or outside of any. -/
def perform (f : Fleet) (span : Option Span) (c : Call) : Fleet × Reply :=
  if (callee? c).any fun m => !f.isHeld m then (f, .noManager)
  else
    match c with
    | .add m b =>
      let (f, halt) := f.add m b span
      (f, .ofHalt halt)
    | .start m =>
      let (f, halt) := f.start m span
      (f, .ofHalt halt)
    | .stop m =>
      let (f, halt) := f.stop m span
      (f, .ofHalt halt)
    | .phase m => (f, .phase (f.manager m).phase)
    | .queued m => (f, .count (f.manager m).queue.length)
    | .inFlight m => (f, .count (f.manager m).inFlight)
    | .number m => (f, .count (f.manager m).number)
    | .ids m => (f, .ids ((f.manager m).handles.map Handle.id))
    | .handles m =>
      match f.handleTexts (f.manager m).handles with
      | .ok texts => (f, .texts texts)
      | .error text => (f, .halted (.panicked text))
    | .capacities m =>
      let s := (f.manager m).settings
      (f, .capacities s.maxConcurrent s.busCapacity)
    | .wraps m b => (f, .flags ((f.manager m).handles.map fun h => h.bot == b))
    | .finish b ending => (f.finish b ending, .nothing)
    | .unknown _ => (f, .unknownCall)

end Flotilla.Fleet
