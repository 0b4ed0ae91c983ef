import Flotilla.Bus

/-!
# Several buses behind handles

An exchange holds any number of buses. A bus is reached through *handles*: a new bus has one,
and a handle can be cloned, the clones sharing the bus with its ring and its numbering. When
the last handle of a bus is dropped the bus is closed, and a reader that has read everything
is told so.
-/

namespace Flotilla

/-- Buses, the handles to them and their readers. Handles and readers are known by their
number in order of creation; `none` stands for one that was dropped. -/
structure Exchange where
  buses : List Bus := []
  handles : List (Option Nat) := []
  readers : List (Option (Nat × Reader)) := []

namespace Exchange

/-- Something asked of an exchange. -/
inductive Command where
  | new (capacity : Nat)
  | clone (handle : Nat)
  | drop (handle : Nat)
  | subscribe (handle : Nat)
  /-- Drops a reader; dropping it again does nothing. -/
  | dropReader (reader : Nat)
  | publish (handle : Nat) (event : Event) (times : Nat)
  | read (reader : Nat)
  | drain (reader : Nat)
  | unknown

/-- The answer to a command. -/
inductive Reply where
  | done
  /-- The number of the handle or reader created. -/
  | index (n : Nat)
  | reading (r : Reading)
  /-- Everything was read and nothing more will be published. -/
  | closed
  | readings (rs : List Reading)
  | noBus
  | noReader
  | unknownCommand

/-- The bus behind a handle that was not dropped. -/
def busOf? (x : Exchange) (handle : Nat) : Option Nat := x.handles[handle]?.join

/-- The bus and the place of a reader that was not dropped. -/
def readerAt? (x : Exchange) (reader : Nat) : Option (Nat × Reader) := x.readers[reader]?.join

/-- Whether no handle leads to a bus any more. -/
def isClosed (x : Exchange) (bus : Nat) : Bool := !x.handles.contains (some bus)

/-- A further bus with a handle of its own. -/
def addBus (x : Exchange) (capacity : Nat) : Exchange :=
  { x with
    buses := x.buses ++ [Bus.ofCapacity capacity]
    handles := x.handles ++ [some x.buses.length] }

/-- The reader after it read. -/
def moveReader (x : Exchange) (reader bus : Nat) (r : Reader) : Exchange :=
  { x with readers := x.readers.set reader (some (bus, r)) }

/-- Carries out a command; `none` when it asks for a capacity no bus can have. -/
def step (x : Exchange) : Command → Option (Exchange × Reply)
  | .new capacity =>
    if Bus.largestCapacity < capacity then none
    else some (x.addBus capacity, .index x.handles.length)
  | .clone handle =>
    match x.busOf? handle with
    | none => some (x, .noBus)
    | some bus =>
      some ({ x with handles := x.handles ++ [some bus] }, .index x.handles.length)
  | .drop handle =>
    match x.busOf? handle with
    | none => some (x, .noBus)
    | some _ => some ({ x with handles := x.handles.set handle none }, .done)
  | .subscribe handle =>
    match x.busOf? handle with
    | none => some (x, .noBus)
    | some bus =>
      match x.buses[bus]? with
      | none => some (x, .noBus)
      | some b =>
        some ({ x with readers := x.readers ++ [some (bus, b.subscribe)] },
          .index x.readers.length)
  | .dropReader reader =>
    if reader < x.readers.length then
      some ({ x with readers := x.readers.set reader none }, .done)
    else some (x, .noReader)
  | .publish handle event times =>
    match x.busOf? handle with
    | none => some (x, .noBus)
    | some bus =>
      some ({ x with buses := x.buses.modify bus fun b => b.publishTimes event times }, .done)
  | .read reader =>
    match x.readerAt? reader with
    | none => some (x, .noReader)
    | some (bus, r) =>
      match x.buses[bus]? with
      | none => some (x, .noReader)
      | some b =>
        match b.read r with
        | (.nothing, _) =>
          some (x, if x.isClosed bus then .closed else .reading .nothing)
        | (got, r') => some (x.moveReader reader bus r', .reading got)
  | .drain reader =>
    match x.readerAt? reader with
    | none => some (x, .noReader)
    | some (bus, r) =>
      match x.buses[bus]? with
      | none => some (x, .noReader)
      | some b =>
        let (got, r') := b.drain r
        some (x.moveReader reader bus r', .readings got)
  | .unknown => some (x, .unknownCommand)

/-- Carries out commands in order and collects the answers. -/
def runFrom (x : Exchange) : List Command → Option (List Reply)
  | [] => some []
  | c :: cs =>
    match x.step c with
    | none => none
    | some (x', reply) => (runFrom x' cs).map (reply :: ·)

/-- The answers to commands on an exchange with one bus. -/
def run (capacity : Nat) (commands : List Command) : Option (List Reply) :=
  runFrom {} (.new capacity :: commands) |>.map List.tail

end Exchange

end Flotilla
