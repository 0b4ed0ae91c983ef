import Flotilla.Bus.Exchange
import Mathlib.Data.List.Basic

/-!
# The books of an exchange

Somebody who sees nothing of an exchange but the commands and the answers keeps books of it: of
each bus what was handed in for publishing, of each handle the bus behind it, and of each reader
how far it got (`Exchange.Books`). A reader begins at the number of events published on its bus so
far; an event it gets takes it one further, and a report on `n` lost events takes it `n` further.

The books say what the answer to the next command has to be (`Books.Justifies`), and an exchange
holds nothing that is not in them (`Books.exchange`): whatever command is carried out, the answer
is the one that the books before it justify, and the exchange is again what the books after it say
(`Books.step_exchange`).
-/

namespace Flotilla

/-- How far a reading takes a reader. -/
def Reading.advance : Reading → Nat
  | .event _ => 1
  | .lagged n => n
  | .nothing => 0

/-- How far readings one after another take a reader. -/
def Reading.advances : List Reading → Nat
  | [] => 0
  | got :: rest => got.advance + advances rest

/-! ## One bus -/

/-- What is written down of a bus: the capacity asked for, and what was handed in for publishing,
in order. -/
structure Bus.Record where
  capacity : Nat
  published : List Event := []

namespace Bus.Record

variable {b : Record} {pos : Nat}

/-- How many events the ring holds: the capacity, at least one, rounded up to a power of two. -/
def ring (b : Record) : Nat := (Nat.max b.capacity 1).nextPowerOfTwo

/-- What was handed in, each event under its number; nothing else of an event is changed. -/
def numbered (b : Record) : List Event := b.published.mapIdx fun n e => e.withSeq n

/-- How many events a reader at a position has not read. -/
def unread (b : Record) (pos : Nat) : Nat := b.published.length - pos

/-- What a reader at a position gets, if something is left to read. -/
def next? (b : Record) (pos : Nat) : Option Reading :=
  if b.ring < b.unread pos then some (.lagged (b.unread pos - b.ring))
  else b.published[pos]?.map fun e => .event (e.withSeq pos)

/-- What a reader gets one after another until nothing is left to read, and where it is then. -/
inductive Reads (b : Record) : Nat → List Reading → Nat → Prop
  | done {pos : Nat} (finished : b.next? pos = none) : Reads b pos [] pos
  | more {pos pos' : Nat} {got : Reading} {rest : List Reading} (next : b.next? pos = some got)
    (later : Reads b (pos + got.advance) rest pos') : Reads b pos (got :: rest) pos'

/-- The bus that the record describes. -/
def bus (b : Record) : Bus := { slots := b.ring, log := b.numbered.toArray }

theorem published_bus (b : Record) : b.bus.published = b.published.length := by
  simp [bus, Bus.published, numbered]

theorem oldest_bus (b : Record) : b.bus.oldest = b.published.length - b.ring := by
  rw [Bus.oldest, published_bus]
  rfl

theorem getElem?_bus (b : Record) (pos : Nat) :
    b.bus.log[pos]? = b.published[pos]?.map fun e => e.withSeq pos := by
  simp [bus, numbered, List.getElem?_mapIdx]

/-- One attempt to read gives what is next. -/
theorem read_bus (b : Record) (pos : Nat) :
    b.bus.read ⟨pos⟩ =
      match b.next? pos with
      | some got => (got, ⟨pos + got.advance⟩)
      | none => (.nothing, ⟨pos⟩) := by
  have behind : pos < b.bus.oldest ↔ b.ring < b.unread pos := by
    rw [oldest_bus, unread]
    omega
  unfold Bus.read next?
  by_cases lags : b.ring < b.unread pos
  · have lost : b.bus.oldest - pos = b.unread pos - b.ring := by
      rw [oldest_bus, unread]
      omega
    have place : b.bus.oldest = pos + (b.unread pos - b.ring) := by
      have := behind.mpr lags
      omega
    rw [if_pos (behind.mpr lags), if_pos lags, lost, place]
    rfl
  · rw [if_neg (mt behind.mp lags), if_neg lags, getElem?_bus]
    cases b.published[pos]? with
    | none => rfl
    | some e => rfl

theorem next?_of_kept {e : Event} (kept : b.unread pos ≤ b.ring)
    (found : b.published[pos]? = some e) : b.next? pos = some (.event (e.withSeq pos)) := by
  rw [next?, if_neg (Nat.not_lt.mpr kept), found]
  rfl

theorem next?_eq_none_iff : b.next? pos = none ↔ b.unread pos = 0 := by
  unfold next? unread
  split
  · exact iff_of_false nofun (by omega)
  · rw [Option.map_eq_none_iff, List.getElem?_eq_none_iff]
    omega

theorem next?_ne_nothing : b.next? pos ≠ some .nothing := by
  unfold next?
  split
  · nofun
  · rw [ne_eq, Option.map_eq_some_iff]
    rintro ⟨e, -, same⟩
    cases same

theorem next?_within {got : Reading} (next : b.next? pos = some got)
    (within : pos ≤ b.published.length) : pos + got.advance ≤ b.published.length := by
  unfold next? unread at next
  split at next
  · cases next
    show pos + (b.published.length - pos - b.ring) ≤ _
    omega
  · obtain ⟨e, found, rfl⟩ := Option.map_eq_some_iff.mp next
    exact (List.getElem?_eq_some_iff.mp found).choose

/-- Where the ring still holds all that is unread, it is read event by event. -/
theorem reads_kept (within : pos ≤ b.published.length) (kept : b.unread pos ≤ b.ring) :
    b.Reads pos ((b.numbered.drop pos).map .event) b.published.length := by
  induction left : b.published.length - pos generalizing pos with
  | zero =>
      obtain rfl : pos = b.published.length := by omega
      rw [List.drop_eq_nil_of_le (by simp [numbered])]
      exact .done (next?_eq_none_iff.mpr left)
  | succ n ih =>
      have inside : pos < b.published.length := by omega
      have here : b.numbered[pos]? = some (b.published[pos].withSeq pos) := by
        simp [numbered, inside]
      rw [List.drop_eq_getElem?_toList_append, here]
      have rest : b.Reads (pos + 1) ((b.numbered.drop (pos + 1)).map .event) b.published.length :=
        ih (by omega) (by unfold unread at kept ⊢; omega) (by omega)
      exact .more (next?_of_kept kept (List.getElem?_eq_getElem inside)) rest

theorem Reads.advance {gots : List Reading} {pos' : Nat} (reads : b.Reads pos gots pos') :
    pos' = pos + Reading.advances gots := by
  induction reads with
  | done => rfl
  | more _ _ ih => rw [ih, Reading.advances, Nat.add_assoc]

theorem drain_kept (start : Nat) :
    (b.bus.log.extract start b.bus.published).toList = b.numbered.drop start := by
  rw [published_bus, Array.toList_extract, List.extract_eq_take_drop, List.take_of_length_le]
  · rfl
  · simp [bus, numbered]

/-- Draining reads until nothing is left. -/
theorem drain_bus (within : pos ≤ b.published.length) :
    b.Reads pos (b.bus.drain ⟨pos⟩).1 b.published.length ∧
      (b.bus.drain ⟨pos⟩).2 = ⟨b.published.length⟩ := by
  unfold Bus.drain
  dsimp only
  rw [drain_kept, oldest_bus, published_bus]
  have furthest : max pos (b.published.length - b.ring) ≤ b.published.length := by omega
  refine ⟨?_, congrArg Reader.mk (Nat.max_eq_right furthest)⟩
  split
  · -- Lost events are reported first; the rest is still in the ring.
    have lags : b.ring < b.unread pos := by
      unfold unread
      omega
    have place : Nat.max pos (b.published.length - b.ring) = b.published.length - b.ring :=
      Nat.max_eq_right (by omega)
    have lost : b.published.length - b.ring - pos = b.unread pos - b.ring := by
      unfold unread
      omega
    have next : pos + (b.unread pos - b.ring) = b.published.length - b.ring := by
      unfold unread
      omega
    rw [place, lost]
    refine .more (if_pos lags) ?_
    show b.Reads (pos + (b.unread pos - b.ring)) _ _
    rw [next]
    exact reads_kept (by omega) (by unfold unread; omega)
  · have place : Nat.max pos (b.published.length - b.ring) = pos := Nat.max_eq_left (by omega)
    rw [place]
    exact reads_kept within (by unfold unread; omega)

end Bus.Record

namespace Exchange

/-! ## Keeping the books -/

/-- How far an answer takes the reader that asked. -/
def Reply.advance : Reply → Nat
  | .reading got => got.advance
  | .readings gots => Reading.advances gots
  | _ => 0

/-- What is written down of an exchange. Handles and readers are known by their number in order of
creation; `none` stands for one that was dropped. -/
structure Books where
  buses : List Bus.Record := []
  /-- Of each handle, the bus behind it. -/
  handles : List (Option Nat) := []
  /-- Of each reader, its bus and how far it got. -/
  readers : List (Option (Nat × Nat)) := []

namespace Books

def busOf? (b : Books) (handle : Nat) : Option Nat := b.handles[handle]?.join

def readerAt? (b : Books) (reader : Nat) : Option (Nat × Nat) := b.readers[reader]?.join

/-- What is written down of a bus. -/
def ofBus (b : Books) (bus : Nat) : Bus.Record := b.buses.getD bus { capacity := 0 }

/-- Whether every handle of a bus was dropped. -/
def isClosed (b : Books) (bus : Nat) : Bool := !b.handles.contains (some bus)

/-- A reader got further. -/
def advance (b : Books) (reader steps : Nat) : Books :=
  { b with readers := b.readers.modify reader (Option.map fun p => (p.1, p.2 + steps)) }

/-- How things stand for a reader: what is written down of its bus, whether that is closed, and
how far the reader got. -/
structure Standing where
  bus : Bus.Record
  isClosed : Bool
  pos : Nat

/-- How things stand for a reader that was not dropped. -/
def standing? (b : Books) (reader : Nat) : Option Standing :=
  (b.readerAt? reader).map fun p => ⟨b.ofBus p.1, b.isClosed p.1, p.2⟩

/-- Writes down a command and its answer. -/
def record (b : Books) (c : Command) (reply : Reply) : Books :=
  match c with
  | .new capacity =>
    { b with
      buses := b.buses ++ [{ capacity }]
      handles := b.handles ++ [some b.buses.length] }
  | .clone handle =>
    match b.busOf? handle with
    | none => b
    | some bus => { b with handles := b.handles ++ [some bus] }
  | .drop handle => { b with handles := b.handles.set handle none }
  | .subscribe handle =>
    match b.busOf? handle with
    | none => b
    | some bus => { b with readers := b.readers ++ [some (bus, (b.ofBus bus).published.length)] }
  | .dropReader reader => { b with readers := b.readers.set reader none }
  | .publish handle event times =>
    match b.busOf? handle with
    | none => b
    | some bus =>
      { b with
        buses := b.buses.modify bus fun x =>
          { x with published := x.published ++ List.replicate times event } }
  | .read reader => b.advance reader reply.advance
  | .drain reader => b.advance reader reply.advance
  | .unknown => b

/-- The books of an exchange that was empty at first, from the commands and their answers. -/
def of (transcript : List (Command × Reply)) : Books :=
  transcript.foldl (fun b x => b.record x.1 x.2) {}

/-! ## What the answer has to be -/

/-- How many events a reader has not read. -/
def Standing.unread (s : Standing) : Nat := s.bus.unread s.pos

/-- The answer to a reader: the next event if the ring still holds it, else how many events were
lost, and if nothing is unread that this is so for now or for good. -/
structure Standing.Answers (s : Standing) (reply : Reply) : Prop where
  event : ∀ e, reply = .reading (.event e) ↔
    s.unread ≤ s.bus.ring ∧ ∃ e₀, s.bus.published[s.pos]? = some e₀ ∧ e = e₀.withSeq s.pos
  lagged : ∀ n, reply = .reading (.lagged n) ↔
    s.bus.ring < s.unread ∧ n = s.unread - s.bus.ring
  empty : reply = .reading .nothing ↔ s.unread = 0 ∧ s.isClosed = false
  closed : reply = .closed ↔ s.unread = 0 ∧ s.isClosed = true

/-- The answer to a reader that is there is right; one that is not there is told so. -/
def ToReader (s? : Option Standing) (reply : Reply) (right : Standing → Prop) : Prop :=
  match s? with
  | none => reply = .noReader
  | some s => right s

/-- What the answer to a command has to be by the books. -/
def Justifies (b : Books) : Command → Reply → Prop
  | .new _, reply => reply = .index b.handles.length
  | .clone handle, reply =>
    reply = if (b.busOf? handle).isSome then .index b.handles.length else .noBus
  | .drop handle, reply => reply = if (b.busOf? handle).isSome then .done else .noBus
  | .subscribe handle, reply =>
    reply = if (b.busOf? handle).isSome then .index b.readers.length else .noBus
  | .dropReader reader, reply =>
    reply = if reader < b.readers.length then .done else .noReader
  | .publish handle _ _, reply => reply = if (b.busOf? handle).isSome then .done else .noBus
  | .read reader, reply => ToReader (b.standing? reader) reply fun s => s.Answers reply
  | .drain reader, reply => ToReader (b.standing? reader) reply fun s =>
    ∃ gots, reply = .readings gots ∧ s.bus.Reads s.pos gots s.bus.published.length
  | .unknown, reply => reply = .unknownCommand

/-! ## The exchange behind the books -/

/-- The exchange that the books describe. -/
def exchange (b : Books) : Exchange where
  buses := b.buses.map Bus.Record.bus
  handles := b.handles
  readers := b.readers.map (Option.map fun p => (p.1, ⟨p.2⟩))

/-- Handles and readers are those of buses there are, and no reader is ahead of its bus. -/
structure Sound (b : Books) : Prop where
  handles : ∀ bus, some bus ∈ b.handles → bus < b.buses.length
  readers : ∀ bus pos, some (bus, pos) ∈ b.readers →
    bus < b.buses.length ∧ pos ≤ (b.ofBus bus).published.length

variable {b : Books} {bus handle reader pos : Nat}

theorem busOf?_exchange (b : Books) (handle : Nat) : b.exchange.busOf? handle = b.busOf? handle :=
  rfl

theorem isClosed_exchange (b : Books) (bus : Nat) : b.exchange.isClosed bus = b.isClosed bus := rfl

theorem readerAt?_exchange (b : Books) (reader : Nat) :
    b.exchange.readerAt? reader = (b.readerAt? reader).map fun p => (p.1, ⟨p.2⟩) := by
  unfold Exchange.readerAt? readerAt? exchange
  rw [List.getElem?_map]
  cases b.readers[reader]? with
  | none => rfl
  | some p => cases p <;> rfl

theorem getElem?_exchange (inside : bus < b.buses.length) :
    b.exchange.buses[bus]? = some (b.ofBus bus).bus := by
  show (b.buses.map Bus.Record.bus)[bus]? = _
  rw [List.getElem?_map, ofBus, List.getD_eq_getElem?_getD, List.getElem?_eq_getElem inside]
  rfl

theorem Sound.bus_lt (sound : b.Sound) (found : b.busOf? handle = some bus) :
    bus < b.buses.length :=
  sound.handles bus (List.mem_of_getElem? (Option.join_eq_some_iff.mp found))

theorem Sound.reader_at (sound : b.Sound) (found : b.readerAt? reader = some (bus, pos)) :
    bus < b.buses.length ∧ pos ≤ (b.ofBus bus).published.length :=
  sound.readers bus pos (List.mem_of_getElem? (Option.join_eq_some_iff.mp found))

/-! ## One command -/

/-- An exchange that the books describe answers a command as they say, and is then described by
the books that have the command and its answer. -/
def Follows (b : Books) (c : Command) : Prop :=
  ∃ reply, b.exchange.step c = some ((b.record c reply).exchange, reply) ∧ b.Justifies c reply ∧
    (b.record c reply).Sound

theorem ofBus_append (inside : bus < b.buses.length) (x : Bus.Record) :
    { b with buses := b.buses ++ [x] }.ofBus bus = b.ofBus bus := by
  simp [ofBus, List.getElem?_append_left inside]

theorem follows_new (sound : b.Sound) {capacity : Nat} (possible : capacity ≤ Bus.largestCapacity) :
    b.Follows (.new capacity) := by
  refine ⟨.index b.handles.length, ?_, rfl, ?_, ?_⟩
  · unfold Exchange.step
    dsimp only
    rw [if_neg (Nat.not_lt.mpr possible)]
    simp [addBus, exchange, record, Bus.ofCapacity, Bus.Record.bus, Bus.Record.ring,
      Bus.Record.numbered]
  · intro bus mem
    show bus < (b.buses ++ [_]).length
    rw [List.length_append, List.length_singleton]
    rcases List.mem_append.mp mem with mem | mem
    · exact Nat.lt_succ_of_lt (sound.handles bus mem)
    · cases List.mem_singleton.mp mem
      exact Nat.lt_succ_self _
  · intro bus pos mem
    obtain ⟨inside, within⟩ := sound.readers bus pos mem
    refine ⟨?_, Nat.le_trans within (Nat.le_of_eq ?_)⟩
    · show bus < (b.buses ++ [_]).length
      rw [List.length_append]
      exact Nat.lt_add_right 1 inside
    · exact congrArg (fun x : Bus.Record => x.published.length) (ofBus_append inside _).symm

theorem follows_clone (sound : b.Sound) (handle : Nat) : b.Follows (.clone handle) := by
  unfold Follows Justifies record Exchange.step
  dsimp only
  rw [busOf?_exchange]
  cases found : b.busOf? handle with
  | none => exact ⟨_, rfl, rfl, sound⟩
  | some bus =>
      refine ⟨_, rfl, rfl, fun bus' mem => ?_, sound.readers⟩
      rcases List.mem_append.mp mem with mem | mem
      · exact sound.handles bus' mem
      · cases List.mem_singleton.mp mem
        exact sound.bus_lt found

theorem set_none_of_join {xs : List (Option Nat)} {i : Nat} (absent : xs[i]?.join = none) :
    xs.set i none = xs := by
  cases found : xs[i]? with
  | none => exact List.set_eq_of_length_le (List.getElem?_eq_none_iff.mp found)
  | some x =>
      rw [found] at absent
      obtain rfl : x = none := absent
      obtain ⟨inside, here⟩ := List.getElem?_eq_some_iff.mp found
      rw [← here, List.set_getElem_self]

theorem follows_drop (sound : b.Sound) (handle : Nat) : b.Follows (.drop handle) := by
  unfold Follows Justifies record Exchange.step
  dsimp only
  rw [busOf?_exchange]
  refine ⟨_, ?_, rfl, fun bus mem => ?_, sound.readers⟩
  · cases found : b.busOf? handle with
    | none =>
        rw [set_none_of_join found]
        rfl
    | some bus => rfl
  · rcases List.mem_or_eq_of_mem_set mem with mem | same
    · exact sound.handles bus mem
    · cases same

theorem follows_subscribe (sound : b.Sound) (handle : Nat) : b.Follows (.subscribe handle) := by
  unfold Follows Justifies record Exchange.step
  dsimp only
  rw [busOf?_exchange]
  cases found : b.busOf? handle with
  | none => exact ⟨_, rfl, rfl, sound⟩
  | some bus =>
      have inside := sound.bus_lt found
      dsimp only
      rw [getElem?_exchange inside]
      refine ⟨.index b.readers.length, ?_, rfl, sound.handles, fun bus' pos mem => ?_⟩
      · simp [exchange, Bus.subscribe, Bus.Record.published_bus]
      · rcases List.mem_append.mp mem with mem | mem
        · exact sound.readers bus' pos mem
        · cases List.mem_singleton.mp mem
          exact ⟨inside, Nat.le_refl _⟩

theorem follows_dropReader (sound : b.Sound) (reader : Nat) : b.Follows (.dropReader reader) := by
  unfold Follows Justifies record Exchange.step
  dsimp only
  have length : b.exchange.readers.length = b.readers.length := List.length_map ..
  rw [length]
  refine ⟨_, ?_, rfl, sound.handles, fun bus pos mem => ?_⟩
  · split
    · simp [exchange, List.map_set]
    · rename_i beyond
      rw [List.set_eq_of_length_le (Nat.le_of_not_lt beyond)]
  · rcases List.mem_or_eq_of_mem_set mem with mem | same
    · exact sound.readers bus pos mem
    · cases same

theorem publishTimes_bus (x : Bus.Record) (e : Event) (times : Nat) :
    x.bus.publishTimes e times =
      { x with published := x.published ++ List.replicate times e }.bus := by
  induction times generalizing x with
  | zero => simp [Bus.publishTimes]
  | succ n ih =>
      have once : x.bus.publish e = { x with published := x.published ++ [e] }.bus := by
        have last : x.bus.published = x.published.length := Bus.Record.published_bus x
        simp only [Bus.publish, last]
        simp [Bus.Record.bus, Bus.Record.ring, Bus.Record.numbered, List.mapIdx_append]
      rw [Bus.publishTimes, once, ih, List.replicate_succ, List.append_assoc]
      rfl

theorem follows_publish (sound : b.Sound) (handle : Nat) (e : Event) (times : Nat) :
    b.Follows (.publish handle e times) := by
  unfold Follows Justifies record Exchange.step
  dsimp only
  rw [busOf?_exchange]
  cases found : b.busOf? handle with
  | none => exact ⟨_, rfl, rfl, sound⟩
  | some bus =>
      refine ⟨.done, ?_, rfl, fun bus' mem => ?_, fun bus' pos mem => ?_⟩
      · have published : (b.buses.map Bus.Record.bus).modify bus (fun x => x.publishTimes e times) =
            (b.buses.modify bus fun x =>
              { x with published := x.published ++ List.replicate times e }).map
                Bus.Record.bus := by
          refine List.ext_getElem? fun i => ?_
          simp only [List.getElem?_modify, List.getElem?_map]
          cases b.buses[i]? with
          | none => rfl
          | some x => by_cases same : bus = i <;> simp [same, publishTimes_bus]
        simp [exchange, published]
      · exact (List.length_modify ..).symm ▸ sound.handles bus' mem
      · obtain ⟨inside, within⟩ := sound.readers bus' pos mem
        refine ⟨(List.length_modify ..).symm ▸ inside, Nat.le_trans within ?_⟩
        simp only [ofBus, List.getD_eq_getElem?_getD, List.getElem?_modify,
          List.getElem?_eq_getElem inside]
        by_cases same : bus = bus' <;> simp [same]

/-- Where a reader got. -/
theorem exchange_advance (found : b.readerAt? reader = some (bus, pos)) (steps : Nat) :
    (b.advance reader steps).exchange = b.exchange.moveReader reader bus ⟨pos + steps⟩ := by
  have here : b.readers[reader]? = some (some (bus, pos)) := Option.join_eq_some_iff.mp found
  unfold advance exchange moveReader
  simp only [Exchange.mk.injEq, true_and]
  refine List.ext_getElem? fun i => ?_
  simp only [List.getElem?_map, List.getElem?_modify, List.getElem?_set]
  by_cases same : reader = i
  · subst same
    obtain ⟨inside, same⟩ := List.getElem?_eq_some_iff.mp here
    simp [inside, same]
  · simp [same]

theorem Sound.advance (sound : b.Sound) {steps : Nat}
    (found : b.readerAt? reader = some (bus, pos))
    (within : pos + steps ≤ (b.ofBus bus).published.length) : (b.advance reader steps).Sound := by
  have here : b.readers[reader]? = some (some (bus, pos)) := Option.join_eq_some_iff.mp found
  refine ⟨sound.handles, fun bus' pos' mem => ?_⟩
  obtain ⟨i, at'⟩ := List.mem_iff_getElem?.mp mem
  have at' : (b.readers.modify reader _)[i]? = some (some (bus', pos')) := at'
  rw [List.getElem?_modify] at at'
  by_cases same : reader = i
  · subst same
    rw [here] at at'
    simp at at'
    obtain ⟨rfl, rfl⟩ := at'
    exact ⟨(sound.reader_at found).1, within⟩
  · simp [same] at at'
    exact sound.readers bus' pos' (List.mem_of_getElem? at')

theorem Standing.answers_of_next {s : Standing} {got : Reading}
    (next : s.bus.next? s.pos = some got) : s.Answers (.reading got) := by
  have left : s.unread ≠ 0 := fun none => by simp [Bus.Record.next?_eq_none_iff.mpr none] at next
  unfold Bus.Record.next? at next
  split at next
  · rename_i lags
    cases next
    refine ⟨fun e => ?_, fun n => ?_, ?_, ?_⟩
    · exact iff_of_false nofun fun kept => Nat.not_lt.mpr kept.1 lags
    · exact ⟨fun same => ⟨lags, by cases same; rfl⟩, fun same => by rw [same.2]; rfl⟩
    · exact iff_of_false nofun fun none => left none.1
    · exact iff_of_false nofun fun none => left none.1
  · rename_i kept
    obtain ⟨e, found, rfl⟩ := Option.map_eq_some_iff.mp next
    refine ⟨fun e' => ?_, fun n => ?_, ?_, ?_⟩
    · simp only [found, Reply.reading.injEq, Reading.event.injEq, Option.some.injEq,
        exists_eq_left']
      exact ⟨fun same => ⟨Nat.not_lt.mp kept, same.symm⟩, fun same => same.2.symm⟩
    · exact iff_of_false nofun fun lags => kept lags.1
    · exact iff_of_false nofun fun none => left none.1
    · exact iff_of_false nofun fun none => left none.1

theorem Standing.answers_of_none {s : Standing} (next : s.bus.next? s.pos = none) :
    s.Answers (if s.isClosed then .closed else .reading .nothing) := by
  have none : s.unread = 0 := Bus.Record.next?_eq_none_iff.mp next
  have beyond : s.bus.published[s.pos]? = Option.none := by
    have : s.bus.published.length - s.pos = 0 := none
    exact List.getElem?_eq_none_iff.mpr (by omega)
  refine ⟨fun e => ?_, fun n => ?_, ?_, ?_⟩
  · exact iff_of_false (by split <;> nofun) (by simp [beyond])
  · exact iff_of_false (by split <;> nofun) (by simp [none])
  · cases s.isClosed <;> simp [none]
  · cases s.isClosed <;> simp [none]

/-- There is one answer only. -/
theorem Standing.Answers.eq_of_next {s : Standing} {reply : Reply} (answers : s.Answers reply) :
    reply = match s.bus.next? s.pos with
      | some got => .reading got
      | none => if s.isClosed then .closed else .reading .nothing := by
  cases next : s.bus.next? s.pos with
  | some got =>
      have right := answers_of_next next
      cases got with
      | event e => exact (answers.event e).mpr ((right.event e).mp rfl)
      | lagged n => exact (answers.lagged n).mpr ((right.lagged n).mp rfl)
      | nothing => exact absurd next Bus.Record.next?_ne_nothing
  | none =>
      have unread : s.unread = 0 := Bus.Record.next?_eq_none_iff.mp next
      cases closed : s.isClosed with
      | false => exact answers.empty.mpr ⟨unread, closed⟩
      | true => exact answers.closed.mpr ⟨unread, closed⟩

theorem advance_zero (b : Books) (reader : Nat) : b.advance reader 0 = b := by
  have stays : (Option.map fun p : Nat × Nat => (p.1, p.2 + 0)) = id :=
    funext fun p => by cases p <;> rfl
  rw [advance, stays, List.modify_id]

theorem still {reply : Reply} (stays : reply.advance = 0) : b.advance reader reply.advance = b := by
  rw [stays, advance_zero]

theorem follows_read (sound : b.Sound) (reader : Nat) : b.Follows (.read reader) := by
  unfold Follows Justifies Exchange.step
  dsimp only
  rw [readerAt?_exchange, standing?]
  cases found : b.readerAt? reader with
  | none =>
      refine ⟨.noReader, ?_, rfl, ?_⟩ <;> rw [record, still rfl]
      · rfl
      · exact sound
  | some place =>
      obtain ⟨bus, pos⟩ := place
      obtain ⟨inside, within⟩ := sound.reader_at found
      dsimp only [Option.map_some]
      rw [getElem?_exchange inside]
      dsimp only
      rw [Bus.Record.read_bus]
      cases next : (b.ofBus bus).next? pos with
      | none =>
          dsimp only
          have stays : (if b.isClosed bus then Reply.closed else .reading .nothing).advance = 0 := by
            split <;> rfl
          refine ⟨if b.isClosed bus then .closed else .reading .nothing, ?_,
            Standing.answers_of_none next, ?_⟩
          · rw [isClosed_exchange, record, still stays]
          · rw [record, still stays]
            exact sound
      | some got =>
          refine ⟨.reading got, ?_, Standing.answers_of_next next,
            sound.advance found (Bus.Record.next?_within next within)⟩
          show _ = some ((b.advance reader got.advance).exchange, _)
          rw [exchange_advance found]
          cases got with
          | event e => rfl
          | lagged n => rfl
          | nothing => exact absurd next Bus.Record.next?_ne_nothing

theorem follows_drain (sound : b.Sound) (reader : Nat) : b.Follows (.drain reader) := by
  unfold Follows Justifies Exchange.step
  dsimp only
  rw [readerAt?_exchange, standing?]
  cases found : b.readerAt? reader with
  | none =>
      refine ⟨.noReader, ?_, rfl, ?_⟩ <;> rw [record, still rfl]
      · rfl
      · exact sound
  | some place =>
      obtain ⟨bus, pos⟩ := place
      obtain ⟨inside, within⟩ := sound.reader_at found
      obtain ⟨reads, last⟩ := Bus.Record.drain_bus within
      have far := reads.advance
      dsimp only [Option.map_some]
      rw [getElem?_exchange inside]
      dsimp only
      refine ⟨_, ?_, ⟨_, rfl, reads⟩, sound.advance found (Nat.le_of_eq far.symm)⟩
      show _ = some ((b.advance reader (Reading.advances _)).exchange, _)
      rw [exchange_advance found, ← far, last]

/-- Whatever command is carried out, the books stay those of the exchange. -/
theorem step_exchange (sound : b.Sound) (c : Command)
    (possible : ∀ capacity, c = .new capacity → capacity ≤ Bus.largestCapacity) :
    b.Follows c := by
  cases c with
  | new capacity => exact follows_new sound (possible capacity rfl)
  | clone handle => exact follows_clone sound handle
  | drop handle => exact follows_drop sound handle
  | subscribe handle => exact follows_subscribe sound handle
  | dropReader reader => exact follows_dropReader sound reader
  | publish handle e times => exact follows_publish sound handle e times
  | read reader => exact follows_read sound reader
  | drain reader => exact follows_drain sound reader
  | unknown => exact ⟨_, rfl, rfl, sound⟩

end Books

end Exchange

end Flotilla
