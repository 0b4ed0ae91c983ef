import Flotilla.Proofs.Books

/-!
# What the readers of an exchange are told

The answers to the commands on an exchange, over any number of buses, clones and readers, are those
that the books kept of the commands and answers before justify (`readers_told_exactly`). What a
reader got since it subscribed therefore goes through the events of its bus one by one, those it
lost being counted (`Bus.Record.Covers`), and neither another reader nor another bus changes how
things stand for it (`Exchange.Books.Concerns`).
-/

namespace Flotilla

/-- What a reader got goes through the events of a bus from one position to another: every event
is the one at the position, under its number, and takes it one further; a report on lost events
takes it as many further as it counts, at least one and never past the last event. -/
inductive Bus.Record.Covers (b : Record) : Nat → List Reading → Nat → Prop
  | start (pos : Nat) : Covers b pos [] pos
  | event {pos pos' : Nat} {e : Event} {rest : List Reading} (here : b.published[pos]? = some e)
      (later : Covers b (pos + 1) rest pos') : Covers b pos (.event (e.withSeq pos) :: rest) pos'
  | lagged {pos pos' n : Nat} {rest : List Reading} (lost : 1 ≤ n)
      (real : pos + n ≤ b.published.length) (later : Covers b (pos + n) rest pos') :
      Covers b pos (.lagged n :: rest) pos'
  | nothing {pos pos' : Nat} {rest : List Reading} (later : Covers b pos rest pos') :
      Covers b pos (.nothing :: rest) pos'

namespace Bus.Record

variable {b b' : Record} {pos mid pos' : Nat} {gots gots' : List Reading}

theorem Covers.append (first : b.Covers pos gots mid) (second : b.Covers mid gots' pos') :
    b.Covers pos (gots ++ gots') pos' := by
  induction first with
  | start => exact second
  | event here _ ih => exact .event here (ih second)
  | lagged lost real _ ih => exact .lagged lost real (ih second)
  | nothing _ ih => exact .nothing (ih second)

/-- What is published later changes nothing of what was told before. -/
theorem Covers.mono (covers : b.Covers pos gots pos') (grows : b.published <+: b'.published) :
    b'.Covers pos gots pos' := by
  have longer := grows.length_le
  obtain ⟨added, grown⟩ := grows
  induction covers with
  | start => exact .start _
  | event here _ ih =>
      have inside := (List.getElem?_eq_some_iff.mp here).choose
      exact .event (grown ▸ (List.getElem?_append_left inside).trans here) ih
  | lagged lost real _ ih => exact .lagged lost (Nat.le_trans real longer) ih
  | nothing _ ih => exact .nothing ih

theorem Covers.within (covers : b.Covers pos gots pos') (within : pos ≤ b.published.length) :
    pos' ≤ b.published.length := by
  induction covers with
  | start => exact within
  | event here _ ih => exact ih (List.getElem?_eq_some_iff.mp here).choose
  | lagged _ real _ ih => exact ih real
  | nothing _ ih => exact ih within

theorem covers_of_next {got : Reading} (next : b.next? pos = some got) :
    b.Covers pos [got] (pos + got.advance) := by
  unfold next? at next
  split at next
  · cases next
    exact .lagged (by omega) (by unfold unread at *; omega) (.start _)
  · obtain ⟨e, found, rfl⟩ := Option.map_eq_some_iff.mp next
    exact .event found (.start _)

theorem Reads.covers (reads : b.Reads pos gots pos') : b.Covers pos gots pos' := by
  induction reads with
  | done => exact .start _
  | more next _ ih => exact (covers_of_next next).append ih

end Bus.Record

namespace Exchange

/-- An exchange carries out commands, each with the answer beside it. -/
inductive Plays : Exchange → List (Command × Reply) → Exchange → Prop
  | done (x : Exchange) : Plays x [] x
  | next {x x' x'' : Exchange} {c : Command} {reply : Reply} {rest : List (Command × Reply)}
      (step : x.step c = some (x', reply)) (later : Plays x' rest x'') :
      Plays x ((c, reply) :: rest) x''

theorem Plays.runFrom {x x' : Exchange} {transcript : List (Command × Reply)}
    (plays : Plays x transcript x') :
    x.runFrom (transcript.map Prod.fst) = some (transcript.map Prod.snd) := by
  induction plays with
  | done => rfl
  | next step _ ih => simp [Exchange.runFrom, step, ih]

/-- What one reader got by a command. -/
def gotBy (reader : Nat) : Command × Reply → List Reading
  | (.read r, .reading got) => if r = reader then [got] else []
  | (.drain r, .readings gots) => if r = reader then gots else []
  | _ => []

/-- Everything one reader got, in order. -/
def readingsOf (reader : Nat) (transcript : List (Command × Reply)) : List Reading :=
  transcript.flatMap (gotBy reader)

namespace Books

/-- The books after some more commands and their answers. -/
def after (b : Books) (transcript : List (Command × Reply)) : Books :=
  transcript.foldl (fun b x => b.record x.1 x.2) b

variable {b : Books} {c : Command} {reply : Reply} {bus reader pos : Nat}
  {transcript : List (Command × Reply)}

/-! ## What one command leaves alone -/

theorem ofBus_publish (inside : bus < b.buses.length) (handle : Nat) (e : Event) (times : Nat)
    (reply : Reply) :
    (b.record (.publish handle e times) reply).ofBus bus =
      if b.busOf? handle = some bus then
        { b.ofBus bus with published := (b.ofBus bus).published ++ List.replicate times e }
      else b.ofBus bus := by
  simp only [record]
  cases found : b.busOf? handle with
  | none => rfl
  | some bus' =>
      simp only [ofBus, List.getD_eq_getElem?_getD, List.getElem?_modify,
        List.getElem?_eq_getElem inside, Option.some.injEq]
      by_cases same : bus' = bus <;> simp [same]

/-- What was published on a bus stays written down. -/
theorem published_record (inside : bus < b.buses.length) (c : Command) (reply : Reply) :
    (b.ofBus bus).published <+: ((b.record c reply).ofBus bus).published := by
  cases c with
  | new capacity => exact (congrArg Bus.Record.published (ofBus_append inside _)).symm ▸ List.prefix_rfl
  | publish handle e times =>
      rw [ofBus_publish inside]
      split
      · exact List.prefix_append ..
      · exact List.prefix_rfl
  | clone handle =>
      simp only [record]
      split <;> exact List.prefix_rfl
  | subscribe handle =>
      simp only [record]
      split <;> exact List.prefix_rfl
  | _ => exact List.prefix_rfl

theorem buses_record (inside : bus < b.buses.length) (c : Command) (reply : Reply) :
    bus < (b.record c reply).buses.length := by
  cases c with
  | new capacity => exact Nat.lt_of_lt_of_le inside (by simp [record])
  | clone handle =>
      simp only [record]
      split <;> exact inside
  | subscribe handle =>
      simp only [record]
      split <;> exact inside
  | publish handle e times =>
      simp only [record]
      split
      · exact inside
      · exact (List.length_modify ..).symm ▸ inside
  | _ => exact inside

theorem readerAt?_set_ne {r : Nat} (other : r ≠ reader) (x : Option (Nat × Nat)) :
    { b with readers := b.readers.set r x }.readerAt? reader = b.readerAt? reader := by
  simp [readerAt?, other]

theorem readerAt?_advance (b : Books) (r reader steps : Nat) :
    (b.advance r steps).readerAt? reader =
      if r = reader then (b.readerAt? reader).map fun p => (p.1, p.2 + steps)
      else b.readerAt? reader := by
  unfold readerAt? advance
  rw [List.getElem?_modify]
  by_cases same : r = reader
  · subst same
    rw [if_pos rfl]
    cases b.readers[r]? with
    | none => rfl
    | some x => simp
  · rw [if_neg same]
    cases b.readers[reader]? with
    | none => rfl
    | some x => simp [same]

theorem Justifies.read (justified : b.Justifies (.read reader) reply)
    (there : b.readerAt? reader = some (bus, pos)) :
    Standing.Answers ⟨b.ofBus bus, b.isClosed bus, pos⟩ reply := by
  have answers : ToReader (b.standing? reader) reply fun s => s.Answers reply := justified
  rw [standing?, there] at answers
  exact answers

theorem Justifies.drain (justified : b.Justifies (.drain reader) reply)
    (there : b.readerAt? reader = some (bus, pos)) :
    ∃ gots, reply = .readings gots ∧
      (b.ofBus bus).Reads pos gots (b.ofBus bus).published.length := by
  have answers : ToReader (b.standing? reader) reply fun s =>
      ∃ gots, reply = .readings gots ∧ s.bus.Reads s.pos gots s.bus.published.length := justified
  rw [standing?, there] at answers
  exact answers

theorem Justifies.read_absent (justified : b.Justifies (.read reader) reply)
    (absent : b.readerAt? reader = none) : reply = .noReader := by
  have answers : ToReader (b.standing? reader) reply fun s => s.Answers reply := justified
  rw [standing?, absent] at answers
  exact answers

theorem Justifies.drain_absent (justified : b.Justifies (.drain reader) reply)
    (absent : b.readerAt? reader = none) : reply = .noReader := by
  have answers : ToReader (b.standing? reader) reply fun s =>
      ∃ gots, reply = .readings gots ∧ s.bus.Reads s.pos gots s.bus.published.length := justified
  rw [standing?, absent] at answers
  exact answers

/-- Dropping another reader, reading with it, or anything else but dropping a reader leaves it where
it is, or takes it on by what it got. -/
theorem readerAt?_record (there : b.readerAt? reader = some (bus, pos))
    (justified : b.Justifies c reply) (kept : c ≠ .dropReader reader) :
    ∃ pos', (b.record c reply).readerAt? reader = some (bus, pos') ∧
      (b.ofBus bus).Covers pos (gotBy reader (c, reply)) pos' := by
  have stays : ∃ pos', b.readerAt? reader = some (bus, pos') ∧ (b.ofBus bus).Covers pos [] pos' :=
    ⟨pos, there, .start pos⟩
  cases c with
  | read r =>
      show ∃ pos', (b.advance r reply.advance).readerAt? reader = _ ∧ _
      rw [readerAt?_advance]
      by_cases same : r = reader
      · subst same
        rw [if_pos rfl, there]
        have answer := (justified.read there).eq_of_next
        dsimp only at answer
        refine ⟨_, rfl, ?_⟩
        rw [answer]
        cases next : (b.ofBus bus).next? pos with
        | some got =>
            simpa [gotBy, Reply.advance] using Bus.Record.covers_of_next next
        | none =>
            dsimp only
            cases b.isClosed bus with
            | true => exact .start pos
            | false => simpa [gotBy, Reply.advance] using .nothing (.start pos)
      · rw [if_neg same]
        have none : gotBy reader (.read r, reply) = [] := by
          cases reply <;> first | exact if_neg same | rfl
        rw [none]
        exact stays
  | drain r =>
      show ∃ pos', (b.advance r reply.advance).readerAt? reader = _ ∧ _
      rw [readerAt?_advance]
      by_cases same : r = reader
      · subst same
        rw [if_pos rfl, there]
        obtain ⟨gots, rfl, reads⟩ := justified.drain there
        refine ⟨_, rfl, ?_⟩
        have far := reads.advance
        simpa [gotBy, Reply.advance, ← far] using reads.covers
      · rw [if_neg same]
        have none : gotBy reader (.drain r, reply) = [] := by
          cases reply <;> first | exact if_neg same | rfl
        rw [none]
        exact stays
  | dropReader r =>
      have other : r ≠ reader := fun same => kept (same ▸ rfl)
      exact ⟨pos, (readerAt?_set_ne other none).trans there, .start pos⟩
  | subscribe handle =>
      refine ⟨pos, ?_, .start pos⟩
      simp only [record]
      split
      · exact there
      · have inside : reader < b.readers.length :=
          (List.getElem?_eq_some_iff.mp (Option.join_eq_some_iff.mp there)).choose
        exact (congrArg Option.join (List.getElem?_append_left inside)).trans there
  | clone handle =>
      refine ⟨pos, ?_, .start pos⟩
      simp only [record]
      split <;> exact there
  | publish handle e times =>
      refine ⟨pos, ?_, .start pos⟩
      simp only [record]
      split <;> exact there
  | _ => exact stays

/-- A reader that was dropped: its number stays in use. -/
structure Gone (b : Books) (reader : Nat) : Prop where
  inside : reader < b.readers.length
  absent : b.readerAt? reader = none

theorem gone_dropReader (there : b.readerAt? reader = some (bus, pos)) (reply : Reply) :
    (b.record (.dropReader reader) reply).Gone reader := by
  have inside : reader < b.readers.length :=
    (List.getElem?_eq_some_iff.mp (Option.join_eq_some_iff.mp there)).choose
  refine ⟨(List.length_set ..).symm ▸ inside, ?_⟩
  simp [record, readerAt?, inside]

theorem Gone.record (gone : b.Gone reader) (justified : b.Justifies c reply) :
    (b.record c reply).Gone reader ∧ gotBy reader (c, reply) = [] := by
  obtain ⟨inside, absent⟩ := gone
  have moved (r steps : Nat) : (b.advance r steps).Gone reader := by
    refine ⟨(List.length_modify ..).symm ▸ inside, ?_⟩
    rw [readerAt?_advance, absent]
    split <;> rfl
  cases c with
  | read r =>
      refine ⟨moved r _, ?_⟩
      by_cases same : r = reader
      · subst same
        rw [justified.read_absent absent]
        rfl
      · cases reply <;> first | exact if_neg same | rfl
  | drain r =>
      refine ⟨moved r _, ?_⟩
      by_cases same : r = reader
      · subst same
        rw [justified.drain_absent absent]
        rfl
      · cases reply <;> first | exact if_neg same | rfl
  | dropReader r =>
      refine ⟨⟨(List.length_set ..).symm ▸ inside, ?_⟩, rfl⟩
      by_cases same : r = reader
      · subst same
        simp [Books.record, readerAt?, inside]
      · exact (readerAt?_set_ne same none).trans absent
  | subscribe handle =>
      refine ⟨?_, rfl⟩
      simp only [Books.record]
      split
      · exact ⟨inside, absent⟩
      · refine ⟨?_, (congrArg Option.join (List.getElem?_append_left inside)).trans absent⟩
        exact Nat.lt_of_lt_of_le inside (by simp)
  | clone handle =>
      refine ⟨?_, rfl⟩
      simp only [Books.record]
      split <;> exact ⟨inside, absent⟩
  | publish handle e times =>
      refine ⟨?_, rfl⟩
      simp only [Books.record]
      split <;> exact ⟨inside, absent⟩
  | _ => exact ⟨⟨inside, absent⟩, rfl⟩

/-! ## Readers apart -/

/-- Whether a command is about a reader: a command to the reader itself, or one that publishes on
its bus or drops a handle of it. -/
def Concerns (b : Books) (reader : Nat) : Command → Prop
  | .read r => r = reader
  | .drain r => r = reader
  | .dropReader r => r = reader
  | .publish handle _ _ => b.busOf? handle = (b.readerAt? reader).map Prod.fst
  | .drop handle => b.busOf? handle = (b.readerAt? reader).map Prod.fst
  | _ => False

theorem isClosed_append {x : Nat} (same : x = bus → some bus ∈ b.handles) :
    { b with handles := b.handles ++ [some x] }.isClosed bus = b.isClosed bus := by
  have mem : some bus ∈ b.handles ++ [some x] ↔ some bus ∈ b.handles := by
    rw [List.mem_append, List.mem_singleton, Option.some.injEq]
    exact ⟨fun h => h.elim id fun eq => same eq.symm, .inl⟩
  simp only [isClosed, List.contains_eq_mem, mem]

theorem isClosed_drop {handle : Nat} (other : b.busOf? handle ≠ some bus) :
    { b with handles := b.handles.set handle none }.isClosed bus = b.isClosed bus := by
  have mem : some bus ∈ b.handles.set handle none ↔ some bus ∈ b.handles := by
    refine ⟨fun h => (List.mem_or_eq_of_mem_set h).resolve_right nofun, fun h => ?_⟩
    obtain ⟨i, found⟩ := List.mem_iff_getElem?.mp h
    have elsewhere : handle ≠ i := fun same =>
      other (Option.join_eq_some_iff.mpr (same ▸ found))
    exact List.mem_iff_getElem?.mpr ⟨i, (List.getElem?_set_ne elsewhere).trans found⟩
  simp only [isClosed, List.contains_eq_mem, mem]

/-- What is not about a reader changes nothing for it: another reader, whether of the same bus or
of another, another bus, a new clone. -/
theorem standing?_record (sound : b.Sound) (there : b.readerAt? reader = some (bus, pos))
    (apart : ¬ b.Concerns reader c) (reply : Reply) :
    (b.record c reply).standing? reader = b.standing? reader := by
  obtain ⟨known, -⟩ := sound.reader_at there
  have inside : reader < b.readers.length :=
    (List.getElem?_eq_some_iff.mp (Option.join_eq_some_iff.mp there)).choose
  have same {b' : Books} (readers : b'.readerAt? reader = some (bus, pos))
      (buses : b'.ofBus bus = b.ofBus bus) (handles : b'.isClosed bus = b.isClosed bus) :
      b'.standing? reader = b.standing? reader := by
    simp only [standing?, readers, there, Option.map_some, buses, handles]
  cases c with
  | new capacity =>
      refine same there (ofBus_append known _) (isClosed_append fun eq => ?_)
      exact absurd (eq ▸ known) (Nat.lt_irrefl _)
  | clone handle =>
      simp only [record]
      cases found : b.busOf? handle with
      | none => rfl
      | some x =>
          refine same there rfl (isClosed_append fun eq => ?_)
          exact List.mem_of_getElem? (eq ▸ Option.join_eq_some_iff.mp found)
  | drop handle =>
      refine same there rfl (isClosed_drop fun eq => apart ?_)
      exact eq.trans (there ▸ rfl)
  | subscribe handle =>
      simp only [record]
      split
      · rfl
      · exact same ((congrArg Option.join (List.getElem?_append_left inside)).trans there) rfl rfl
  | dropReader r => exact same ((readerAt?_set_ne apart none).trans there) rfl rfl
  | publish handle e times =>
      have elsewhere : b.busOf? handle ≠ some bus := fun eq => apart (eq.trans (there ▸ rfl))
      refine same ?_ ((ofBus_publish known ..).trans (if_neg elsewhere)) ?_ <;> simp only [record]
      · split <;> exact there
      · split <;> rfl
  | read r => exact same ((readerAt?_advance ..).trans ((if_neg apart).trans there)) rfl rfl
  | drain r => exact same ((readerAt?_advance ..).trans ((if_neg apart).trans there)) rfl rfl
  | unknown => rfl

/-! ## Whole conversations -/

/-- Commands with their answers, each the one that the books justify. -/
inductive Conversation : Books → List (Command × Reply) → Prop
  | done (b : Books) : Conversation b []
  | next {b : Books} {c : Command} {reply : Reply} {rest : List (Command × Reply)}
      (step : b.exchange.step c = some ((b.record c reply).exchange, reply))
      (justified : b.Justifies c reply) (sound : b.Sound)
      (later : Conversation (b.record c reply) rest) : Conversation b ((c, reply) :: rest)

theorem exists_conversation (sound : b.Sound) (commands : List Command)
    (possible : ∀ capacity, .new capacity ∈ commands → capacity ≤ Bus.largestCapacity) :
    ∃ transcript : List (Command × Reply),
      transcript.map Prod.fst = commands ∧ b.Conversation transcript := by
  induction commands generalizing b with
  | nil => exact ⟨[], rfl, .done b⟩
  | cons c rest ih =>
      obtain ⟨reply, step, justified, sound'⟩ :=
        step_exchange sound c fun capacity same => possible capacity (same ▸ List.mem_cons_self)
      obtain ⟨transcript, said, conversation⟩ :=
        ih sound' fun capacity mem => possible capacity (List.mem_cons_of_mem c mem)
      exact ⟨(c, reply) :: transcript, by rw [List.map_cons, said],
        .next step justified sound conversation⟩

theorem Conversation.plays (conversation : b.Conversation transcript) :
    Plays b.exchange transcript (b.after transcript).exchange := by
  induction conversation with
  | done b => exact .done b.exchange
  | next step _ _ _ ih => exact .next step ih

theorem Conversation.justifies {before rest : List (Command × Reply)}
    (conversation : b.Conversation (before ++ (c, reply) :: rest)) :
    (b.after before).Justifies c reply ∧ (b.after before).Sound ∧
      ((b.after before).record c reply).Conversation rest := by
  induction before generalizing b with
  | nil =>
      cases conversation with
      | next _ justified sound later => exact ⟨justified, sound, later⟩
  | cons x before ih =>
      cases conversation with
      | next _ _ _ later => exact ih later

theorem Conversation.published (conversation : b.Conversation transcript)
    (inside : bus < b.buses.length) :
    (b.ofBus bus).published <+: ((b.after transcript).ofBus bus).published := by
  induction conversation with
  | done => exact List.prefix_rfl
  | @next b c reply rest _ _ _ _ ih =>
      exact (published_record inside c reply).trans (ih (buses_record inside c reply))

theorem Conversation.gone (conversation : b.Conversation transcript) (gone : b.Gone reader) :
    (b.after transcript).Gone reader ∧ readingsOf reader transcript = [] := by
  induction conversation with
  | done => exact ⟨gone, rfl⟩
  | next _ justified _ _ ih =>
      obtain ⟨gone, nothing⟩ := gone.record justified
      obtain ⟨gone, rest⟩ := ih gone
      exact ⟨gone, by rw [readingsOf, List.flatMap_cons, nothing]; exact rest⟩

/-- What a reader gets in a conversation goes through the events of its bus. -/
theorem Conversation.covers (conversation : b.Conversation transcript)
    (there : b.readerAt? reader = some (bus, pos)) (inside : bus < b.buses.length) :
    ∃ pos', ((b.after transcript).ofBus bus).Covers pos (readingsOf reader transcript) pos' ∧
      ∀ p, (b.after transcript).readerAt? reader = some p → p = (bus, pos') := by
  induction conversation generalizing pos with
  | done => exact ⟨pos, .start pos, fun p found => Option.some.inj (found.symm.trans there)⟩
  | @next b c reply rest step justified sound later ih =>
      by_cases drops : c = .dropReader reader
      · subst drops
        obtain ⟨gone, nothing⟩ := later.gone (gone_dropReader there reply)
        refine ⟨pos, ?_, fun p found => absurd (gone.absent.symm.trans found) nofun⟩
        show Bus.Record.Covers _ pos (readingsOf reader rest) pos
        rw [nothing]
        exact .start pos
      · obtain ⟨mid, there', got⟩ := readerAt?_record there justified drops
        have inside' := buses_record inside c reply
        obtain ⟨pos', covers, last⟩ := ih there' inside'
        refine ⟨pos', ?_, last⟩
        rw [readingsOf, List.flatMap_cons]
        have grows := (published_record inside c reply).trans (later.published inside')
        exact (got.mono grows).append covers

end Books

/-- What holds of a conversation with an exchange that was empty at first. -/
structure Faithful (transcript : List (Command × Reply)) (x : Exchange) : Prop where
  /-- A bus holds what was published through its handles, the first under the number zero and so
  on, and nothing but the number is changed. -/
  numbered : ∀ bus, bus < (Books.of transcript).buses.length → ∃ b, x.buses[bus]? = some b ∧
    b.log.toList = ((Books.of transcript).ofBus bus).published.mapIdx fun n e => e.withSeq n
  /-- Every answer is the one that the commands and answers before it justify. -/
  justified : ∀ before c reply after, transcript = before ++ (c, reply) :: after →
    (Books.of before).Justifies c reply
  /-- What a reader got since it subscribed goes through the events of its bus, from the number
  published before on. -/
  unbroken : ∀ before handle reader after bus,
    transcript = before ++ (.subscribe handle, .index reader) :: after →
    (Books.of before).busOf? handle = some bus →
    ∃ pos, ((Books.of transcript).ofBus bus).Covers ((Books.of before).ofBus bus).published.length
        (readingsOf reader after) pos ∧
      pos ≤ ((Books.of transcript).ofBus bus).published.length
  /-- Only what is about a reader changes how things stand for it. -/
  apart : ∀ before c reply after reader, transcript = before ++ (c, reply) :: after →
    ((Books.of before).readerAt? reader).isSome → ¬ (Books.of before).Concerns reader c →
    (Books.of (before ++ [(c, reply)])).standing? reader = (Books.of before).standing? reader

namespace Books

variable {b : Books} {transcript : List (Command × Reply)}

theorem of_append (before after : List (Command × Reply)) :
    of (before ++ after) = (of before).after after := List.foldl_append

theorem sound_empty : Sound {} := ⟨fun _ mem => (nomatch mem), fun _ _ mem => (nomatch mem)⟩

theorem Conversation.faithful (conversation : Conversation {} transcript) :
    Faithful transcript (of transcript).exchange := by
  refine ⟨fun bus inside => ⟨_, getElem?_exchange inside, rfl⟩, ?_, ?_, ?_⟩
  · rintro before c reply after rfl
    exact conversation.justifies.1
  · rintro before handle reader after bus rfl found
    obtain ⟨justified, sound, later⟩ := conversation.justifies
    have inside := sound.bus_lt found
    have number : Reply.index reader = .index (of before).readers.length := by
      have answer : Reply.index reader =
          if ((of before).busOf? handle).isSome then .index (of before).readers.length
          else .noBus := justified
      rwa [found] at answer
    cases number
    have subscribed : ((of before).record (.subscribe handle)
        (.index (of before).readers.length)).readerAt? (of before).readers.length =
        some (bus, ((of before).ofBus bus).published.length) := by
      simp [record, found, readerAt?]
    obtain ⟨pos, covers, -⟩ := later.covers subscribed (buses_record inside _ _)
    rw [of_append]
    refine ⟨pos, covers, covers.within ?_⟩
    exact ((published_record inside _ _).trans (later.published (buses_record inside _ _))).length_le
  · rintro before c reply after reader rfl there apart
    obtain ⟨-, sound, -⟩ := conversation.justifies
    obtain ⟨⟨bus, pos⟩, there⟩ := Option.isSome_iff_exists.mp there
    rw [of_append]
    exact standing?_record sound there apart reply

end Books

/-- Whatever is asked of an exchange that is empty at first, with capacities that a bus can have,
it answers, and its readers are told exactly what was published. -/
theorem readers_told_exactly (commands : List Command)
    (possible : ∀ capacity, .new capacity ∈ commands → capacity ≤ Bus.largestCapacity) :
    ∃ transcript x, transcript.map Prod.fst = commands ∧ Plays {} transcript x ∧
      runFrom {} commands = some (transcript.map Prod.snd) ∧ Faithful transcript x := by
  obtain ⟨transcript, said, conversation⟩ :=
    Books.exists_conversation Books.sound_empty commands possible
  have plays : Plays {} transcript (Books.of transcript).exchange := conversation.plays
  exact ⟨transcript, _, said, plays, said ▸ plays.runFrom, conversation.faithful⟩

/-- Two readers of a small ring, published on through a clone: the first loses an event, the second
is told that the bus is closed. -/
def overrunAndClose : List Command :=
  [.new 2, .clone 0, .subscribe 0, .publish 1 (Event.botQueued "a") 3, .subscribe 1, .read 0,
    .publish 0 .shutdownRequested 1, .drain 0, .drop 0, .drop 1, .read 1, .read 1]

theorem readers_told_exactly_overrun :
    (∀ capacity, .new capacity ∈ overrunAndClose → capacity ≤ Bus.largestCapacity) ∧
      ∃ transcript x, transcript.map Prod.fst = overrunAndClose ∧ Plays {} transcript x ∧
        runFrom {} overrunAndClose = some (transcript.map Prod.snd) ∧ Faithful transcript x := by
  have possible : ∀ capacity, .new capacity ∈ overrunAndClose → capacity ≤ Bus.largestCapacity := by
    intro capacity mem
    simp only [overrunAndClose, List.mem_cons, Command.new.injEq, reduceCtorEq, List.not_mem_nil,
      or_false] at mem
    rw [mem]
    decide
  exact ⟨possible, readers_told_exactly overrunAndClose possible⟩

end Exchange

end Flotilla
