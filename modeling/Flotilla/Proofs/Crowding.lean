import Flotilla.Proofs.Accounts

/-!
# Subscribers that crowd the bus

Reports on refusals are published on the very bus that the listener reads: a subscriber that
falls behind takes up room that others may need. A subscriber that takes what it is offered
misses nothing while the ring has room for the reports as well (`Fleet.misses_nothing`); where it
has room for the other events alone, the reports may crowd one of them out
(`Fleet.not_misses_nothing_of_crowded`).

What the listener has still to read is weighed (`Bus.load`): a report on a refusal counts once,
another event as often as reports may follow from it. To read an event never adds to the load.
-/

namespace Flotilla

/-! ## The load of a bus -/

/-- Whether reports may follow from an event of this kind. -/
def EventKind.isReportable (k : EventKind) : Bool := k ≠ .subscriberOverflow

theorem EventKind.isReportable_of_plain {k : EventKind} (plain : k.isDiagnostic = false) :
    k.isReportable = true := by
  cases k <;> first | rfl | cases plain

/-- What events of these kinds weigh, if as many reports may follow from one. -/
def EventKind.load (w : Nat) (ks : List EventKind) : Nat :=
  (ks.map fun k => if k.isReportable then w else 1).sum

theorem EventKind.load_append (w : Nat) (ks ls : List EventKind) :
    EventKind.load w (ks ++ ls) = EventKind.load w ks + EventKind.load w ls := by
  rw [EventKind.load, List.map_append, List.sum_append]
  rfl

theorem EventKind.load_of_reportable {w : Nat} {ks : List EventKind}
    (all : ∀ k ∈ ks, k.isReportable = true) : EventKind.load w ks = w * ks.countP isReportable := by
  induction ks with
  | nil => rfl
  | cons k ks ih =>
      obtain ⟨first, rest⟩ := List.forall_mem_cons.mp all
      rw [List.countP_cons_of_pos first, Nat.mul_succ, ← ih rest, EventKind.load, List.map_cons,
        if_pos first, List.sum_cons, Nat.add_comm]
      rfl

theorem EventKind.load_of_reports {w : Nat} {ks : List EventKind}
    (all : ∀ k ∈ ks, k.isReportable = false) :
    EventKind.load w ks = ks.length ∧ ks.countP isReportable = 0 := by
  induction ks with
  | nil => exact ⟨rfl, rfl⟩
  | cons k ks ih =>
      obtain ⟨first, rest⟩ := List.forall_mem_cons.mp all
      obtain ⟨load, none⟩ := ih rest
      rw [List.countP_cons_of_neg (by rw [first]; nofun), List.length_cons, ← load, EventKind.load,
        List.map_cons, if_neg (by rw [first]; nofun), List.sum_cons, Nat.add_comm]
      exact ⟨rfl, none⟩

theorem EventKind.length_le_load {w : Nat} (some : 1 ≤ w) (ks : List EventKind) :
    ks.length ≤ EventKind.load w ks := by
  induction ks with
  | nil => exact Nat.le_refl 0
  | cons k ks ih =>
      rw [EventKind.load, List.map_cons, List.sum_cons, List.length_cons, Nat.add_comm]
      refine Nat.add_le_add ?_ ih
      split
      · exact some
      · exact Nat.le_refl 1

namespace Bus

variable {b : Bus} {r r' : Reader} {w : Nat}

/-- The kinds of the events published, in order. -/
def kinds (b : Bus) : List EventKind := b.log.toList.map Event.kind

/-- How many events of certain kinds were published. -/
def amount (b : Bus) (counts : EventKind → Bool) : Nat := b.kinds.countP counts

/-- What the events weigh that a reader has not read. -/
def load (b : Bus) (r : Reader) (w : Nat) : Nat := EventKind.load w (b.kinds.drop r.next)

theorem length_kinds (b : Bus) : b.kinds.length = b.published := by
  rw [kinds, List.length_map]
  rfl

theorem kinds_publishAll (b : Bus) (es : List Event) :
    (b.publishAll es).kinds = b.kinds ++ es.map Event.kind := by
  induction es generalizing b with
  | nil => exact (List.append_nil _).symm
  | cons e es ih =>
      rw [publishAll_cons, ih, kinds, log_publish, Array.toList_push, List.map_append,
        List.append_assoc]
      rfl

theorem slots_publishAll (b : Bus) (es : List Event) : (b.publishAll es).slots = b.slots := by
  induction es generalizing b with
  | nil => rfl
  | cons e es ih => exact ih (b.publish e)

theorem amount_publishAll (b : Bus) (es : List Event) (counts : EventKind → Bool) :
    (b.publishAll es).amount counts = b.amount counts + (es.map Event.kind).countP counts := by
  rw [amount, kinds_publishAll, List.countP_append]
  rfl

theorem load_publishAll (place : r.next ≤ b.published) (es : List Event) :
    (b.publishAll es).load r w = b.load r w + EventKind.load w (es.map Event.kind) := by
  rw [load, kinds_publishAll, List.drop_append_of_le_length (b.length_kinds.symm ▸ place),
    EventKind.load_append]
  rfl

theorem load_of_read (read : b.published ≤ r.next) : b.load r w = 0 := by
  rw [load, List.drop_eq_nil_of_le (b.length_kinds.symm ▸ read)]
  rfl

theorem unread_le_load (some : 1 ≤ w) : b.published - r.next ≤ b.load r w := by
  have unread := EventKind.length_le_load some (b.kinds.drop r.next)
  rwa [List.length_drop, length_kinds] at unread

/-- An event that is read weighs nothing any more. -/
theorem load_of_event {e : Event} (got : b.read r = (.event e, r')) :
    b.load r w = (if e.kind.isReportable then w else 1) + b.load r' w := by
  obtain ⟨found, next⟩ := read_event got
  have there : b.kinds[r.next]? = some e.kind := by
    rw [kinds, List.getElem?_map, Array.getElem?_toList, found]
    rfl
  obtain ⟨inside, eq⟩ := List.getElem?_eq_some_iff.mp there
  rw [load, load, List.drop_eq_getElem_cons inside, next, eq, EventKind.load, List.map_cons,
    List.sum_cons]
  rfl

/-- Events that are published add to what has still to be read what they weigh. -/
theorem load_le_of_reportable (place : r.next ≤ b.published) {es : List Event}
    (all : ∀ e ∈ es, e.kind.isReportable = true) :
    (b.publishAll es).load r w + w * b.amount EventKind.isReportable ≤
      b.load r w + w * (b.publishAll es).amount EventKind.isReportable := by
  have kinds : ∀ k ∈ es.map Event.kind, k.isReportable = true := List.forall_mem_map.mpr all
  rw [load_publishAll place, amount_publishAll, EventKind.load_of_reportable kinds, Nat.mul_add]
  omega

/-- An event that is read pays for the reports that follow from it. -/
theorem load_le_of_reports {e : Event} (got : b.read r = (.event e, r')) {es : List Event}
    (all : ∀ k ∈ es.map Event.kind, k.isReportable = false)
    (few : es.length ≤ if e.kind.isReportable then w else 1) :
    (b.publishAll es).load r' w + w * b.amount EventKind.isReportable ≤
      b.load r w + w * (b.publishAll es).amount EventKind.isReportable := by
  obtain ⟨found, next⟩ := read_event got
  have place : r'.next ≤ b.published := next ▸ (Array.getElem?_eq_some_iff.mp found).choose
  obtain ⟨load, none⟩ := EventKind.load_of_reports (w := w) all
  rw [load_publishAll place, amount_publishAll, load, none, List.length_map, load_of_event got,
    Nat.add_zero]
  omega

/-- A reader does not lag while what it has to read weighs no more than the ring holds. -/
theorem not_lagged_of_load (some : 1 ≤ w) (room : b.load r w ≤ b.slots) (n : Nat) :
    b.read r ≠ (.lagged n, r') := by
  have unread := unread_le_load (b := b) (r := r) some
  unfold Bus.read oldest
  rw [if_neg (by omega)]
  split <;> nofun

end Bus

/-! ## Reports that follow from an event -/

theorem Feed.overflow?_of_accepts {feed : Feed} (accepts : feed.refusal? = none) (e : Event) :
    feed.overflow? e = none := by
  rw [overflow?, accepts]
  exact ite_self none

namespace Fanout

variable {fanout : Fanout} {e : Event}

theorem isReportable_overflows (fanout : Fanout) (e : Event) :
    ∀ k ∈ (fanout.overflows e).map Event.kind, k.isReportable = false := by
  intro k mem
  obtain ⟨report, inside, rfl⟩ := List.mem_map.mp mem
  rw [kind_overflows inside]
  rfl

/-- Where one of the subscribers takes an event, the reports that follow from it are on
others. -/
theorem length_overflows_le {feed : Feed} {i : Nat} (found : fanout.feeds[i]? = some feed)
    (accepts : feed.refusal? = none) (e : Event) :
    (fanout.overflows e).length ≤ if e.kind.isReportable then fanout.feeds.length - 1 else 0 := by
  unfold overflows
  split
  · refine Nat.le_sub_one_of_lt (List.length_filterMap_lt_length_iff_exists.mpr ?_)
    exact ⟨feed, List.mem_of_getElem? found, Feed.overflow?_of_accepts accepts e⟩
  · rename_i report
    have report : e.kind = .subscriberOverflow := by simpa [EventKind.isReportable] using report
    refine Nat.le_of_eq (List.length_eq_zero_iff.mpr (List.filterMap_eq_nil_iff.mpr ?_))
    intro feed _
    rw [Feed.overflow?, if_pos report]

end Fanout

namespace Fleet

variable {f₀ : Fleet} {m i : Nat} {p : ManagerPlan} {s : Subscriber} {mv : Move} {ms : List Move}
  {st st' : Station} {feed feed' : Feed}

/-! ## How fast events come -/

/-- While a thing does not happen, no more events of certain kinds are published on the bus of a
manager than a bound. -/
def Paced (f₀ : Fleet) (m : Nat) (counts : EventKind → Bool) (breaks : Fleet → Move → Prop)
    (bound : Nat) (ms : List Move) : Prop :=
  ∀ pre mid, pre ++ mid <+: ms → ¬ (f₀.play pre).During mid breaks →
    ((f₀.play (pre ++ mid)).manager m).bus.amount counts ≤
      ((f₀.play pre).manager m).bus.amount counts + bound

/-- The listener of a manager finds that it has read everything. -/
def FindsNothing (m : Nat) (f : Fleet) (mv : Move) : Prop := f.reading? m mv = some .nothing

/-- The listener of a manager has its turn. -/
def Listens (m : Nat) (f : Fleet) (mv : Move) : Prop :=
  mv = .turn ∧ f.tasks.running = some (.listener m)

theorem Paced.of_prefix {counts : EventKind → Bool} {breaks : Fleet → Move → Prop} {bound : Nat}
    {ms' : List Move} (paced : f₀.Paced m counts breaks bound ms') (before : ms <+: ms') :
    f₀.Paced m counts breaks bound ms :=
  fun pre mid sub => paced pre mid (sub.trans before)

/-! ## A subscriber that takes everything -/

/-- What the listener has still to read weighs no more than what was published since it had last
read everything. -/
def Keeps (f₀ : Fleet) (m w : Nat) (ms : List Move) (st : Station) : Prop :=
  ∃ pre mid, pre ++ mid = ms ∧ ¬ (f₀.play pre).During mid (FindsNothing m) ∧
    st.bus.load st.relay.reader w +
        w * ((f₀.play pre).manager m).bus.amount EventKind.isReportable ≤
      w * st.bus.amount EventKind.isReportable

/-- A subscriber was offered every event that the listener has read, and has taken it. -/
structure Takes (f₀ : Fleet) (m i : Nat) (p : ManagerPlan) (s : Subscriber) (ms : List Move)
    (st : Station) (feed : Feed) : Prop where
  found : st.relay.fanout.feeds[i]? = some feed
  subscriber : feed.subscriber = s
  lives : feed.worker ≠ .dead
  free : feed.isBlocked = false
  taken : feed.taken = st.bus.log.toList.take st.relay.reader.next
  size : st.relay.fanout.feeds.length = p.subscribers.length
  slots : st.bus.slots = p.build.bus.slots
  keeps : f₀.Keeps m (max 1 (p.subscribers.length - 1)) ms st

/-- The pace at which a subscriber misses nothing: since the listener had last read everything,
the ring has room for what is published, if as many reports may follow from an event as there are
other subscribers. -/
def IsPaced (f₀ : Fleet) (m : Nat) (p : ManagerPlan) : List Move → Prop :=
  f₀.Paced m EventKind.isReportable (FindsNothing m)
    (p.build.bus.slots / max 1 (p.subscribers.length - 1))

/-- Few events come at every pace. -/
theorem Paced.of_few {managers : List ManagerPlan} {bots : List BotPlan} (has : m < managers.length)
    (served : managers[m].subscribers ≠ []) {counts : EventKind → Bool}
    {breaks : Fleet → Move → Prop} {bound : Nat}
    (few : (((raw managers bots).play ms).manager m).bus.amount counts ≤ bound) :
    (raw managers bots).Paced m counts breaks bound ms := by
  rintro pre mid ⟨post, rfl⟩ -
  obtain ⟨relay, serving⟩ := serves_play has served bots (pre ++ mid)
  obtain ⟨es, bus⟩ := serving.bus_play post
  rw [play_append, bus, Bus.amount_publishAll] at few
  omega

theorem Keeps.snoc {w : Nat} (keeps : f₀.Keeps m w ms st)
    (unread : ¬ FindsNothing m (f₀.play ms) mv)
    (more : st'.bus.load st'.relay.reader w + w * st.bus.amount EventKind.isReportable ≤
      st.bus.load st.relay.reader w + w * st'.bus.amount EventKind.isReportable) :
    f₀.Keeps m w (ms ++ [mv]) st' := by
  obtain ⟨pre, mid, rfl, since, load⟩ := keeps
  refine ⟨pre, mid ++ [mv], (List.append_assoc ..).symm, fun finds => ?_, by omega⟩
  rw [play_append] at unread
  exact (During.snoc_iff.mp finds).elim since unread

theorem Keeps.anew {w : Nat} (bus : ((f₀.play ms).manager m).bus = st.bus)
    (read : st.bus.published ≤ st.relay.reader.next) : f₀.Keeps m w ms st := by
  refine ⟨ms, [], List.append_nil ms, During.not_nil, ?_⟩
  rw [Bus.load_of_read read, bus, Nat.zero_add]

/-- The ring has room for what the listener has still to read. -/
theorem Takes.room (takes : f₀.Takes m i p s ms st feed) (paced : f₀.IsPaced m p ms)
    (bus : ((f₀.play ms).manager m).bus = st.bus) :
    st.bus.load st.relay.reader (max 1 (p.subscribers.length - 1)) ≤ st.bus.slots := by
  obtain ⟨pre, mid, rfl, since, load⟩ := takes.keeps
  have few := paced pre mid List.prefix_rfl since
  rw [bus] at few
  rw [takes.slots]
  generalize max 1 (p.subscribers.length - 1) = w at few load ⊢
  have held : w * (p.build.bus.slots / w) ≤ p.build.bus.slots := Nat.mul_div_le _ _
  have total := Nat.mul_le_mul_left w few
  rw [Nat.mul_add] at total
  omega

/-- A subscriber with room for every event refuses none. -/
theorem Takes.accepts (takes : f₀.Takes m i p s ms st feed)
    (serving : (f₀.play ms).Serving m st.relay) (reads : st.relay.listening = .reading)
    (unread : st.relay.reader.next < st.bus.published) (roomy : st.bus.published ≤ s.capacity) :
    feed.refusal? = none := by
  have attended := serving.workers i feed takes.found
  have isOpen : st.relay.fanout.isOpen = true := by
    rw [serving.isOpen, reads]
    rfl
  rw [isOpen] at attended
  rw [Feed.refusal?_of_lives takes.lives attended, if_neg]
  have some : s.capacity ≤ feed.subscriber.places := by
    rw [takes.subscriber]
    exact Nat.le_max_left ..
  have all := congrArg List.length takes.taken
  rw [Feed.taken, List.length_append, List.length_take] at all
  unfold Feed.isFull
  rw [decide_eq_true_eq]
  omega

/-- What is left to show in a move is that the subscriber takes what the listener reads, and that
the listener keeps up. -/
theorem Takes.next (takes : f₀.Takes m i p s ms st feed) (begins : s.AlwaysBegins)
    (takesNone : s.handling ≠ .block) {got : Option Reading} (moves : Station.Moves got st st')
    {offered report : Option Event} (fed : feed.Moves offered report feed')
    (found : st'.relay.fanout.feeds[i]? = some feed') (mv : Move)
    (taken : feed'.taken = st'.bus.log.toList.take st'.relay.reader.next)
    (keeps : f₀.Keeps m (max 1 (p.subscribers.length - 1)) (ms ++ [mv]) st') :
    f₀.Takes m i p s (ms ++ [mv]) st' feed' := by
  obtain ⟨es, told⟩ := moves.bus
  have slots : st'.bus.slots = p.build.bus.slots := by
    rw [told, Bus.slots_publishAll, takes.slots]
  have size := moves.length_feeds.trans takes.size
  have subscriber := fed.subscriber.trans takes.subscriber
  rw [← takes.subscriber] at begins takesNone
  exact ⟨found, subscriber, fed.lives begins takes.lives, fed.isBlocked takesNone takes.free, taken,
    size, slots, keeps⟩

/-- A subscriber that has taken everything does so in every move. -/
theorem Takes.move (takes : f₀.Takes m i p s ms st feed) (begins : s.AlwaysBegins)
    (takesNone : s.handling ≠ .block) (serving : (f₀.play ms).Serving m st.relay)
    (bus : ((f₀.play ms).manager m).bus = st.bus)
    (bus' : ((f₀.play (ms ++ [mv])).manager m).bus = st'.bus)
    (paced : f₀.IsPaced m p ms) (roomy : st.bus.published ≤ s.capacity)
    (moves : Station.Moves ((f₀.play ms).reading? m mv) st st') :
    ∃ feed', f₀.Takes m i p s (ms ++ [mv]) st' feed' := by
  obtain ⟨report, feed', found', fed⟩ := moves.exists_feed takes.found
  obtain ⟨es, told⟩ := moves.bus
  have place : st.relay.reader.next ≤ st.bus.published := bus ▸ serving.place
  have kept : st'.bus.log.toList.take st.relay.reader.next =
      st.bus.log.toList.take st.relay.reader.next := by
    obtain ⟨more, eq⟩ := st.bus.log_publishAll es
    rw [told, ← eq, List.take_append_of_le_length place]
  have room := takes.room paced bus
  have accepts := takes.accepts serving
  have weighs : 1 ≤ max 1 (p.subscribers.length - 1) := Nat.le_max_left ..
  have others : p.subscribers.length - 1 ≤ max 1 (p.subscribers.length - 1) := Nat.le_max_right ..
  refine ⟨feed', ?_⟩
  have done := takes.next begins takesNone moves fed found' mv
  -- Where nothing is offered, only what is still to be read has to be looked at.
  have quiet (noEvent : ((f₀.play ms).reading? m mv).bind Reading.event? = none)
      (reader : st'.relay.reader = st.relay.reader)
      (keeps : f₀.Keeps m (max 1 (p.subscribers.length - 1)) (ms ++ [mv]) st') :
      f₀.Takes m i p s (ms ++ [mv]) st' feed' := by
    rw [noEvent] at fed
    rw [← takes.subscriber] at begins
    exact done (by rw [fed.taken begins, takes.taken, reader, kept]) keeps
  have snoc : (¬ (f₀.play ms).reading? m mv = some .nothing) → _ → f₀.Keeps m _ (ms ++ [mv]) st' :=
    takes.keeps.snoc
  generalize (f₀.play ms).reading? m mv = got at moves fed quiet snoc
  generalize max 1 (p.subscribers.length - 1) = w at room done quiet snoc weighs others
  cases moves with
  | @passed _ e reader reads got =>
      obtain ⟨found, next⟩ := Bus.read_event got
      have accepts := accepts reads (Array.getElem?_eq_some_iff.mp found).choose roomy
      refine done ?_ (snoc nofun (Bus.load_le_of_reports got
        (st.relay.fanout.isReportable_overflows e) ?_))
      · have taken : feed'.taken = feed.taken ++ [e] := by
          cases fed
          rw [Feed.taken_offer, accepts]
          rfl
        have there : (st.bus.publishAll (st.relay.fanout.overflows e)).log.toList[
            st.relay.reader.next]? = some e := by
          rw [Array.getElem?_toList]
          exact Bus.getElem?_publishAll found _
        show feed'.taken = List.take reader.next _
        rw [next, List.take_add_one, kept, there, taken, takes.taken]
        rfl
      · have few := Fanout.length_overflows_le takes.found accepts e
        rw [takes.size] at few
        refine few.trans ?_
        split
        · exact others
        · exact Nat.zero_le 1
  | lagged reads got => exact absurd got (Bus.not_lagged_of_load weighs room _)
  | told plain =>
      exact quiet rfl rfl (snoc nofun (Bus.load_le_of_reportable place fun e mem =>
        EventKind.isReportable_of_plain (plain e mem)))
  | worked =>
      rw [Station.reader_publishAll] at quiet snoc
      refine quiet rfl rfl (snoc nofun (Bus.load_le_of_reportable place fun report inside => ?_))
      rw [Fanout.kind_report inside]
      rfl
  | paused reads got | stopped reads got =>
      exact quiet rfl rfl (.anew bus' (Bus.read_nothing got).2)
  | still | looked | released | closed | awaited =>
      exact quiet rfl rfl (snoc nofun (Nat.le_refl _))

/-- A subscriber with room for every event has taken what the listener has read, at every point of
every run that is paced for it. -/
theorem takes_play {managers : List ManagerPlan} (has : m < managers.length)
    (planned : managers[m].subscribers[i]? = some s) (begins : s.AlwaysBegins)
    (takesNone : s.handling ≠ .block) (bots : List BotPlan) (ms : List Move)
    (paced : (raw managers bots).IsPaced m managers[m] ms)
    (roomy : (((raw managers bots).play ms).manager m).bus.published ≤ s.capacity) :
    ∃ relay, ((raw managers bots).play ms).Serving m relay ∧ ∃ feed,
      (raw managers bots).Takes m i managers[m] s ms
        ⟨(((raw managers bots).play ms).manager m).bus, relay⟩ feed := by
  have served : managers[m].subscribers ≠ [] := fun none => by rw [none] at planned; cases planned
  let Inv (ms : List Move) (st : Station) : Prop := (raw managers bots).IsPaced m managers[m] ms →
    st.bus.published ≤ s.capacity → ∃ feed, (raw managers bots).Takes m i managers[m] s ms st feed
  suffices all : ∃ relay, ((raw managers bots).play ms).Serving m relay ∧
      Inv ms ⟨(((raw managers bots).play ms).manager m).bus, relay⟩ by
    obtain ⟨relay, serving, takes⟩ := all
    exact ⟨relay, serving, takes paced roomy⟩
  have first : Inv [] ⟨((raw managers bots).manager m).bus, ManagerPlan.relay managers[m]⟩ := by
    intro _ _
    have built := manager_raw has bots
    refine ⟨{ subscriber := s }, ?_, rfl, nofun, rfl, List.take_zero.symm, List.length_map _,
      by rw [built], .anew rfl ?_⟩
    · show (managers[m].subscribers.map fun s : Subscriber => ({ subscriber := s } : Feed))[i]? = _
      rw [List.getElem?_map, planned]
      rfl
    · rw [built]
      exact Nat.le_refl 0
  refine serving_play has served first (fun serving bus _ moves takes paced roomy => ?_) ms
  have before := paced.of_prefix (List.prefix_append _ _)
  obtain ⟨es, told⟩ := moves.bus
  have less := congrArg Bus.published told
  rw [published_publishAll] at less
  have room := (Nat.le_of_add_right_le less.symm.le).trans roomy
  obtain ⟨feed, takes⟩ := takes before room
  exact takes.move begins takesNone serving bus rfl before room moves

/-- A subscriber with room for every event, whose handler always begins its work and takes no
permits, misses nothing, whatever the other subscribers do, as long as the ring of the bus has
room for their reports as well: it takes every event that the listener reads, and where nothing
can go on it was handed, in order, every event published while somebody had the manager. -/
theorem misses_nothing {managers : List ManagerPlan} (has : m < managers.length)
    (planned : managers[m].subscribers[i]? = some s) (begins : s.AlwaysBegins)
    (takesNone : s.handling ≠ .block) (bots : List BotPlan) (ms : List Move)
    (paced : (raw managers bots).IsPaced m managers[m] ms)
    (roomy : (((raw managers bots).play ms).manager m).bus.published ≤ s.capacity) :
    ∃ relay feed, (((raw managers bots).play ms).manager m).relay = some relay ∧
      relay.fanout.feeds[i]? = some feed ∧ feed.subscriber = s ∧
      feed.taken =
        (((raw managers bots).play ms).manager m).bus.log.toList.take relay.reader.next ∧
      (((raw managers bots).play ms).tasks.isSettled = true →
        feed.handed.toList =
          (((raw managers bots).play ms).manager m).bus.log.toList.take relay.reader.next ∧
        ∀ pre mv, pre ++ [mv] <+: ms → ((raw managers bots).play pre).isHeld m = true →
          (((raw managers bots).play (pre ++ [mv])).manager m).bus.published ≤
            relay.reader.next) := by
  have served : managers[m].subscribers ≠ [] := fun none => by rw [none] at planned; cases planned
  obtain ⟨relay, serving, feed, takes⟩ :=
    takes_play has planned begins takesNone bots ms paced roomy
  obtain ⟨relay', serving', readUp⟩ := readUp_play has served bots ms
  cases Option.some.inj (serving.here.symm.trans serving'.here)
  refine ⟨relay, feed, serving.here, takes.found, takes.subscriber, takes.taken, fun settled => ?_⟩
  have notDue := not_isDue_of_settled settled
  constructor
  · have attended := (serving.workers i feed takes.found).imp (notDue _)
    have queue := (attended.queue takes.lives).resolve_right (by rw [takes.free]; nofun)
    rw [← takes.taken, Feed.taken, queue, List.append_nil]
  · intro pre mv sub held
    cases listening : relay.listening with
    | reading => exact absurd (serving.due (Or.inl listening)) (notDue _)
    | idle =>
        obtain ⟨post, rfl⟩ := sub
        obtain ⟨relay, serves⟩ := serves_play has served bots (pre ++ [mv])
        have later := published_play serves post
        rwa [← play_append, ← serving.idle listening] at later
    | closing => exact (readUp (by rw [listening]; rfl)).read pre mv sub held

end Fleet

namespace Sample

/-- A manager with a small ring: so many of its subscribers wait for a permit for every event and
let one more wait, and the last one keeps what it gets. -/
def crowded (busCapacity blocking : Nat) : ManagerPlan where
  settings := { maxConcurrent := 1, busCapacity }
  number := 0
  subscribers :=
    List.replicate blocking { name := "b", handling := .block, capacity := 1 } ++ [{ name := "s" }]

/-- A bot is registered again and again, and tasks have their turns until none can go on: once,
once more, and then twice at a time. -/
def stages : List (List Move) :=
  [.call (.add 0 0) :: List.replicate 24 .turn,
    .call (.add 0 0) :: List.replicate 6 .turn,
    .call (.add 0 0) :: .call (.add 0 0) :: List.replicate 16 .turn]

end Sample

namespace Fleet

/-- Two subscribers fall behind, and the ring has room for two reports on each of the four events:
the third one is handed them all, and the reports as well. -/
theorem misses_nothing_of_roomy :
    let f₀ := raw [Sample.crowded 8 2] [Sample.bot true]
    let ms := Sample.stages.flatten
    (∃ relay feed, ((f₀.play ms).manager 0).relay = some relay ∧
      relay.fanout.feeds[2]? = some feed ∧ feed.subscriber = { name := "s" } ∧
      feed.taken = ((f₀.play ms).manager 0).bus.log.toList.take relay.reader.next ∧
      ((f₀.play ms).tasks.isSettled = true →
        feed.handed.toList = ((f₀.play ms).manager 0).bus.log.toList.take relay.reader.next ∧
        ∀ pre mv, pre ++ [mv] <+: ms → (f₀.play pre).isHeld 0 = true →
          ((f₀.play (pre ++ [mv])).manager 0).bus.published ≤ relay.reader.next)) ∧
    (f₀.play ms).tasks.isSettled = true ∧ f₀.record (refuses 0 0) ms = [2, 3, 4, 5, 6, 7] := by
  refine ⟨misses_nothing (m := 0) (s := { name := "s" })
    (show 0 < [Sample.crowded 8 2].length by decide) rfl nofun nofun _ _
    (.of_few (by decide) (show (Sample.crowded 8 2).subscribers ≠ [] from nofun) ?_) ?_, ?_⟩
  all_goals decide +kernel

/-- Four subscribers fall behind, and the ring has room for the four events, but not for the
reports on them as well: the fifth one has room for everything and is not handed event 3. -/
theorem not_misses_nothing_of_crowded :
    let p := Sample.crowded 4 4
    let f₀ := raw [p] [Sample.bot true]
    let f := f₀.play Sample.stages.flatten
    f₀.Paced 0 (fun k => !k.isDiagnostic) (Listens 0) p.settings.busCapacity
      Sample.stages.flatten ∧
    (∀ n ∈ [1, 2, 3], (f₀.play (Sample.stages.take n).flatten).tasks.isSettled = true) ∧
    p.subscribers[4]? = some { name := "s" } ∧ (f.manager 0).bus.published ≤ 1024 ∧
    f.isHeld 0 = true ∧ (f.manager 0).bus.log[3]?.map Event.kind = some .botQueued ∧
    ((f.feeds 0)[4]?.map fun feed => feed.handed.toList.map Event.seq) =
      some [0, 1, 2, 4, 5, 6, 7] := by
  refine ⟨.of_few (show 0 < [Sample.crowded 4 4].length by decide)
    (show (Sample.crowded 4 4).subscribers ≠ [] from nofun) ?_, ?_, rfl, ?_⟩
  all_goals decide +kernel

end Fleet

end Flotilla
