import Flotilla.Proofs.Completion
import Flotilla.Proofs.Stations

/-!
# Where every event is

Between the bus of a manager and a subscriber an event can be lost at two places: the listener
may lag behind the ring of the bus, and the queue of the subscriber may be full. Both are told
of, and nothing else is lost where the handler always begins its work: every event published is
in one of five places (`Fleet.Accounted`), at every point of every run
(`Fleet.accounts_for_every_event`).
-/

namespace Flotilla

/-- The event that was read, if one was. -/
def Reading.event? : Reading → Option Event
  | .event e => some e
  | _ => none

/-- How many events the line says the listener lost, if it says so. -/
def LogLine.lag? (l : LogLine) : Option Nat :=
  if l.message = "subscriber listener lagged behind the bus" then
    match l.fields with
    | [("skipped", .number n)] => some n
    | _ => none
  else none

namespace Fleet

/-! ## What is noted of a run -/

/-- What is noted of the moves of a run, in order. -/
def record {α : Type} (what : Fleet → Move → List α) (f : Fleet) (ms : List Move) : List α :=
  noted move what f ms

theorem record_snoc {α : Type} (what : Fleet → Move → List α) (f : Fleet) (ms : List Move)
    (mv : Move) : f.record what (ms ++ [mv]) = f.record what ms ++ what (f.play ms) mv :=
  noted_snoc move what f ms mv

/-- The number of the event that the listener of a manager reads next. -/
def nextRead (f : Fleet) (m : Nat) : Nat := ((f.manager m).relay.map fun r => r.reader.next).getD 0

/-- The feeds of a manager. -/
def feeds (f : Fleet) (m : Nat) : List Feed :=
  ((f.manager m).relay.map fun r => r.fanout.feeds).getD []

/-- The numbers of the events that the listener of a manager loses in a move. -/
def skips (m : Nat) (f : Fleet) (mv : Move) : List Nat :=
  match f.reading? m mv with
  | some (.lagged n) => List.range' (f.nextRead m) n
  | _ => []

/-- The number of the event that is refused in a move because the queue of a subscriber is
full. -/
def refuses (m i : Nat) (f : Fleet) (mv : Move) : List Nat :=
  match f.reading? m mv with
  | some (.event _) =>
    if ((f.feeds m)[i]?.map Feed.isFull).getD false then [f.nextRead m] else []
  | _ => []

/-- The reports on full queues that are due in a move: one for each subscriber whose queue is
full, unless the event refused is such a report. -/
def reports (m : Nat) (f : Fleet) (mv : Move) : List Event :=
  match f.reading? m mv with
  | some (.event e) =>
    if e.kind = .subscriberOverflow then []
    else ((f.feeds m).filter Feed.isFull).map fun feed =>
      .subscriberOverflow feed.subscriber.name "full"
  | _ => []

/-- The log lines written in a turn of the listener of a manager. -/
def listenerLines (m : Nat) (f : Fleet) : Move → List LogLine
  | .turn =>
    if f.tasks.running = some (.listener m) then (f.move .turn).logs.toList.drop f.logs.size else []
  | _ => []

/-! ## Accounts -/

/-- The events that a subscriber was offered: those read so far were skipped, refused or
accepted, and the accepted ones are those of the bus, in order. -/
structure Balanced (f₀ : Fleet) (m i : Nat) (s : Subscriber) (ms : List Move) (st : Station)
    (feed : Feed) : Prop where
  found : st.relay.fanout.feeds[i]? = some feed
  subscriber : feed.subscriber = s
  lives : feed.worker ≠ .dead
  numbered : st.bus.Numbered
  read : (List.range st.relay.reader.next).Perm
    (f₀.record (skips m) ms ++ f₀.record (refuses m i) ms ++ feed.taken.map Event.seq)
  events : ∀ e ∈ feed.taken, st.bus.log[e.seq]? = some e
  ascending : (feed.taken.map Event.seq).Pairwise (· < ·)

end Fleet

/-! ## Moves of a station -/

theorem Bus.log_publishAll (b : Bus) (es : List Event) :
    b.log.toList <+: (b.publishAll es).log.toList := by
  induction es generalizing b with
  | nil => exact List.prefix_rfl
  | cons e es ih =>
      refine List.IsPrefix.trans ?_ (ih (b.publish e))
      rw [Bus.log_publish, Array.toList_push]
      exact List.prefix_append _ _

theorem Bus.getElem?_publishAll {b : Bus} {n : Nat} {e : Event} (found : b.log[n]? = some e)
    (es : List Event) : (b.publishAll es).log[n]? = some e := by
  rw [← Array.getElem?_toList] at found ⊢
  obtain ⟨more, eq⟩ := b.log_publishAll es
  rw [← eq, List.getElem?_append_left (List.getElem?_eq_some_iff.mp found).choose, found]

/-- Where all workers are there, an event that is offered is reported on by those whose queue is
full. -/
theorem Fanout.overflows_of_lives {fanout : Fanout} {due : Nat → Prop} (e : Event)
    (lives : ∀ (i : Nat) (feed : Feed), fanout.feeds[i]? = some feed →
      feed.worker ≠ .dead ∧ feed.Attended true (due i)) :
    fanout.overflows e = if e.kind = .subscriberOverflow then [] else
      (fanout.feeds.filter Feed.isFull).map fun feed =>
        .subscriberOverflow feed.subscriber.name "full" := by
  have overflow : ∀ feed ∈ fanout.feeds, feed.overflow? e =
      if e.kind = .subscriberOverflow then none
      else if feed.isFull then some (.subscriberOverflow feed.subscriber.name "full")
      else none := by
    intro feed mem
    obtain ⟨i, found⟩ := List.mem_iff_getElem?.mp mem
    obtain ⟨lives, attended⟩ := lives i feed found
    rw [Feed.overflow?, Feed.refusal?_of_lives lives attended]
    cases feed.isFull <;> rfl
  rw [Fanout.overflows, List.filterMap_congr overflow]
  split
  · simp
  · generalize fanout.feeds = feeds
    induction feeds with
    | nil => rfl
    | cons feed feeds ih => cases full : feed.isFull <;> simp [full, ih]

namespace Station

variable {s s' : Station} {got : Option Reading} {feed : Feed} {i : Nat}

/-- Events are only added to a bus. -/
theorem Moves.bus (moves : Moves got s s') : ∃ es, s'.bus = s.bus.publishAll es := by
  cases moves with
  | told => exact ⟨_, rfl⟩
  | passed => exact ⟨_, rfl⟩
  | worked => exact ⟨_, rfl⟩
  | still | looked | released | lagged | paused | stopped | closed | awaited => exact ⟨[], rfl⟩

/-- One thing happens to a feed in each move of its station. -/
theorem Moves.exists_feed (moves : Moves got s s') (found : s.relay.fanout.feeds[i]? = some feed) :
    ∃ report feed', s'.relay.fanout.feeds[i]? = some feed' ∧
      feed.Moves (got.bind Reading.event?) report feed' := by
  have same : feed.Moves none none feed := .kept rfl rfl rfl .rfl id
  cases moves with
  | passed reads got =>
      refine ⟨none, _, ?_, .offered _⟩
      show (s.relay.fanout.offer _).feeds[i]? = _
      rw [Fanout.getElem?_feeds_offer, found]
      rfl
  | looked =>
      refine ⟨none, _, ?_, feed.moves_look⟩
      show (s.relay.fanout.feeds.map Feed.look)[i]? = _
      rw [List.getElem?_map, found]
      rfl
  | @released _ j times =>
      show ∃ report feed', (s.relay.fanout.feeds.modify j fun f => f.releaseTimes times)[i]? = _ ∧ _
      rw [List.getElem?_modify, found]
      by_cases own : j = i
      · exact ⟨none, _, by simp [own], feed.moves_releaseTimes times⟩
      · exact ⟨none, feed, by simp [own], same⟩
  | closed =>
      refine ⟨none, _, ?_, feed.moves_rouse⟩
      show (s.relay.fanout.feeds.map fun f : Feed => { f with worker := f.worker.rouse })[i]? = _
      rw [List.getElem?_map, found]
      rfl
  | @worked _ j =>
      rw [fanout_publishAll]
      change ∃ report feed', (s.relay.fanout.work j).1.feeds[i]? = some feed' ∧ _
      by_cases own : j = i
      · subst own
        rw [Fanout.work_self found,
          List.getElem?_set_self (List.getElem?_eq_some_iff.mp found).choose]
        exact ⟨_, _, rfl, .worked _⟩
      · rw [(s.relay.fanout.work_ne own).1]
        exact ⟨none, feed, found, same⟩
  | told => exact ⟨none, feed, found, same⟩
  | still | lagged | paused | stopped | awaited => exact ⟨none, feed, found, same⟩

theorem Moves.length_feeds (moves : Moves got s s') :
    s'.relay.fanout.feeds.length = s.relay.fanout.feeds.length := by
  cases moves with
  | passed => exact Fanout.length_feeds_offer _ _
  | looked | closed => exact List.length_map _
  | released => exact List.length_modify ..
  | worked =>
      rw [fanout_publishAll]
      exact s.relay.fanout.length_feeds_work _
  | still | told | lagged | paused | stopped | awaited => rfl

/-- The feeds of a station are those before the move, each after one thing that happened to
it. -/
theorem Moves.exists_feed_before (moves : Moves got s s') {feed' : Feed}
    (found : s'.relay.fanout.feeds[i]? = some feed') :
    ∃ report feed, s.relay.fanout.feeds[i]? = some feed ∧
      feed.Moves (got.bind Reading.event?) report feed' := by
  have inside := (List.getElem?_eq_some_iff.mp found).choose
  rw [moves.length_feeds] at inside
  have there := List.getElem?_eq_getElem inside
  obtain ⟨report, feed'', found', fed⟩ := moves.exists_feed there
  cases found.symm.trans found'
  exact ⟨report, _, there, fed⟩

end Station

namespace Bus

variable {b : Bus} {r r' : Reader} {e : Event} {n : Nat}

theorem read_event (read : b.read r = (.event e, r')) :
    b.log[r.next]? = some e ∧ r'.next = r.next + 1 := by
  unfold Bus.read at read
  split at read
  · cases read
  · split at read
    · rename_i found
      cases read
      exact ⟨found, rfl⟩
    · cases read

theorem read_lagged (read : b.read r = (.lagged n, r')) : r'.next = r.next + n := by
  unfold Bus.read at read
  split at read
  · rename_i behind
    cases read
    dsimp only
    omega
  · split at read <;> cases read

end Bus

namespace Fleet

variable {f f₀ : Fleet} {m i : Nat} {mv : Move} {ms : List Move} {s : Subscriber} {st st' : Station}
  {relay : Relay} {feed feed' : Feed}

/-! ## The balance of a run -/

theorem Serving.nextRead (serving : f.Serving m relay) : f.nextRead m = relay.reader.next := by
  rw [Fleet.nextRead, serving.here]
  rfl

theorem Serving.feeds (serving : f.Serving m relay) : f.feeds m = relay.fanout.feeds := by
  rw [Fleet.feeds, serving.here]
  rfl

theorem Balanced.seq_lt (balanced : f₀.Balanced m i s ms st feed) {e : Event}
    (mem : e ∈ feed.taken) : e.seq < st.relay.reader.next := by
  rw [← List.mem_range, balanced.read.mem_iff]
  exact List.mem_append_right _ (List.mem_map_of_mem mem)

/-- A subscriber that is offered nothing stays in balance where all that the listener passes is
skipped. -/
theorem Balanced.skip (balanced : f₀.Balanced m i s ms st feed) (begins : s.AlwaysBegins)
    {report : Option Event} (fed : feed.Moves none report feed')
    (found : st'.relay.fanout.feeds[i]? = some feed') {es : List Event}
    (told : st'.bus = st.bus.publishAll es) (n : Nat)
    (reader : st'.relay.reader.next = st.relay.reader.next + n)
    (skipped : skips m (f₀.play ms) mv = List.range' st.relay.reader.next n)
    (refused : refuses m i (f₀.play ms) mv = []) :
    f₀.Balanced m i s (ms ++ [mv]) st' feed' := by
  rw [← balanced.subscriber] at begins
  have taken := fed.taken begins
  refine ⟨found, fed.subscriber.trans balanced.subscriber, fed.lives begins balanced.lives,
    told ▸ balanced.numbered.publishAll es, ?_, ?_, ?_⟩
  · rw [record_snoc, record_snoc, skipped, refused, taken, reader, List.range_eq_range',
      ← List.range'_append_1, ← List.range_eq_range', Nat.zero_add]
    refine List.perm_iff_count.mpr fun k => ?_
    have counted := balanced.read.count_eq k
    simp only [List.count_append, List.count_nil] at counted ⊢
    omega
  · rw [taken, told]
    exact fun e mem => Bus.getElem?_publishAll (balanced.events e mem) es
  · rw [taken]
    exact balanced.ascending

/-- A subscriber that is offered the next event stays in balance: it refuses the event if its
queue is full, and takes it otherwise. -/
theorem Balanced.offer (balanced : f₀.Balanced m i s ms st feed) (begins : s.AlwaysBegins)
    {e : Event} {report : Option Event} (fed : feed.Moves (some e) report feed')
    (refusal : feed.refusal? = if feed.isFull then some .full else none)
    (found : st'.relay.fanout.feeds[i]? = some feed') {es : List Event}
    (told : st'.bus = st.bus.publishAll es)
    (next : st.bus.log[st.relay.reader.next]? = some e)
    (reader : st'.relay.reader.next = st.relay.reader.next + 1)
    (skipped : skips m (f₀.play ms) mv = [])
    (refused : refuses m i (f₀.play ms) mv =
      if feed.isFull then [st.relay.reader.next] else []) :
    f₀.Balanced m i s (ms ++ [mv]) st' feed' := by
  rw [← balanced.subscriber] at begins
  have seq := balanced.numbered _ e next
  have taken : feed'.taken = if feed.isFull then feed.taken else feed.taken ++ [e] := by
    cases fed
    rw [Feed.taken_offer, refusal]
    cases feed.isFull <;> rfl
  refine ⟨found, fed.subscriber.trans balanced.subscriber, fed.lives begins balanced.lives,
    told ▸ balanced.numbered.publishAll es, ?_, ?_, ?_⟩
  · rw [record_snoc, record_snoc, skipped, refused, taken, reader, List.range_succ]
    refine List.perm_iff_count.mpr fun k => ?_
    have counted := balanced.read.count_eq k
    cases feed.isFull <;>
      simp only [List.count_append, List.map_append, List.map_cons, List.map_nil, seq,
        if_true, if_false, Bool.false_eq_true, List.append_nil] at counted ⊢ <;>
      omega
  · intro e' mem
    rw [told]
    refine Bus.getElem?_publishAll ?_ es
    rw [taken] at mem
    split at mem
    · exact balanced.events e' mem
    · rcases List.mem_append.mp mem with mem | mem
      · exact balanced.events e' mem
      · rw [List.mem_singleton.mp mem, seq]
        exact next
  · rw [taken]
    split
    · exact balanced.ascending
    · rw [List.map_append, List.pairwise_append]
      refine ⟨balanced.ascending, List.pairwise_singleton _ _, fun k mem k' mem' => ?_⟩
      obtain ⟨e', accepted, rfl⟩ := List.mem_map.mp mem
      rw [List.mem_singleton.mp mem', seq]
      exact balanced.seq_lt accepted

/-- What was offered to a subscriber stays in balance in every move. -/
theorem Balanced.move (balanced : f₀.Balanced m i s ms st feed) (begins : s.AlwaysBegins)
    (serving : (f₀.play ms).Serving m st.relay)
    (moves : Station.Moves ((f₀.play ms).reading? m mv) st st') :
    ∃ feed', f₀.Balanced m i s (ms ++ [mv]) st' feed' := by
  obtain ⟨report, feed', found', fed⟩ := moves.exists_feed balanced.found
  obtain ⟨es, told⟩ := moves.bus
  have there : ((f₀.play ms).feeds m)[i]? = some feed := by
    rw [serving.feeds]
    exact balanced.found
  have skipped : skips m (f₀.play ms) mv = match (f₀.play ms).reading? m mv with
      | some (.lagged n) => List.range' st.relay.reader.next n
      | _ => [] := by
    rw [skips, serving.nextRead]
  have refused : refuses m i (f₀.play ms) mv = match (f₀.play ms).reading? m mv with
      | some (.event _) => if feed.isFull then [st.relay.reader.next] else []
      | _ => [] := by
    rw [refuses, there, serving.nextRead]
    rfl
  generalize (f₀.play ms).reading? m mv = got at moves fed skipped refused
  refine ⟨feed', ?_⟩
  -- The reader moves on where the listener reads an event, which is offered, and where it lags.
  cases moves with
  | passed reads got =>
      obtain ⟨next, reader⟩ := Bus.read_event got
      have attended := serving.workers i feed balanced.found
      have isOpen : st.relay.fanout.isOpen = true := by
        rw [serving.isOpen, reads]
        rfl
      rw [isOpen] at attended
      have refusal := Feed.refusal?_of_lives balanced.lives attended
      exact balanced.offer begins fed refusal found' told next reader skipped refused
  | @lagged _ n reader reads got =>
      exact balanced.skip begins fed found' told n (Bus.read_lagged got) skipped refused
  | worked =>
      refine balanced.skip begins fed found' told 0 ?_ skipped refused
      rw [Station.reader_publishAll]
      rfl
  | still | told | looked | released | paused | stopped | closed | awaited =>
      exact balanced.skip begins fed found' told 0 rfl skipped refused

/-- What was offered to a subscriber is in balance at every point of every run. -/
theorem balanced_play {managers : List ManagerPlan} (has : m < managers.length)
    (planned : managers[m].subscribers[i]? = some s) (begins : s.AlwaysBegins)
    (bots : List BotPlan) (ms : List Move) :
    ∃ relay, ((raw managers bots).play ms).Serving m relay ∧ ∃ feed,
      (raw managers bots).Balanced m i s ms
        ⟨(((raw managers bots).play ms).manager m).bus, relay⟩ feed := by
  have served : managers[m].subscribers ≠ [] := fun none => by rw [none] at planned; cases planned
  refine serving_play (P := fun ms st => ∃ feed, (raw managers bots).Balanced m i s ms st feed)
    has served ⟨{ subscriber := s }, ?_⟩ (fun serving _ _ moves balanced => ?_) ms
  · have bus : ((raw managers bots).manager m).bus.log = #[] := by
      rw [manager_raw has]
      rfl
    refine ⟨?_, rfl, by simp, fun n e found => ?_, .refl _, by simp [Feed.taken], .nil⟩
    · show (managers[m].subscribers.map fun s : Subscriber => ({ subscriber := s } : Feed))[i]? = _
      rw [List.getElem?_map, planned]
      rfl
    · rw [bus] at found
      cases found
  · obtain ⟨feed, balanced⟩ := balanced
    exact balanced.move begins serving moves

/-! ## Reports on refusals -/

/-- All workers are there, and every report on a refusal is due to a full queue. -/
structure Reported (f₀ : Fleet) (m : Nat) (ms : List Move) (st : Station) : Prop where
  feeds : ∀ (i : Nat) (feed : Feed), st.relay.fanout.feeds[i]? = some feed →
    feed.subscriber.AlwaysBegins ∧ feed.worker ≠ .dead
  reported : st.bus.reportsOf .subscriberOverflow = f₀.record (reports m) ms

theorem Reported.move (reported : f₀.Reported m ms st)
    (serving : (f₀.play ms).Serving m st.relay)
    (moves : Station.Moves ((f₀.play ms).reading? m mv) st st') :
    f₀.Reported m (ms ++ [mv]) st' := by
  refine ⟨fun i feed' found => ?_, ?_⟩
  · obtain ⟨report, feed, there, fed⟩ := moves.exists_feed_before found
    obtain ⟨begins, lives⟩ := reported.feeds i feed there
    exact ⟨fed.subscriber ▸ begins, fed.lives begins lives⟩
  · have due : reports m (f₀.play ms) mv = match (f₀.play ms).reading? m mv with
        | some (.event e) => if e.kind = .subscriberOverflow then []
          else (st.relay.fanout.feeds.filter Feed.isFull).map fun feed =>
            .subscriberOverflow feed.subscriber.name "full"
        | _ => [] := by
      rw [reports, serving.feeds]
    rw [record_snoc, ← reported.reported, due]
    generalize (f₀.play ms).reading? m mv = got at moves
    cases moves with
    | @passed _ e reader reads got =>
        have isOpen : st.relay.fanout.isOpen = true := by
          rw [serving.isOpen, reads]
          rfl
        have overflows := Fanout.overflows_of_lives e fun i feed found =>
          ⟨(reported.feeds i feed found).2, isOpen ▸ serving.workers i feed found⟩
        rw [Bus.reportsOf_publishAll, overflows]
        congr 1
        dsimp only
        by_cases again : e.kind = .subscriberOverflow
        · rw [if_pos again]
          rfl
        · rw [if_neg again, List.map_map, List.filter_eq_self.mpr]
          · rfl
          · intro e mem
            obtain ⟨feed, -, rfl⟩ := List.mem_map.mp mem
            rfl
    | @told _ es plain =>
        rw [Bus.reportsOf_publishAll, List.append_right_inj, List.filter_eq_nil_iff]
        intro e mem is
        obtain ⟨e', inside, rfl⟩ := List.mem_map.mp mem
        have kind : e'.kind = .subscriberOverflow := of_decide_eq_true is
        have plain := plain e' inside
        rw [kind] at plain
        cases plain
    | @worked _ i =>
        show ((st.setFanout _).bus.publishAll (st.relay.fanout.work i).2.1.toList).reportsOf _ = _
        rw [Bus.reportsOf_publishAll]
        show st.bus.reportsOf .subscriberOverflow ++ _ = _
        rw [List.append_right_inj, List.filter_eq_nil_iff]
        intro e mem is
        obtain ⟨e', inside, rfl⟩ := List.mem_map.mp mem
        have kind : e'.kind = .subscriberOverflow := of_decide_eq_true is
        rw [Fanout.kind_report inside] at kind
        cases kind
    | still | looked | released | lagged | paused | stopped | closed | awaited =>
        exact (List.append_nil _).symm

theorem reported_play {managers : List ManagerPlan} (has : m < managers.length)
    (served : managers[m].subscribers ≠ [])
    (begin : ∀ s ∈ managers[m].subscribers, s.AlwaysBegins) (bots : List BotPlan)
    (ms : List Move) :
    (((raw managers bots).play ms).manager m).bus.reportsOf .subscriberOverflow =
      (raw managers bots).record (reports m) ms := by
  have first : (raw managers bots).Reported m []
      ⟨((raw managers bots).manager m).bus, ManagerPlan.relay managers[m]⟩ := by
    refine ⟨fun i feed found => ?_, ?_⟩
    · have planned : (managers[m].subscribers.map fun s : Subscriber =>
          ({ subscriber := s } : Feed))[i]? = some feed := found
      rw [List.getElem?_map] at planned
      obtain ⟨s, there, rfl⟩ := Option.map_eq_some_iff.mp planned
      exact ⟨begin s (List.mem_of_getElem? there), nofun⟩
    · rw [manager_raw has]
      rfl
  obtain ⟨relay, -, reported⟩ := serving_play has served first
    (fun serving _ _ moves reported => reported.move serving moves) ms
  exact reported.reported

/-! ## Warnings -/

theorem logs_publishAll (f : Fleet) (m : Nat) (es : List Event) :
    (f.publishAll m es).logs = f.logs := by
  induction es generalizing f with
  | nil => rfl
  | cons e es ih =>
      refine (ih (f.publish m e)).trans ?_
      unfold publish wakeListener
      split <;> rfl

/-- In its turn the listener warns of what it lost, and says nothing else. -/
theorem Serving.logs_stepListener (serving : f.Serving m relay)
    (turn : f.tasks.running = some (.listener m)) :
    (f.stepListener m).logs = match f.reading? m .turn with
      | some (.lagged n) => f.logs.push
        { level := .warn
          message := "subscriber listener lagged behind the bus"
          fields := [("skipped", .number n)] }
      | _ => f.logs := by
  unfold reading? Fleet.stepListener
  rw [serving.here, if_pos turn]
  dsimp only
  cases listening : relay.listening with
  | reading =>
      rw [if_pos rfl]
      rcases (f.manager m).bus.read relay.reader with ⟨_ | n | _, reader⟩
      · exact logs_publishAll ((((f.modifyRelay m _).modifyRelay m _)).wakeAll _) m _
      · rfl
      · dsimp only
        unfold listenerRests
        split <;> rfl
  | idle => rfl
  | closing c => cases c <;> rfl

theorem Serving.lags (serving : f.Serving m relay) (mv : Move) :
    ((listenerLines m f mv).filterMap LogLine.lag?).sum = (skips m f mv).length := by
  have none (silent : f.reading? m mv = none) (mute : listenerLines m f mv = []) :
      ((listenerLines m f mv).filterMap LogLine.lag?).sum = (skips m f mv).length := by
    rw [mute, skips, silent]
    rfl
  cases mv with
  | turn =>
      by_cases turn : f.tasks.running = some (.listener m)
      · have said := serving.logs_stepListener turn
        rw [listenerLines, if_pos turn, skips, move_turn turn]
        show (((f.stepListener m).logs.toList.drop f.logs.size).filterMap LogLine.lag?).sum = _
        have all : f.logs.toList.drop f.logs.size = [] := List.drop_length
        rw [said]
        cases f.reading? m .turn with
        | none => simp [all]
        | some reading =>
            cases reading with
            | lagged n => simp [LogLine.lag?]
            | event | nothing => simp [all]
      · exact none (by rw [reading?, if_neg turn]) (by rw [listenerLines, if_neg turn])
  | _ => exact none rfl rfl

/-- The warnings of the listener add up to what it lost. -/
theorem lags_play {managers : List ManagerPlan} (has : m < managers.length)
    (served : managers[m].subscribers ≠ []) (bots : List BotPlan) (ms : List Move) :
    (((raw managers bots).record (listenerLines m) ms).filterMap LogLine.lag?).sum =
      ((raw managers bots).record (skips m) ms).length := by
  obtain ⟨-, -, lags⟩ := serving_play
    (P := fun ms _ => (((raw managers bots).record (listenerLines m) ms).filterMap
      LogLine.lag?).sum = ((raw managers bots).record (skips m) ms).length)
    has served rfl (fun serving _ _ _ lags => by
      rw [record_snoc, record_snoc, List.filterMap_append, List.sum_append, List.length_append,
        lags, serving.lags]) ms
  exact lags

/-! ## The end of the listener -/

/-- Once the listener closes the subscribers, it has read everything published up to the moment
when nobody had the manager any more. -/
structure ReadUp (f₀ : Fleet) (m : Nat) (ms : List Move) (relay : Relay) : Prop where
  alone : (f₀.play ms).isHeld m = false
  read : ∀ pre mv, pre ++ [mv] <+: ms → (f₀.play pre).isHeld m = true →
    ((f₀.play (pre ++ [mv])).manager m).bus.published ≤ relay.reader.next

/-- Events are only added to the bus of a manager. -/
theorem Serving.bus_play (serving : f.Serving m relay) (ms : List Move) :
    ∃ es, ((f.play ms).manager m).bus = (f.manager m).bus.publishAll es := by
  induction ms generalizing f relay with
  | nil => exact ⟨[], rfl⟩
  | cons mv ms ih =>
      obtain ⟨relay', serving', moves⟩ := serving.move mv
      obtain ⟨first, bus⟩ := moves.bus
      obtain ⟨rest, bus'⟩ := ih serving'
      refine ⟨first ++ rest, bus'.trans ?_⟩
      have bus : ((f.move mv).manager m).bus = (f.manager m).bus.publishAll first := bus
      rw [bus, Bus.publishAll, Bus.publishAll, Bus.publishAll, List.foldl_append]

theorem published_play (serving : f.Serving m relay) (ms : List Move) :
    (f.manager m).bus.published ≤ ((f.play ms).manager m).bus.published := by
  obtain ⟨es, bus⟩ := serving.bus_play ms
  rw [bus, published_publishAll]
  exact Nat.le_add_right _ _

theorem reader_of_closing {got : Option Reading} (moves : Station.Moves got st st')
    (closing : st.relay.listening.isClosing = true) :
    st'.relay.reader = st.relay.reader := by
  cases moves with
  | passed reads | lagged reads =>
      rw [reads] at closing
      cases closing
  | worked => exact Station.reader_publishAll _ _
  | still | told | looked | released | paused | stopped | closed | awaited => rfl

/-- The listener comes to close the subscribers only where it has read everything. -/
theorem closing_of_moves {got : Option Reading} (moves : Station.Moves got st st')
    (closing : st'.relay.listening.isClosing = true) :
    st.relay.listening.isClosing = true ∨ st'.bus = st.bus ∧
      st'.relay.reader = st.relay.reader ∧ st.bus.published ≤ st.relay.reader.next := by
  cases moves with
  | still | looked | released => exact Or.inl closing
  | told => exact Or.inl ((isClosing_rouse _).symm.trans closing)
  | passed reads | lagged reads =>
      have closing : st.relay.listening.isClosing = true := closing
      exact Or.inl closing
  | paused => cases closing
  | stopped reads got => exact Or.inr ⟨rfl, rfl, (Bus.read_nothing got).2⟩
  | closed begun => exact Or.inl (by rw [begun]; rfl)
  | awaited awaits => exact Or.inl (by rw [awaits]; rfl)
  | worked =>
      unfold Station.publishAll at closing
      dsimp only at closing
      split at closing
      · exact Or.inl closing
      · exact Or.inl ((isClosing_rouse _).symm.trans closing)

theorem serves_play {managers : List ManagerPlan} (has : m < managers.length)
    (served : managers[m].subscribers ≠ []) (bots : List BotPlan) (ms : List Move) :
    ∃ relay, ((raw managers bots).play ms).Serving m relay := by
  obtain ⟨relay, serving, -⟩ := serving_play (P := fun _ _ => True) has served trivial
    (fun _ _ _ _ _ => trivial) ms
  exact ⟨relay, serving⟩

theorem readUp_play {managers : List ManagerPlan} (has : m < managers.length)
    (served : managers[m].subscribers ≠ []) (bots : List BotPlan) (ms : List Move) :
    ∃ relay, ((raw managers bots).play ms).Serving m relay ∧
      (relay.listening.isClosing = true → (raw managers bots).ReadUp m ms relay) := by
  refine serving_play (P := fun ms st => st.relay.listening.isClosing = true →
    (raw managers bots).ReadUp m ms st.relay) has served nofun ?_ ms
  intro ms mv st relay' serving bus serving' moves readUp closing
  refine ⟨serving'.alone closing, fun pre mv' sub held => ?_⟩
  rcases closing_of_moves moves closing with before | ⟨same, reader, read⟩
  · obtain ⟨nobody, read⟩ := readUp before
    have reader : relay'.reader = st.relay.reader := reader_of_closing moves before
    rcases List.prefix_concat_iff.mp sub with eq | sub
    · obtain ⟨rfl, -⟩ := List.append_inj' eq rfl
      rw [nobody] at held
      cases held
    · rw [reader]
      exact read pre mv' sub held
  · have reader : relay'.reader = st.relay.reader := reader
    rw [reader]
    rcases List.prefix_concat_iff.mp sub with eq | ⟨post, rfl⟩
    · rw [eq]
      exact (congrArg Bus.published same).trans_le read
    · obtain ⟨relay, serves⟩ := serves_play has served bots (pre ++ [mv'])
      refine Nat.le_trans (published_play serves post) ?_
      rw [← play_append, bus]
      exact read

/-! ## Every event -/

/-- Where the events of a manager are for one of its subscribers. Each is in one place: unread,
skipped by a lag of the listener, refused because the queue was full, in the queue, or handed
over. What was skipped is warned of, and what was refused is reported on; the events in the queue
and those handed over are those of the bus. The listener stops only after it has read what was
published while somebody had the manager, and where nothing can go on the queue is empty, unless
the subscriber waits for a permit. -/
structure Accounted (f₀ : Fleet) (m i : Nat) (ms : List Move) (relay : Relay) (feed : Feed) :
    Prop where
  balance : (List.range ((f₀.play ms).manager m).bus.published).Perm
    (List.range' relay.reader.next
        (((f₀.play ms).manager m).bus.published - relay.reader.next) ++
      f₀.record (skips m) ms ++ f₀.record (refuses m i) ms ++
      feed.queue.map Event.seq ++ feed.handed.toList.map Event.seq)
  warned : ((f₀.record (listenerLines m) ms).filterMap LogLine.lag?).sum =
    (f₀.record (skips m) ms).length
  reported : (((f₀.play ms).manager m).history.filter fun e => e.kind = .subscriberOverflow) =
    f₀.record (reports m) ms
  events : ∀ e ∈ feed.handed.toList ++ feed.queue,
    ((f₀.play ms).manager m).bus.log[e.seq]? = some e
  ascending : (feed.handed.toList.map Event.seq).Pairwise (· < ·)
  readUp : relay.listening.isClosing = true → ∀ pre mv, pre ++ [mv] <+: ms →
    (f₀.play pre).isHeld m = true →
      ((f₀.play (pre ++ [mv])).manager m).bus.published ≤ relay.reader.next
  drained : (f₀.play ms).tasks.isSettled = true → feed.queue = [] ∨ feed.isBlocked = true

theorem not_isDue_of_settled (settled : f.tasks.isSettled = true) (t : Task) : ¬ f.IsDue t :=
  Scheduler.not_isDue_of_isSettled settled t

/-- No event is lost in silence between the bus and a subscriber, at any point of any run, where
the handlers of the manager's subscribers always begin their work. -/
theorem accounts_for_every_event {managers : List ManagerPlan} (has : m < managers.length)
    (planned : managers[m].subscribers[i]? = some s)
    (begin : ∀ s ∈ managers[m].subscribers, s.AlwaysBegins) (bots : List BotPlan)
    (ms : List Move) :
    ∃ relay feed, (((raw managers bots).play ms).manager m).relay = some relay ∧
      relay.fanout.feeds[i]? = some feed ∧ feed.subscriber = s ∧
      (raw managers bots).Accounted m i ms relay feed := by
  have served : managers[m].subscribers ≠ [] := fun none => by rw [none] at planned; cases planned
  obtain ⟨relay, serving, feed, balanced⟩ :=
    balanced_play has planned (begin s (List.mem_of_getElem? planned)) bots ms
  obtain ⟨relay', serving', readUp⟩ := readUp_play has served bots ms
  cases Option.some.inj (serving.here.symm.trans serving'.here)
  refine ⟨relay, feed, serving.here, balanced.found, balanced.subscriber, ?_,
    lags_play has served bots ms, reported_play has served begin bots ms, balanced.events, ?_,
    fun closing => (readUp closing).read, fun settled => ?_⟩
  · have place := serving.place
    have read := balanced.read
    obtain ⟨more, all⟩ := Nat.exists_eq_add_of_le place
    rw [all, Nat.add_sub_cancel_left, List.range_eq_range', ← List.range'_append_1,
      ← List.range_eq_range', Nat.zero_add]
    refine List.perm_iff_count.mpr fun k => ?_
    have counted := read.count_eq k
    unfold Feed.taken at counted
    simp only [List.count_append, List.map_append] at counted ⊢
    omega
  · have ascending := balanced.ascending
    unfold Feed.taken at ascending
    rw [List.map_append] at ascending
    exact (List.pairwise_append.mp ascending).1
  · have attended := serving.workers i feed balanced.found
    exact (attended.imp (not_isDue_of_settled settled _)).queue balanced.lives

end Fleet

/-- A manager whose bus holds two events, with one subscriber, which waits for a permit for every
event and lets one more wait. -/
def Sample.oneBlocking : ManagerPlan where
  settings := { maxConcurrent := 1, busCapacity := 2 }
  number := 0
  subscribers := [{ name := "s", handling := .block, capacity := 1 }]

namespace Sample

/-- A bot is registered again and again. Event 0 is handed over, event 1 waits in the queue,
event 2 and the report on that are refused, events 4 and 5 are skipped, and events 6 and 7 are
still to be read. -/
def lossy : List Move :=
  [.call (.add 0 0)] ++ List.replicate 7 .turn ++
    ([.call (.add 0 0), .call (.add 0 0)] ++ List.replicate 5 .turn) ++
      (List.replicate 4 (.call (.add 0 0)) ++ List.replicate 2 .turn)

end Sample

/-- A run in which events are in all five places. -/
theorem Fleet.accounts_for_every_event_of_eight :
    let f₀ := raw [Sample.oneBlocking] [Sample.bot true]
    (∃ relay feed, ((f₀.play Sample.lossy).manager 0).relay = some relay ∧
      relay.fanout.feeds[0]? = some feed ∧
      feed.subscriber = { name := "s", handling := .block, capacity := 1 } ∧
      f₀.Accounted 0 0 Sample.lossy relay feed) ∧
    ((f₀.play Sample.lossy).manager 0).bus.published = 8 ∧
    f₀.nextRead 0 = 0 ∧ (f₀.play Sample.lossy).nextRead 0 = 6 ∧
    f₀.record (skips 0) Sample.lossy = [4, 5] ∧ f₀.record (refuses 0 0) Sample.lossy = [2, 3] := by
  refine ⟨accounts_for_every_event (m := 0) (show 0 < [Sample.oneBlocking].length by decide) rfl
    (by simp [Sample.oneBlocking, Subscriber.AlwaysBegins]) _ _, ?_⟩
  decide +kernel

end Flotilla
