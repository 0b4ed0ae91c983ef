import Flotilla.Proofs.Sets

/-!
# What a panic costs

A panic within the work of a handler costs the event that is handled: it is reported under the
name of the subscriber, and the worker goes on. A panic before that work begins is not reported;
it costs the worker, the events that wait and those that are offered later
(`Fanout.Session.cost_of_panics`).

The account of one subscriber is `Feed.Ledger`. Whatever happens to a feed keeps it
(`Feed.Ledger.move`), and so it is true at every point of every run.
-/

namespace Flotilla

/-- The report on a call of the handler, if it panics within its work. -/
def Subscriber.report? (s : Subscriber) (call : Nat) : Option Event :=
  match s.treatment call with
  | .panic payload => some (.subscriberPanicked s.name payload.message)
  | _ => none

namespace Feed

variable {feed feed' : Feed} {s : Subscriber} {accepted : List Event} {refusals : List Refusal}
  {reports : List Event} {offered report : Option Event}

/-- What a feed accepts of what it is offered. -/
def accepts (f : Feed) (offered : Option Event) : List Event :=
  if f.refusal?.isNone then offered.toList else []

/-- Why a feed refuses what it is offered, if it does. -/
def refuses (f : Feed) (offered : Option Event) : List Refusal :=
  if offered.isSome then f.refusal?.toList else []

/-- What became of the events that a subscriber was offered. Every call that panicked within its
work was reported, and no other one. While no call panicked before its work, what was accepted
was handed over or waits, in order, and what was refused was refused because the queue was full.
A call that did is the last one: its worker is dead, what waited is lost, and what was offered
later was refused because the queue was closed. -/
structure Ledger (s : Subscriber) (accepted : List Event) (refusals : List Refusal)
    (reports : List Event) (feed : Feed) : Prop where
  subscriber : feed.subscriber = s
  reported : reports = (List.range feed.calls).filterMap s.report?
  goesOn : (∀ call < feed.calls, s.treatment call ≠ .panicAtOnce) →
    feed.worker ≠ .dead ∧ feed.taken = accepted ∧ ∀ r ∈ refusals, r = .full
  dies : ∀ call < feed.calls, s.treatment call = .panicAtOnce →
    feed.calls = call + 1 ∧ feed.worker = .dead ∧ feed.queue = [] ∧
      feed.handed.toList <+: accepted ∧
        ∃ k l, refusals = List.replicate k .full ++ List.replicate l .closed

/-- While the worker is there no call panicked before its work. -/
theorem Ledger.unbroken (ledger : feed.Ledger s accepted refusals reports)
    (lives : feed.worker ≠ .dead) : ∀ call < feed.calls, s.treatment call ≠ .panicAtOnce :=
  fun call made atOnce => lives (ledger.dies call made atOnce).2.1

theorem Ledger.kept (ledger : feed.Ledger s accepted refusals reports)
    (subscriber : feed'.subscriber = feed.subscriber) (queue : feed'.queue = feed.queue)
    (handed : feed'.handed = feed.handed) (dead : feed'.worker = .dead ↔ feed.worker = .dead) :
    feed'.Ledger s accepted refusals reports := by
  have calls : feed'.calls = feed.calls := congrArg Array.size handed
  have taken : feed'.taken = feed.taken := by rw [Feed.taken, Feed.taken, handed, queue]
  refine ⟨subscriber.trans ledger.subscriber, ?_, fun unbroken => ?_, fun call made atOnce => ?_⟩
  · rw [calls]
    exact ledger.reported
  · rw [calls] at unbroken
    obtain ⟨lives, all, full⟩ := ledger.goesOn unbroken
    exact ⟨mt dead.mp lives, taken.trans all, full⟩
  · rw [calls] at made ⊢
    rw [queue, handed, dead]
    exact ledger.dies call made atOnce

theorem Ledger.offer (ledger : feed.Ledger s accepted refusals reports) {due : Prop}
    (attended : feed.Attended true due) (e : Event) :
    (feed.offer e).Ledger s (accepted ++ feed.accepts (some e))
      (refusals ++ feed.refuses (some e)) reports := by
  have handed : (feed.offer e).handed = feed.handed := by
    unfold Feed.offer
    split <;> rfl
  have calls : (feed.offer e).calls = feed.calls := congrArg Array.size handed
  by_cases dead : feed.worker = .dead
  · -- A dead worker takes nothing any more.
    have closed : feed.refusal? = some .closed := by simp [refusal?, dead, Worker.isGone]
    have still : feed.offer e = feed := by simp [Feed.offer, closed]
    have none : feed.accepts (some e) = [] := by simp [accepts, closed]
    have lost : feed.refuses (some e) = [.closed] := by simp [refuses, closed]
    rw [still, none, lost, List.append_nil]
    refine ⟨ledger.subscriber, ledger.reported, fun unbroken => ?_, fun call made atOnce => ?_⟩
    · exact absurd dead (ledger.goesOn unbroken).1
    · obtain ⟨last, dead, queue, handed, k, l, refused⟩ := ledger.dies call made atOnce
      refine ⟨last, dead, queue, handed, k, l + 1, ?_⟩
      rw [refused, List.append_assoc, ← List.replicate_succ']
  · have unbroken := ledger.unbroken dead
    obtain ⟨-, all, full⟩ := ledger.goesOn unbroken
    have refusal := refusal?_of_lives dead attended
    refine ⟨(feed.subscriber_offer e).trans ledger.subscriber, ?_, fun _ => ⟨?_, ?_, ?_⟩,
      fun call made atOnce => absurd atOnce (unbroken call (calls ▸ made))⟩
    · rw [calls]
      exact ledger.reported
    · unfold Feed.offer
      split
      · exact dead
      · exact mt rouse_eq_dead_iff.mp dead
    · rw [taken_offer, accepts, all]
      cases feed.refusal? <;> simp
    · intro r mem
      rcases List.mem_append.mp mem with mem | mem
      · exact full r mem
      · rw [refuses, refusal] at mem
        cases isFull : feed.isFull <;> simp [isFull] at mem
        exact mem

/-- A call that was made is counted, and if it panicked within its work it is reported. -/
theorem Ledger.handOver (ledger : feed.Ledger s accepted refusals reports) {e : Event}
    {later : List Event} (takes : feed.worker = .taking) (queue : feed.queue = e :: later) :
    (feed.handOver e later).1.Ledger s accepted refusals
      (reports ++ (feed.handOver e later).2.1.toList) := by
  have unbroken := ledger.unbroken (by rw [takes]; simp)
  obtain ⟨-, all, full⟩ := ledger.goesOn unbroken
  have moved : (feed.handed.push e).toList ++ later = accepted := by
    rw [← all, Feed.taken, queue]
    simp
  obtain ⟨rfl⟩ := ledger.subscriber
  have size : (feed.handed.push e).size = feed.calls + 1 := Array.size_push _
  have told {report : Option Event} (here : feed.subscriber.report? feed.calls = report) :
      reports ++ report.toList =
        (List.range (feed.handed.push e).size).filterMap feed.subscriber.report? := by
    rw [size, List.range_succ, List.filterMap_append, ← ledger.reported, List.filterMap_cons, here]
    cases report <;> rfl
  -- A call that begins its work leaves a worker that goes on, or waits for a permit.
  have begins {worker : Worker} {kept : Array Event} {permits : Nat} {report : Option Event}
      (lives : worker ≠ .dead) (here : feed.subscriber.report? feed.calls = report)
      (begins : feed.subscriber.treatment feed.calls ≠ .panicAtOnce) :
      Feed.Ledger feed.subscriber accepted refusals (reports ++ report.toList)
        { feed with queue := later, handed := feed.handed.push e, worker, kept, permits } := by
    refine ⟨rfl, told here, fun _ => ⟨lives, moved, full⟩, fun call made atOnce => ?_⟩
    rcases Nat.lt_succ_iff_lt_or_eq.mp (Nat.lt_of_lt_of_eq made size) with before | rfl
    · exact absurd atOnce (unbroken call before)
    · exact absurd atOnce begins
  unfold Feed.handOver
  dsimp only
  split
  · rename_i treatment
    exact begins (by simp) (by simp [Subscriber.report?, treatment]) (by simp [treatment])
  · rename_i treatment
    split
    · exact begins (by simp) (by simp [Subscriber.report?, treatment]) (by simp [treatment])
    · exact begins (show Worker.taking ≠ .dead by simp) (by simp [Subscriber.report?, treatment])
        (by simp [treatment])
  · rename_i payload treatment
    exact begins (by simp [takes]) (by simp [Subscriber.report?, treatment])
      (by simp [treatment])
  · rename_i treatment
    have none : feed.subscriber.report? feed.calls = .none := by
      simp [Subscriber.report?, treatment]
    refine ⟨rfl, told none, fun unbroken => ?_, fun call made atOnce => ?_⟩
    · have made := Nat.lt_of_lt_of_eq (Nat.lt_succ_self _) size.symm
      exact absurd treatment (unbroken feed.calls made)
    · rcases Nat.lt_succ_iff_lt_or_eq.mp (Nat.lt_of_lt_of_eq made size) with before | rfl
      · exact absurd atOnce (unbroken call before)
      · refine ⟨size, rfl, rfl, ⟨later, moved⟩, refusals.length, 0, ?_⟩
        rw [List.replicate_zero, List.append_nil]
        exact List.eq_replicate_iff.mpr ⟨rfl, full⟩

theorem Ledger.work (ledger : feed.Ledger s accepted refusals reports) (isOpen : Bool) :
    (feed.work isOpen).1.Ledger s accepted refusals
      (reports ++ (feed.work isOpen).2.1.toList) := by
  unfold Feed.work
  split
  · rename_i takes
    split
    · rename_i e later queue
      exact ledger.handOver takes queue
    · split
      · rw [Option.toList_none, List.append_nil]
        exact ledger.kept rfl rfl rfl (by simp [takes])
      · rw [Option.toList_none, List.append_nil]
        exact ledger.kept rfl rfl rfl (by simp [takes])
  · rename_i permitted
    rw [Option.toList_none, List.append_nil]
    exact ledger.kept rfl rfl rfl (by simp [keep, permitted])
  · rw [Option.toList_none, List.append_nil]
    exact ledger

/-- Whatever happens to a feed keeps its account. -/
theorem Ledger.move (ledger : feed.Ledger s accepted refusals reports)
    (moves : feed.Moves offered report feed')
    (attended : offered.isSome = true → ∃ due, feed.Attended true due) :
    feed'.Ledger s (accepted ++ feed.accepts offered) (refusals ++ feed.refuses offered)
      (reports ++ report.toList) := by
  have none : feed.accepts none = [] := by simp [accepts]
  cases moves with
  | kept subscriber queue handed dead =>
      simpa [none, refuses] using ledger.kept subscriber queue handed dead
  | offered e =>
      obtain ⟨due, attended⟩ := attended rfl
      simpa using ledger.offer attended e
  | worked isOpen => simpa [none, refuses] using ledger.work isOpen

end Feed

namespace Fanout.Session

variable {session : Session} {i : Nat} {s : Subscriber} {feed : Feed}

/-! ## What is noted of a session -/

/-- The event that a subscriber accepts in a move, if it accepts one. -/
def accepts (i : Nat) (session : Session) (mv : Move) : List Event :=
  (session.fanout.feeds[i]?.map fun f => f.accepts (session.offered? mv)).getD []

/-- Why a subscriber refuses an event in a move, if it refuses one. -/
def refuses (i : Nat) (session : Session) (mv : Move) : List Refusal :=
  (session.fanout.feeds[i]?.map fun f => f.refuses (session.offered? mv)).getD []

/-- The report on a panic that the worker of a subscriber publishes in a move, if it does. -/
def panics (i : Nat) (session : Session) (mv : Move) : List Event :=
  (session.report? i mv).toList

/-- The report on a panic that is published in a move: that of the worker whose turn it is. -/
def told (session : Session) (mv : Move) : List Event :=
  match session.tasks.running with
  | some (.worker i) => panics i session mv
  | _ => []

/-! ## Reports on the bus -/

theorem reportsOf_emit (session : Session) (e : Event) :
    (session.emit e).bus.reportsOf .subscriberPanicked =
      session.bus.reportsOf .subscriberPanicked := by
  show (session.bus.publishAll (session.fanout.overflows e)).reportsOf _ = _
  rw [Bus.reportsOf_publishAll, List.filter_eq_nil_iff.mpr, List.append_nil]
  intro report mem
  obtain ⟨report', inside, rfl⟩ := List.mem_map.mp mem
  simp [Event.withSeq, kind_overflows inside]

theorem reportsOf_work (session : Session) (i : Nat) :
    (session.work i).bus.reportsOf .subscriberPanicked =
      session.bus.reportsOf .subscriberPanicked ++ (session.fanout.work i).2.1.toList := by
  rw [bus_work, Bus.reportsOf_publishAll]
  cases report : (session.fanout.work i).2.1 with
  | none => rfl
  | some report =>
      obtain ⟨name, info, rfl⟩ := exists_report (Option.mem_toList.mpr report)
      rfl

/-- The reports on panics on the bus are those of the workers. -/
theorem reportsOf_move (session : Session) (mv : Move) :
    (session.move mv).bus.reportsOf .subscriberPanicked =
      session.bus.reportsOf .subscriberPanicked ++ session.told mv := by
  have quiet (silent : ∀ i, session.report? i mv = none) : session.told mv = [] := by
    unfold told
    split
    · simp [panics, silent]
    · rfl
  have moves := session.moves mv
  generalize session.move mv = session' at moves ⊢
  cases moves with
  | offered e =>
      rw [quiet fun _ => rfl, List.append_nil]
      exact reportsOf_emit session e
  | unoffered | begun | unbegun => rw [quiet fun _ => rfl, List.append_nil]
  | released | looked =>
      rw [quiet fun _ => rfl, List.append_nil]
      rfl
  | worked i turn =>
      rw [told, turn, reportsOf_work]
      simp [panics, report?, turn]
  | closed turn =>
      rw [told, turn, List.append_nil]
      unfold close
      split <;> rfl
  | taken idle | rested idle => rw [told, idle, List.append_nil]

theorem reportsOf_play (subscribers : List Subscriber) (busCapacity : Nat) (ms : List Move) :
    ((raw subscribers busCapacity).play ms).bus.reportsOf .subscriberPanicked =
      (raw subscribers busCapacity).record told ms := by
  induction ms using List.reverseRecOn with
  | nil => rfl
  | append_singleton ms mv ih => rw [play_snoc, record_snoc, reportsOf_move, ih]

/-! ## Whole sessions -/

/-- An event is offered to the subscribers only while the set is open. -/
theorem Tended.isOpen_of_offered (tended : session.Tended) {mv : Move}
    (offered : (session.offered? mv).isSome = true) : session.fanout.isOpen = true := by
  cases mv with
  | emit e =>
      cases closing : session.closing with
      | none => exact tended.isOpen (Or.inl closing)
      | some c => simp [offered?, closing] at offered
  | release | close | look | turn => cases offered

/-- The account of a subscriber is kept by every move. -/
theorem Tended.ledger_move (tended : session.Tended) {accepted : List Event}
    {refusals : List Refusal} {reports : List Event}
    (found : session.fanout.feeds[i]? = some feed)
    (ledger : feed.Ledger s accepted refusals reports) (mv : Move) :
    ∃ feed', (session.move mv).fanout.feeds[i]? = some feed' ∧
      feed'.Ledger s (accepted ++ session.accepts i mv) (refusals ++ session.refuses i mv)
        (reports ++ session.panics i mv) := by
  obtain ⟨feed', found', moves⟩ := exists_feed_move found mv
  refine ⟨feed', found', ?_⟩
  have attended := tended.workers i feed found
  simp only [accepts, refuses, panics, found, Option.map_some, Option.getD_some]
  exact ledger.move moves fun offered => ⟨_, tended.isOpen_of_offered offered ▸ attended⟩

theorem ledger_play {subscribers : List Subscriber} (planned : subscribers[i]? = some s)
    (busCapacity : Nat) (ms : List Move) :
    ∃ feed, ((raw subscribers busCapacity).play ms).fanout.feeds[i]? = some feed ∧
      feed.Ledger s ((raw subscribers busCapacity).record (accepts i) ms)
        ((raw subscribers busCapacity).record (refuses i) ms)
        ((raw subscribers busCapacity).record (panics i) ms) := by
  induction ms using List.reverseRecOn with
  | nil =>
      exact ⟨{ subscriber := s }, feed_raw planned busCapacity, rfl, rfl,
        fun _ => ⟨by simp, rfl, nofun⟩, nofun⟩
  | append_singleton ms mv ih =>
      obtain ⟨feed, found, ledger⟩ := ih
      rw [play_snoc, record_snoc, record_snoc, record_snoc]
      exact (tended_play subscribers busCapacity ms).ledger_move found ledger mv

/-- What panics cost a subscriber, at every point of every run: the events that are handled where
the work of the handler was begun, and everything from then on where it was not. Nothing is left
to wait where no task can go on, unless for a permit, and it comes to that whatever the handlers
do. -/
theorem cost_of_panics {subscribers : List Subscriber} (planned : subscribers[i]? = some s)
    (busCapacity : Nat) (ms : List Move) :
    let started := raw subscribers busCapacity
    let session := started.play ms
    ∃ feed, session.fanout.feeds[i]? = some feed ∧
      feed.Ledger s (started.record (accepts i) ms) (started.record (refuses i) ms)
        (started.record (panics i) ms) ∧
      session.bus.reportsOf .subscriberPanicked = started.record told ms ∧
      (session.tasks.isSettled = true → feed.queue = [] ∨ feed.isBlocked = true) ∧
      (runToRest step? session.left session).tasks.isSettled = true := by
  intro started session
  obtain ⟨feed, found, ledger⟩ := ledger_play planned busCapacity ms
  refine ⟨feed, found, ledger, reportsOf_play subscribers busCapacity ms, fun settled => ?_,
    settles_in_time (Nat.le_refl _)⟩
  by_cases dead : feed.worker = .dead
  · -- A worker that died left nothing in the queue.
    by_contra waits
    refine (ledger.goesOn fun call made atOnce => ?_).1 dead
    exact waits (Or.inl (ledger.dies call made atOnce).2.2.1)
  · have attended := (tended_play subscribers busCapacity ms).workers i feed found
    exact (attended.imp (Scheduler.not_isDue_of_isSettled settled _)).queue dead

end Fanout.Session

namespace Sample

/-- A subscriber that panics within its work in its first and third call, and one that panics
before its work in its second call. -/
def panicking : List Subscriber :=
  [{ name := "a", handling := .panic (.text "boom"), panicsAt := [0, 2] },
    { name := "b", handling := .panicAtOnce, panicsAt := [1] }]

/-- A subscriber that panics before its work in all its calls. -/
def eager : List Subscriber := [{ name := "s", handling := .panicAtOnce }]

def numbered (n : Nat) : Event := Event.shutdownRequested.withSeq n

/-- Three events are offered at once, and one more later; then the set is closed. -/
def emits : List Fanout.Session.Move :=
  List.replicate 6 .turn ++ [.emit (numbered 0), .emit (numbered 1), .emit (numbered 2)] ++
    List.replicate 10 .turn ++ [.emit (numbered 3)] ++ List.replicate 4 .turn ++ .close ::
      List.replicate 8 .turn

end Sample

namespace Fanout.Session

/-- The first subscriber is handed all four events, and two panics are reported. The second one
is handed two events: the third one is lost, and the fourth one refused. -/
theorem cost_of_panics_of_two :
    let started := raw Sample.panicking 64
    let session := started.play Sample.emits
    (∃ feed, session.fanout.feeds[0]? = some feed ∧
      feed.Ledger { name := "a", handling := .panic (.text "boom"), panicsAt := [0, 2] }
        (started.record (accepts 0) Sample.emits) (started.record (refuses 0) Sample.emits)
        (started.record (panics 0) Sample.emits) ∧
      session.bus.reportsOf .subscriberPanicked = started.record told Sample.emits ∧
      (session.tasks.isSettled = true → feed.queue = [] ∨ feed.isBlocked = true) ∧
      (runToRest step? session.left session).tasks.isSettled = true) ∧
    session.tasks.isSettled = true ∧
    started.record (panics 0) Sample.emits =
      [.subscriberPanicked "a" "boom", .subscriberPanicked "a" "boom"] ∧
    (session.fanout.feeds.map fun feed => feed.handed.toList.map Event.seq) =
      [[0, 1, 2, 3], [0, 1]] ∧
    (started.record (accepts 1) Sample.emits).map Event.seq = [0, 1, 2] ∧
    (started.record (refuses 1) Sample.emits).map Refusal.message = ["closed"] := by
  refine ⟨cost_of_panics rfl _ _, ?_⟩
  decide +kernel

/-- The only subscriber panics at the first event, before its work: the panic is not reported,
the two events that wait are lost, and the one that is offered later is refused because the queue
was closed. -/
theorem not_survives_of_eager :
    let started := raw Sample.eager 64
    let session := started.play Sample.emits
    session.tasks.isSettled = true ∧ session.closing = some .finished ∧
    (started.record (accepts 0) Sample.emits).map Event.seq = [0, 1, 2] ∧
    (session.fanout.feeds.map fun feed => (feed.handed.toList.map Event.seq, feed.queue)) =
      [([0], [])] ∧
    session.bus.reportsOf .subscriberPanicked = [] ∧
    (started.record (refuses 0) Sample.emits).map Refusal.message = ["closed"] := by
  decide +kernel

end Fanout.Session

end Flotilla
