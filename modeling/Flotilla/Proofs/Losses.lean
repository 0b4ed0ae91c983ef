import Flotilla.Proofs.Accounts
import Flotilla.Proofs.Independence

/-!
# What a subscriber is handed, and what it loses

Where the handlers always begin their work, a subscriber is handed what its queue accepted, in
order and each event once. An event is refused exactly while as many wait as may, and every refusal
of an event that is not itself a report on a refusal is reported. Once the set is closed, its
closing is over when nothing waits and no handler is at work any more
(`Fanout.Session.fifo_with_reported_losses`).
-/

namespace Flotilla

/-- The event whose handler has begun and not ended. -/
def Worker.handling? : Worker → Option Event
  | .blocked e | .permitted e => some e
  | _ => none

/-- The report on an event that found the queue of a subscriber full. -/
theorem Event.subscriberOverflow_full (subscriber : String) :
    subscriberOverflow subscriber "full" =
      { kind := .subscriberOverflow, name := some subscriber,
        reason := some ("subscriber=" ++ subscriber ++ " reason=full") } := by
  have text : "subscriber=" ++ subscriber ++ " reason=" ++ "full" =
      "subscriber=" ++ subscriber ++ " reason=full" := by
    rw [String.append_assoc]
    rfl
  rw [subscriberOverflow, text]
  rfl

namespace Feed

variable {f f' : Feed} {offered report : Option Event}

/-! ## Feeds that go on -/

/-- A feed whose handler always begins its work, so that its worker is not dead; no more events
wait than may. -/
structure Sound (f : Feed) : Prop where
  begins : f.subscriber.AlwaysBegins
  lives : f.worker ≠ .dead
  few : f.queue.length ≤ f.subscriber.places

theorem length_queue_work_le (f : Feed) (isOpen : Bool) :
    (f.work isOpen).1.queue.length ≤ f.queue.length := by
  unfold work
  split
  · split
    · rename_i e later queue
      have less : later.length ≤ f.queue.length := by
        rw [queue]
        exact Nat.le_succ _
      unfold handOver
      dsimp only
      split
      · exact less
      · split <;> exact less
      · exact less
      · exact Nat.zero_le _
    · split <;> exact Nat.le_refl _
  · exact Nat.le_refl _
  · exact Nat.le_refl _

theorem Sound.move (sound : f.Sound) (moves : f.Moves offered report f') : f'.Sound := by
  refine ⟨moves.subscriber ▸ sound.begins, moves.lives sound.begins sound.lives, ?_⟩
  rw [moves.subscriber]
  cases moves with
  | kept _ queue => exact queue ▸ sound.few
  | worked isOpen => exact Nat.le_trans (f.length_queue_work_le isOpen) sound.few
  | offered e =>
      unfold Feed.offer
      cases refusal : f.refusal? with
      | some => exact sound.few
      | none =>
          unfold refusal? at refusal
          split at refusal
          · cases refusal
          · split at refusal
            · cases refusal
            · rename_i room
              rw [List.length_append]
              exact Nat.lt_of_not_le room

theorem Sound.isFull (sound : f.Sound) :
    f.isFull = decide (f.queue.length = f.subscriber.places) := by
  have few := sound.few
  unfold Feed.isFull
  refine decide_eq_decide.mpr ?_
  omega

theorem handling?_releaseTimes (f : Feed) (n : Nat) :
    (f.releaseTimes n).worker.handling? = f.worker.handling? := by
  rcases f.worker_releaseTimes n with same | ⟨-, e, blocked, permitted⟩
  · rw [same]
  · rw [blocked, permitted]
    rfl

/-- Nothing waits, and no handler is at work. -/
def isDrained (f : Feed) : Bool := f.queue.isEmpty && f.worker.handling?.isNone

/-- Where no worker can go on and no event is offered any more, a feed is drained exactly when its
worker is gone. -/
theorem Attended.isDrained (attended : f.Attended false False) (lives : f.worker ≠ .dead) :
    f.isDrained = f.worker.isGone := by
  unfold Feed.isDrained
  cases worker : f.worker with
  | taking | permitted => exact (attended.busy (by rw [worker]; rfl)).elim
  | idle => exact absurd (attended.idle worker).2 nofun
  | blocked e => exact Bool.and_false _
  | ended =>
      rw [(attended.ended worker).1]
      rfl
  | dead => exact absurd worker lives

/-! ## Accounts -/

/-- What became of the events offered to a subscriber. Those that were accepted are some of those
offered, as they were offered; the first ones of them were handed over, in order, and the others
wait, no more than may. Each call that panicked was reported once. -/
structure Delivers (s : Subscriber) (offered accepted reports : List Event) (f : Feed) : Prop where
  subscriber : f.subscriber = s
  offered : accepted.Sublist offered
  handed : f.handed.toList ++ f.queue = accepted
  waits : f.queue.length = accepted.length - f.calls
  few : f.queue.length ≤ s.places
  reported : reports = (List.range f.calls).filterMap s.report?

theorem Ledger.delivers {s : Subscriber} {offered accepted reports : List Event}
    {refusals : List Refusal} (ledger : f.Ledger s accepted refusals reports) (sound : f.Sound)
    (among : accepted.Sublist offered) : f.Delivers s offered accepted reports := by
  have begins := sound.begins
  have few := sound.few
  rw [ledger.subscriber] at begins few
  obtain ⟨-, all, -⟩ := ledger.goesOn fun call _ => begins.treatment call
  refine ⟨ledger.subscriber, among, all, ?_, few, ledger.reported⟩
  rw [← all, taken, List.length_append, Array.length_toList]
  exact (Nat.add_sub_cancel_left _ _).symm

end Feed

namespace Fanout.Session

variable {s : Session} {f f' : Feed} {i : Nat}

/-! ## Sets that go on -/

theorem length_feeds_move (s : Session) (mv : Move) :
    (s.move mv).fanout.feeds.length = s.fanout.feeds.length := by
  have moves := s.moves mv
  generalize s.move mv = s' at moves ⊢
  cases moves with
  | offered | looked => exact List.length_map _
  | released => exact List.length_modify ..
  | worked i => rw [fanout_work, Fanout.length_feeds_work]
  | closed =>
      unfold Session.close
      split
      · exact List.length_map _
      · rfl
      · rfl
  | unoffered | begun | unbegun | taken | rested => rfl

/-- Every feed of a set has a handler that always begins its work and a worker that is there, and
no more events wait than may. -/
def Sound (s : Session) : Prop := ∀ f ∈ s.fanout.feeds, f.Sound

theorem Sound.move (sound : s.Sound) (mv : Move) : (s.move mv).Sound := by
  intro f' mem
  obtain ⟨i, found'⟩ := List.mem_iff_getElem?.mp mem
  have inside := (List.getElem?_eq_some_iff.mp found').choose
  rw [length_feeds_move] at inside
  have found := List.getElem?_eq_getElem inside
  obtain ⟨f'', found'', moves⟩ := exists_feed_move found mv
  cases found'.symm.trans found''
  exact (sound _ (List.mem_of_getElem? found)).move moves

theorem Sound.play (sound : s.Sound) (ms : List Move) : (s.play ms).Sound := by
  induction ms generalizing s with
  | nil => exact sound
  | cons mv ms ih => exact ih (sound.move mv)

theorem Sound.observe (sound : s.Sound) (c : Command) : (s.observe c).1.Sound := by
  rw [observe_eq_play]
  exact sound.play _

theorem sound_raw {subscribers : List Subscriber} (begins : ∀ s ∈ subscribers, s.AlwaysBegins)
    (busCapacity : Nat) : (raw subscribers busCapacity).Sound := by
  intro f mem
  obtain ⟨s, planned, rfl⟩ := List.mem_map.mp mem
  exact ⟨begins s planned, nofun, Nat.zero_le _⟩

theorem Sound.overflows (sound : s.Sound) (orderly : s.Orderly) (isOpen : s.closing = none)
    (e : Event) : s.fanout.overflows e = if e.kind = .subscriberOverflow then [] else
      (s.fanout.feeds.filter fun f => f.queue.length = f.subscriber.places).map fun f =>
        .subscriberOverflow f.subscriber.name "full" := by
  have full : s.fanout.feeds.filter Feed.isFull =
      s.fanout.feeds.filter fun f => f.queue.length = f.subscriber.places :=
    List.filter_congr fun f mem => (sound f mem).isFull
  have attended := orderly.tended.workers
  rw [orderly.tended.isOpen (Or.inl isOpen)] at attended
  rw [← full]
  exact Fanout.overflows_of_lives e fun i feed found =>
    ⟨(sound feed (List.mem_of_getElem? found)).lives, attended i feed found⟩

/-! ## Closing -/

/-- Nothing waits anywhere, and no handler is at work. -/
def isDrained (s : Session) : Bool := s.fanout.feeds.all Feed.isDrained

/-- Where the tasks came to rest, the closing of a set is over exactly when the set is drained. -/
theorem Sound.finished_iff (sound : s.Sound) (orderly : s.Orderly)
    (settled : s.tasks.isSettled = true) (closing : s.closing.isSome = true) :
    s.closing = some .finished ↔ s.isDrained = true := by
  have notDue (t : Task) := Scheduler.not_isDue_of_isSettled settled t
  have closed : s.fanout.isOpen = false := by
    cases isOpen : s.fanout.isOpen with
    | false => rfl
    | true =>
        rcases orderly.closes.isOpen isOpen with none | begun
        · rw [none] at closing
          cases closing
        · exact absurd (orderly.closes.begun begun) (notDue .closer)
  have each (i : Nat) (f : Feed) (found : s.fanout.feeds[i]? = some f) :
      f.isDrained = f.worker.isGone := by
    have attended := orderly.tended.workers i f found
    rw [closed] at attended
    exact (attended.imp (notDue _)).isDrained (sound f (List.mem_of_getElem? found)).lives
  rw [orderly.closes.finished_iff settled closing, isDrained, List.all_eq_true]
  constructor
  · intro gone f mem
    obtain ⟨i, found⟩ := List.mem_iff_getElem?.mp mem
    rw [each i f found]
    cases waits : f.worker.isGone with
    | true => rfl
    | false => exact absurd (Fanout.getElem?_gone_eq_some_iff.mpr ⟨f, found, waits⟩) (gone i)
  · intro drained i waits
    obtain ⟨f, found, notGone⟩ := Fanout.getElem?_gone_eq_some_iff.mp waits
    have done := drained f (List.mem_of_getElem? found)
    rw [each i f found, notGone] at done
    cases done

/-- Once somebody closes the set, its closing is over exactly when the set is drained. -/
def EndsDrained (s : Session) : Prop :=
  s.closing.isSome = true ∧ (s.closing = some .finished ↔ s.isDrained = true)

theorem Sound.endsDrained_settle (sound : s.Sound) (orderly : s.Orderly)
    (closing : s.closing.isSome = true) : s.settle.EndsDrained := by
  have settled := isSettled_settle s
  rw [settle_eq_play] at settled ⊢
  have closing : (s.play s.settling).closing.isSome = true :=
    (closing_turns s s.left).trans closing
  exact ⟨closing, (sound.play _).finished_iff (orderly.play _) settled closing⟩

theorem EndsDrained.kept {s' : Session} (ends : s.EndsDrained) (closing : s'.closing = s.closing)
    (drained : s'.isDrained = s.isDrained) : s'.EndsDrained := by
  unfold EndsDrained
  rw [closing, drained]
  exact ends

theorem isDrained_look (s : Session) : (s.move .look).isDrained = s.isDrained := by
  show (s.fanout.feeds.map Feed.look).all _ = _
  rw [List.all_map]
  rfl

theorem isDrained_release (s : Session) (i times : Nat) :
    (s.move (.release i times)).isDrained = s.isDrained := by
  have each (f : Feed) : (f.releaseTimes times).isDrained = f.isDrained := by
    rw [Feed.isDrained, Feed.isDrained, f.handling?_releaseTimes, (f.releaseTimes_same times).2.1]
  have same := map_modify_of_same s.fanout.feeds i fun x _ => each x
  have all (fs : List Feed) : fs.all Feed.isDrained = (fs.map Feed.isDrained).all id := by
    rw [List.all_map]
    rfl
  rw [isDrained, isDrained, all s.fanout.feeds, ← same]
  exact all _

/-- After every command, the closing of a set is over exactly when the set is drained. -/
theorem EndsDrained.observe (ends : s.EndsDrained) (sound : s.Sound) (orderly : s.Orderly)
    (c : Command) : (s.observe c).1.EndsDrained := by
  have closing := ends.1
  have performed : (s.perform c).1.EndsDrained := by
    cases c with
    | emit e times =>
        have refused : s.perform (.emit e times) = (s, .shutDown) := if_pos closing
        rw [refused]
        exact ends
    | release i times => exact ends.kept rfl (isDrained_release s i times)
    | settle => exact sound.endsDrained_settle orderly closing
    | shutdown =>
        have refused : s.perform .shutdown = (s, .shutDown) := if_pos closing
        rw [refused]
        exact ends
    | unknown => exact ends
  exact performed.kept rfl (isDrained_look _)

theorem EndsDrained.after (ends : s.EndsDrained) (sound : s.Sound) (orderly : s.Orderly)
    (cs : List Command) : (s.after cs).EndsDrained := by
  induction cs generalizing s with
  | nil => exact ends
  | cons c cs ih =>
      exact ih (ends.observe sound orderly c) (sound.observe c) (orderly.observe c)

/-- Whoever closes a set is told that this is over exactly when the set is drained then. -/
theorem Sound.observe_shutdown (sound : s.Sound) (orderly : s.Orderly) (isOpen : s.closing = none) :
    (s.observe .shutdown).1.EndsDrained ∧ (s.observe .shutdown).2.reply =
      if (s.observe .shutdown).1.isDrained then .done else .draining := by
  have closes : s.perform .shutdown = ((s.move .close).settle,
      if (s.move .close).settle.closing = some .finished then .done else .draining) := by
    rw [move_close isOpen]
    simp [perform, isOpen]
  have begun : (s.move .close).closing.isSome = true := by
    rw [move_close isOpen]
    rfl
  have ends := (sound.move .close).endsDrained_settle (orderly.play [.close]) begun
  have looked : (s.observe .shutdown).1 = (s.move .close).settle.move .look := by
    rw [Session.observe, closes]
    rfl
  have told : (s.observe .shutdown).2.reply = (s.perform .shutdown).2 := rfl
  rw [looked, isDrained_look, told, closes]
  refine ⟨ends.kept rfl (isDrained_look _), ?_⟩
  dsimp only
  rw [if_congr ends.2 rfl rfl]

/-! ## Whole sessions -/

/-- The event that is offered to the subscribers in a move, if one is. -/
def offers (s : Session) (mv : Move) : List Event := (s.offered? mv).toList

theorem record_sublist {α : Type} {what what' : Session → Move → List α}
    (each : ∀ s mv, (what s mv).Sublist (what' s mv)) (s : Session) (ms : List Move) :
    (s.record what ms).Sublist (s.record what' ms) := by
  induction ms generalizing s with
  | nil => exact List.Sublist.refl _
  | cons mv ms ih => exact (each s mv).append (ih (s.move mv))

theorem accepts_sublist (s : Session) (mv : Move) : (accepts i s mv).Sublist (s.offers mv) := by
  unfold accepts
  cases s.fanout.feeds[i]? with
  | none => exact List.nil_sublist _
  | some f =>
      show (f.accepts (s.offered? mv)).Sublist _
      unfold Feed.accepts
      split
      · exact List.Sublist.refl _
      · exact List.nil_sublist _

/-- An event is refused exactly while as many events wait as may. -/
theorem Sound.accepts_emit (sound : s.Sound) (orderly : s.Orderly) (isOpen : s.closing = none)
    (found : s.fanout.feeds[i]? = some f) (e : Event) :
    accepts i s (.emit e) = (if f.queue.length = f.subscriber.places then [] else [e]) ∧
      refuses i s (.emit e) = if f.queue.length = f.subscriber.places then [.full] else [] := by
  have there := sound f (List.mem_of_getElem? found)
  have attended := orderly.tended.workers i f found
  rw [orderly.tended.isOpen (Or.inl isOpen)] at attended
  have offered : s.offered? (.emit e) = some e := by simp [offered?, isOpen]
  rw [accepts, refuses, found, offered]
  simp only [Option.map_some, Option.getD_some, Feed.accepts, Feed.refuses,
    Feed.refusal?_of_lives there.lives attended, there.isFull]
  by_cases full : f.queue.length = f.subscriber.places
  · simp [full]
  · simp [full]

/-- A set of subscribers whose handlers always begin their work, at any point of any run. Each
subscriber was handed what its queue accepted, in order and each event once, and what it was not
handed yet waits, no more than may (`Feed.Delivers`). An event that is offered is refused exactly
by those for which as many events wait as may; each of these refusals is reported, in the order of
the subscribers, unless the event is a report on a refusal itself, and nothing else is published
but the reports on panics. Whoever closes the set is told that this is over exactly when nothing
waits any more and no handler is at work, at once or after whatever commands. -/
theorem fifo_with_reported_losses {subscribers : List Subscriber}
    (begins : ∀ s ∈ subscribers, s.AlwaysBegins) (busCapacity : Nat) (ms : List Move) :
    let fresh := raw subscribers busCapacity
    let session := fresh.play ms
    (∀ i s, subscribers[i]? = some s → ∃ f, session.fanout.feeds[i]? = some f ∧
      f.Delivers s (fresh.record offers ms) (fresh.record (accepts i) ms)
        (fresh.record (panics i) ms) ∧
      (session.closing = none → ∀ e,
        accepts i session (.emit e) = (if f.queue.length = s.places then [] else [e]) ∧
        refuses i session (.emit e) = if f.queue.length = s.places then [.full] else [])) ∧
    session.bus = fresh.bus.publishAll (fresh.record published ms) ∧
    (session.closing = none → ∀ e, session.published (.emit e) =
      if e.kind = .subscriberOverflow then [] else
        (session.fanout.feeds.filter fun f => f.queue.length = f.subscriber.places).map fun f =>
          { kind := .subscriberOverflow, name := some f.subscriber.name,
            reason := some ("subscriber=" ++ f.subscriber.name ++ " reason=full") }) ∧
    (session.closing = none →
      (session.observe .shutdown).2.reply =
        (if (session.observe .shutdown).1.isDrained then .done else .draining) ∧
      ∀ cs, ((session.observe .shutdown).1.after cs).closing = some .finished ↔
        ((session.observe .shutdown).1.after cs).isDrained = true) := by
  intro fresh session
  have sound : session.Sound := (sound_raw begins busCapacity).play ms
  have orderly : session.Orderly := (orderly_raw subscribers busCapacity).play ms
  refine ⟨fun i s planned => ?_, bus_play fresh ms, fun isOpen e => ?_, fun isOpen => ?_⟩
  · obtain ⟨f, found, ledger⟩ := ledger_play planned busCapacity ms
    have there := sound f (List.mem_of_getElem? found)
    refine ⟨f, found, ledger.delivers there (record_sublist accepts_sublist fresh ms), ?_⟩
    rw [← ledger.subscriber]
    exact fun isOpen e => sound.accepts_emit orderly isOpen found e
  · rw [published_emit e isOpen, sound.overflows orderly isOpen]
    simp only [Event.subscriberOverflow_full]
  · obtain ⟨ends, told⟩ := sound.observe_shutdown orderly isOpen
    exact ⟨told, fun cs =>
      (ends.after (sound.observe .shutdown) (orderly.observe .shutdown) cs).2⟩

end Fanout.Session

namespace Sample

/-- A subscriber that takes a permit for each event, with one place. -/
def slow : Subscriber := { name := "a", handling := .block, capacity := 1 }

/-- A subscriber that panics at its first event; asked for no place, it has one. -/
def startled : Subscriber :=
  { name := "b", handling := .panic (.text "boom"), capacity := 0, panicsAt := [0] }

/-- An event is offered and taken, and then two more that nobody takes. -/
def crowding : List Fanout.Session.Move :=
  List.replicate 4 .turn ++ .emit (numbered 0) :: List.replicate 6 .turn ++
    [.emit (numbered 1), .emit (numbered 2)]

end Sample

namespace Fanout.Session

/-- Both subscribers were handed the first event and have the second one waiting; the third one was
refused by both, as any further one is. The set is drained only after two permits. -/
theorem fifo_with_reported_losses_of_two :
    let fresh := raw [Sample.slow, Sample.startled] 64
    let session := fresh.play Sample.crowding
    (∀ s ∈ [Sample.slow, Sample.startled], s.AlwaysBegins) ∧ session.closing = none ∧
    (∃ f, session.fanout.feeds[0]? = some f ∧
      f.Delivers Sample.slow (fresh.record offers Sample.crowding) [Sample.numbered 0,
        Sample.numbered 1] [] ∧
      ∀ e, accepts 0 session (.emit e) =
        if f.queue.length = Sample.slow.places then [] else [e]) ∧
    (∃ f, session.fanout.feeds[1]? = some f ∧
      f.Delivers Sample.startled (fresh.record offers Sample.crowding) [Sample.numbered 0,
        Sample.numbered 1] [.subscriberPanicked "b" "boom"]) ∧
    session.published (.emit (Sample.numbered 3)) =
      [.subscriberOverflow "a" "full", .subscriberOverflow "b" "full"] ∧
    session.published (.emit (.subscriberOverflow "a" "full")) = [] ∧
    (session.observe .shutdown).2.reply = .draining ∧
    ((session.observe .shutdown).1.after [.release 0 1, .settle]).closing ≠ some .finished ∧
    ((session.observe .shutdown).1.after [.release 0 2, .settle]).closing = some .finished := by
  have begins : ∀ s ∈ [Sample.slow, Sample.startled], s.AlwaysBegins := by
    intro s mem
    rcases List.mem_cons.mp mem with rfl | mem
    · nofun
    · rw [List.mem_singleton.mp mem]
      nofun
  obtain ⟨accounts, -, losses, closing⟩ := fifo_with_reported_losses begins 64 Sample.crowding
  dsimp only at accounts losses closing ⊢
  generalize run : (raw [Sample.slow, Sample.startled] 64).play Sample.crowding = session
    at accounts losses closing ⊢
  have isOpen : session.closing = none := by
    rw [← run]
    decide +kernel
  obtain ⟨told, ends⟩ := closing isOpen
  refine ⟨begins, isOpen, ?_, ?_, ?_, ?_, ?_, ?_, ?_⟩
  · obtain ⟨f, found, delivers, emits⟩ := accounts 0 Sample.slow rfl
    have accepted : (raw [Sample.slow, Sample.startled] 64).record (accepts 0) Sample.crowding =
        [Sample.numbered 0, Sample.numbered 1] := by decide +kernel
    have silent : (raw [Sample.slow, Sample.startled] 64).record (panics 0) Sample.crowding =
        [] := by decide +kernel
    rw [accepted, silent] at delivers
    exact ⟨f, found, delivers, fun e => (emits isOpen e).1⟩
  · obtain ⟨f, found, delivers, -⟩ := accounts 1 Sample.startled rfl
    have accepted : (raw [Sample.slow, Sample.startled] 64).record (accepts 1) Sample.crowding =
        [Sample.numbered 0, Sample.numbered 1] := by decide +kernel
    have panicked : (raw [Sample.slow, Sample.startled] 64).record (panics 1) Sample.crowding =
        [.subscriberPanicked "b" "boom"] := by decide +kernel
    rw [accepted, panicked] at delivers
    exact ⟨f, found, delivers⟩
  · rw [losses isOpen, ← run]
    decide +kernel
  · exact (losses isOpen _).trans (if_pos rfl)
  · rw [told, if_neg (by rw [← run]; decide +kernel)]
  · exact mt (ends _).mp (by rw [← run]; decide +kernel)
  · exact (ends _).mpr (by rw [← run]; decide +kernel)

end Fanout.Session

end Flotilla
