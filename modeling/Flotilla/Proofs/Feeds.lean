import Flotilla.Proofs.Feedback

/-!
# What becomes of an accepted event

An event that a feed accepts waits in its queue and is then handed over, in order; nothing else
takes it out of the queue (`Feed.taken_work`) but a call of the handler that panics before its
work begins, which loses the queue. A worker waits only where nothing waits for it, or for a
permit (`Feed.Attended`), and whatever is done to a set keeps all its feeds so
(`Fanout.Attended`).
-/

namespace Flotilla

/-! ## What is noted of a run -/

/-- What is noted of the moves of a run, in order. -/
def noted {σ μ α : Type} (move : σ → μ → σ) (what : σ → μ → List α) (s : σ) : List μ → List α
  | [] => []
  | mv :: ms => what s mv ++ noted move what (move s mv) ms

theorem noted_append {σ μ α : Type} (move : σ → μ → σ) (what : σ → μ → List α) (s : σ)
    (ms ms' : List μ) :
    noted move what s (ms ++ ms') = noted move what s ms ++ noted move what (ms.foldl move s) ms' := by
  induction ms generalizing s with
  | nil => rfl
  | cons mv ms ih => rw [List.cons_append, noted, noted, ih, List.append_assoc]; rfl

theorem noted_snoc {σ μ α : Type} (move : σ → μ → σ) (what : σ → μ → List α) (s : σ) (ms : List μ)
    (mv : μ) :
    noted move what s (ms ++ [mv]) = noted move what s ms ++ what (ms.foldl move s) mv := by
  rw [noted_append]
  exact congrArg _ (List.append_nil _)

/-! ## Reports -/

/-- The reports of a kind that were published on a bus, in order and without their numbers. -/
def Bus.reportsOf (b : Bus) (k : EventKind) : List Event :=
  (b.log.toList.map fun e => e.withSeq 0).filter fun e => e.kind = k

theorem Bus.reportsOf_publishAll (b : Bus) (es : List Event) (k : EventKind) :
    (b.publishAll es).reportsOf k =
      b.reportsOf k ++ (es.map fun e => e.withSeq 0).filter fun e => e.kind = k := by
  induction es generalizing b with
  | nil => exact (List.append_nil _).symm
  | cons e es ih =>
      have first : (b.publish e).reportsOf k =
          b.reportsOf k ++ [e.withSeq 0].filter fun e => e.kind = k := by
        unfold Bus.reportsOf
        rw [Bus.log_publish, Array.toList_push, List.map_append, List.filter_append]
        rfl
      show ((b.publish e).publishAll es).reportsOf k = _
      rw [ih, first, List.append_assoc, ← List.filter_append]
      rfl

/-- What a worker publishes is a report on a panic of its own subscriber. -/
theorem Feed.exists_report {feed : Feed} {isOpen : Bool} {report : Event}
    (told : (feed.work isOpen).2.1 = some report) :
    ∃ info, report = .subscriberPanicked feed.subscriber.name info := by
  unfold Feed.work at told
  split at told
  · split at told
    · unfold Feed.handOver at told
      dsimp only at told
      split at told
      · cases told
      · split at told <;> cases told
      · cases told
        exact ⟨_, rfl⟩
      · cases told
    · split at told <;> cases told
  · cases told
  · cases told

theorem Fanout.exists_report {fanout : Fanout} {i : Nat} {report : Event}
    (told : report ∈ (fanout.work i).2.1.toList) :
    ∃ name info, report = .subscriberPanicked name info := by
  rw [Option.mem_toList] at told
  unfold Fanout.work at told
  split at told
  · cases told
  · exact ⟨_, Feed.exists_report told⟩

theorem Fanout.kind_report {fanout : Fanout} {i : Nat} {report : Event}
    (told : report ∈ (fanout.work i).2.1.toList) : report.kind = .subscriberPanicked := by
  obtain ⟨name, info, rfl⟩ := Fanout.exists_report told
  rfl

theorem Fanout.kind_overflows {fanout : Fanout} {e report : Event}
    (told : report ∈ fanout.overflows e) : report.kind = .subscriberOverflow := by
  obtain ⟨feed, -, told⟩ := List.mem_filterMap.mp told
  unfold Feed.overflow? at told
  split at told
  · cases told
  · obtain ⟨refusal, -, rfl⟩ := Option.map_eq_some_iff.mp told
    rfl

/-! ## Handlers -/

/-- The handler always begins its work: no call of it panics before that. -/
def Subscriber.AlwaysBegins (s : Subscriber) : Prop := s.handling ≠ .panicAtOnce

theorem Subscriber.AlwaysBegins.treatment {s : Subscriber} (begins : s.AlwaysBegins) (call : Nat) :
    s.treatment call ≠ .panicAtOnce := by
  unfold Subscriber.treatment
  unfold Subscriber.AlwaysBegins at begins
  cases handling : s.handling with
  | record | count | block => nofun
  | panic payload => dsimp only; split <;> nofun
  | panicAtOnce => exact absurd handling begins

theorem Subscriber.treatment_ne_awaitPermit {s : Subscriber} (takesNone : s.handling ≠ .block)
    (call : Nat) : s.treatment call ≠ .awaitPermit := by
  unfold Subscriber.treatment
  cases handling : s.handling with
  | record | count => nofun
  | block => exact absurd handling takesNone
  | panic payload => dsimp only; split <;> nofun
  | panicAtOnce => dsimp only; split <;> nofun

theorem Fanout.length_feeds_work (fanout : Fanout) (i : Nat) :
    (fanout.work i).1.feeds.length = fanout.feeds.length := by
  unfold Fanout.work
  split
  · rfl
  · exact List.length_set

theorem Fanout.work_isOpen (fanout : Fanout) (i : Nat) :
    (fanout.work i).1.isOpen = fanout.isOpen := by
  unfold Fanout.work
  split <;> rfl

theorem Fanout.mem_wokenByClose {fanout : Fanout} {feed : Feed} {i : Nat}
    (found : fanout.feeds[i]? = some feed) (idle : feed.worker = .idle) :
    i ∈ fanout.wokenByClose :=
  mem_indicesWhere.mpr ⟨feed, found, beq_iff_eq.mpr idle⟩

/-- Whether a worker has something to do. -/
def Worker.isBusy : Worker → Bool
  | .taking | .permitted _ => true
  | _ => false

namespace Feed

variable {feed : Feed} {isOpen : Bool} {due due' : Prop}

/-! ## Accepted events -/

/-- The events that a feed accepted, in order: those that were handed over, and those that
wait. -/
def taken (f : Feed) : List Event := f.handed.toList ++ f.queue

/-- Whether as many events wait as may. -/
def isFull (f : Feed) : Bool := f.subscriber.places ≤ f.queue.length

theorem taken_offer (f : Feed) (e : Event) :
    (f.offer e).taken = if f.refusal?.isSome then f.taken else f.taken ++ [e] := by
  unfold offer
  cases f.refusal? with
  | some => rfl
  | none => exact (List.append_assoc _ _ _).symm

/-- A worker that does not panic at once hands over what was accepted, and nothing else. -/
theorem taken_work (begins : feed.subscriber.treatment feed.calls ≠ .panicAtOnce)
    (isOpen : Bool) : (feed.work isOpen).1.taken = feed.taken := by
  unfold work
  split
  · split
    · rename_i e later queue
      have moved : (feed.handed.push e).toList ++ later = feed.taken := by
        rw [taken, queue, Array.toList_push, List.append_assoc]
        rfl
      unfold handOver
      dsimp only
      split
      · exact moved
      · split <;> exact moved
      · exact moved
      · rename_i atOnce
        exact absurd atOnce begins
    · split <;> rfl
  · rfl
  · rfl

theorem worker_release_release (f : Feed) : f.release.release.worker = f.release.worker := by
  unfold release
  cases worker : f.worker with
  | blocked e => rfl
  | taking | idle | permitted | ended | dead => simp

/-- Permits concern nothing but the worker that waits for one, and the first is all it waits
for. -/
theorem releaseTimes_same (f : Feed) (n : Nat) :
    (f.releaseTimes n).subscriber = f.subscriber ∧ (f.releaseTimes n).queue = f.queue ∧
      (f.releaseTimes n).handed = f.handed ∧
        (f.releaseTimes n).worker = if n = 0 then f.worker else f.release.worker := by
  induction n generalizing f with
  | zero => exact ⟨rfl, rfl, rfl, rfl⟩
  | succ n ih =>
      have one : f.release.subscriber = f.subscriber ∧ f.release.queue = f.queue ∧
          f.release.handed = f.handed := by
        unfold release
        split <;> exact ⟨rfl, rfl, rfl⟩
      obtain ⟨subscriber, queue, handed, worker⟩ := ih f.release
      refine ⟨subscriber.trans one.1, queue.trans one.2.1, handed.trans one.2.2, ?_⟩
      rw [if_neg (Nat.succ_ne_zero n)]
      refine worker.trans ?_
      split
      · rfl
      · exact worker_release_release f

/-- Permits let a worker go on that waits for one, and leave any other as it was. -/
theorem worker_releaseTimes (f : Feed) (n : Nat) :
    (f.releaseTimes n).worker = f.worker ∨
      n ≠ 0 ∧ ∃ e, f.worker = .blocked e ∧ (f.releaseTimes n).worker = .permitted e := by
  rw [(f.releaseTimes_same n).2.2.2]
  split
  · exact Or.inl rfl
  · rename_i some
    unfold release
    split
    · rename_i e blocked
      exact Or.inr ⟨some, e, blocked, rfl⟩
    · exact Or.inl rfl

/-! ## Attended queues -/

/-- The worker of a feed is due while it has something to do; it waits for an event only while
none waits for it, and is done only once the set is closed and none is left. -/
structure Attended (isOpen : Bool) (due : Prop) (feed : Feed) : Prop where
  busy : feed.worker.isBusy = true → due
  idle : feed.worker = .idle → feed.queue = [] ∧ isOpen = true
  ended : feed.worker = .ended → feed.queue = [] ∧ isOpen = false

theorem Attended.imp (attended : feed.Attended isOpen due) (kept : due → due') :
    feed.Attended isOpen due' :=
  ⟨fun busy => kept (attended.busy busy), attended.idle, attended.ended⟩

theorem rouse_isBusy {w : Worker} (busy : w.rouse.isBusy = true) :
    w.isBusy = true ∨ w = .idle := by
  cases w <;> simp_all [Worker.rouse, Worker.isBusy]

/-- A worker that is roused is due or was done, whatever waits for it now. -/
theorem Attended.rouse (attended : feed.Attended true due) (kept : due → due')
    (woken : feed.worker = .idle → due') (isOpen : Bool) (queue : List Event) :
    Feed.Attended isOpen due' { feed with queue, worker := feed.worker.rouse } := by
  refine ⟨fun busy => ?_, fun idle => ?_, fun ended => ?_⟩
  · rcases rouse_isBusy busy with busy | idle
    · exact kept (attended.busy busy)
    · exact woken idle
  · cases worker : feed.worker <;> rw [worker] at idle <;> cases idle
  · have ended : feed.worker = .ended := by
      cases worker : feed.worker <;> rw [worker] at ended <;> first | rfl | cases ended
    exact absurd (attended.ended ended).2 nofun

theorem Attended.offer (attended : feed.Attended true due) (e : Event) (kept : due → due')
    (woken : feed.wakesOnOffer = true → due') : (feed.offer e).Attended true due' := by
  unfold wakesOnOffer at woken
  unfold Feed.offer
  cases refusal : feed.refusal? with
  | some => exact attended.imp kept
  | none =>
      rw [refusal] at woken
      exact attended.rouse kept (fun idle => woken (by rw [idle]; rfl)) true _

theorem Attended.close (attended : feed.Attended true due) (kept : due → due')
    (woken : feed.worker = .idle → due') :
    Feed.Attended false due' { feed with worker := feed.worker.rouse } :=
  attended.rouse kept woken false feed.queue

/-- A worker that goes on in its turn is due; one that does not has nothing to do. -/
theorem Attended.work (attended : feed.Attended isOpen due)
    (goesOn : (feed.work isOpen).2.2 = .again → due') :
    (feed.work isOpen).1.Attended isOpen due' := by
  unfold Feed.work at goesOn ⊢
  split
  · rename_i takes
    rw [takes] at goesOn
    split
    · rename_i e later queue
      rw [queue] at goesOn
      dsimp only at goesOn
      unfold handOver at goesOn ⊢
      dsimp only at goesOn ⊢
      split
      · rename_i treatment
        rw [treatment] at goesOn
        exact ⟨fun _ => goesOn rfl, nofun, nofun⟩
      · rename_i treatment
        rw [treatment] at goesOn
        dsimp only at goesOn
        split
        · exact ⟨nofun, nofun, nofun⟩
        · rename_i some
          rw [if_neg some] at goesOn
          exact ⟨fun _ => goesOn rfl, nofun, nofun⟩
      · rename_i treatment
        rw [treatment] at goesOn
        refine ⟨fun _ => goesOn rfl, fun idle => ?_, fun ended => ?_⟩
        · exact absurd (takes.symm.trans idle) nofun
        · exact absurd (takes.symm.trans ended) nofun
      · exact ⟨nofun, nofun, nofun⟩
    · rename_i queue
      cases isOpen with
      | true => exact ⟨nofun, fun _ => ⟨queue, rfl⟩, nofun⟩
      | false => exact ⟨nofun, nofun, fun _ => ⟨queue, rfl⟩⟩
  · rename_i permitted
    rw [permitted] at goesOn
    exact ⟨fun _ => goesOn rfl, nofun, nofun⟩
  · rename_i taking permitted
    refine ⟨fun busy => ?_, attended.idle, attended.ended⟩
    cases worker : feed.worker with
    | taking => exact absurd worker taking
    | permitted e => exact absurd worker (permitted e)
    | idle | blocked | ended | dead => rw [worker] at busy; cases busy

theorem Attended.releaseTimes {n : Nat} (attended : feed.Attended isOpen due)
    (kept : due → due') (woken : n ≠ 0 → feed.isBlocked = true → due') :
    (feed.releaseTimes n).Attended isOpen due' := by
  obtain ⟨-, queue, -, -⟩ := feed.releaseTimes_same n
  rcases feed.worker_releaseTimes n with same | ⟨some, e, blocked, permitted⟩
  · refine ⟨fun busy => ?_, fun idle => ?_, fun ended => ?_⟩
    · rw [same] at busy
      exact kept (attended.busy busy)
    · rw [same] at idle
      rw [queue]
      exact attended.idle idle
    · rw [same] at ended
      rw [queue]
      exact attended.ended ended
  · refine ⟨fun _ => woken some (by rw [isBlocked, blocked]), fun idle => ?_, fun ended => ?_⟩
    · cases permitted.symm.trans idle
    · cases permitted.symm.trans ended

/-- Where a worker has nothing to do, nothing waits for it, or it waits for a permit. -/
theorem Attended.queue (attended : feed.Attended isOpen False) (lives : feed.worker ≠ .dead) :
    feed.queue = [] ∨ feed.isBlocked = true := by
  cases worker : feed.worker with
  | taking | permitted => exact (attended.busy (by rw [worker]; rfl)).elim
  | idle => exact Or.inl (attended.idle worker).1
  | ended => exact Or.inl (attended.ended worker).1
  | blocked e => exact Or.inr (by rw [isBlocked, worker])
  | dead => exact absurd worker lives

/-! ## What happens to a feed -/

/-- One thing that happens to a feed: an event is offered to it, its worker has a turn and may
report on a panic, or something that concerns neither its events nor whether the worker is dead,
and blocks nobody. -/
inductive Moves : Option Event → Option Event → Feed → Feed → Prop
  | kept {f f' : Feed} (subscriber : f'.subscriber = f.subscriber) (queue : f'.queue = f.queue)
    (handed : f'.handed = f.handed) (dead : f'.worker = .dead ↔ f.worker = .dead)
    (blocked : f'.isBlocked = true → f.isBlocked = true) : Moves none none f f'
  | offered {f : Feed} (e : Event) : Moves (some e) none f (f.offer e)
  | worked {f : Feed} (isOpen : Bool) : Moves none (f.work isOpen).2.1 f (f.work isOpen).1

variable {feed' : Feed} {offered report : Option Event}

theorem moves_look (f : Feed) : Moves none none f f.look := .kept rfl rfl rfl .rfl id

theorem isBlocked_rouse (f : Feed) :
    Feed.isBlocked { f with worker := f.worker.rouse } = f.isBlocked := by
  unfold isBlocked Worker.rouse
  cases f.worker <;> rfl

theorem rouse_eq_dead_iff {w : Worker} : w.rouse = .dead ↔ w = .dead := by
  cases w <;> simp [Worker.rouse]

theorem moves_rouse (f : Feed) : Moves none none f { f with worker := f.worker.rouse } :=
  .kept rfl rfl rfl rouse_eq_dead_iff fun blocked => f.isBlocked_rouse.symm.trans blocked

theorem moves_releaseTimes (f : Feed) (n : Nat) : Moves none none f (f.releaseTimes n) := by
  obtain ⟨subscriber, queue, handed, -⟩ := f.releaseTimes_same n
  rcases f.worker_releaseTimes n with same | ⟨-, e, blocked, permitted⟩
  · exact .kept subscriber queue handed (by rw [same]) (by simp [isBlocked, same])
  · exact .kept subscriber queue handed (by simp [blocked, permitted])
      (by simp [isBlocked, permitted])

theorem Moves.subscriber (moves : feed.Moves offered report feed') :
    feed'.subscriber = feed.subscriber := by
  cases moves with
  | kept subscriber => exact subscriber
  | offered e => exact subscriber_offer feed e
  | worked isOpen => exact subscriber_work feed isOpen

/-- What was handed over stays handed over. -/
theorem Moves.handed (moves : feed.Moves offered report feed') :
    feed.handed.toList <+: feed'.handed.toList := by
  cases moves with
  | kept _ _ handed => exact ⟨[], by rw [handed, List.append_nil]⟩
  | offered e =>
      unfold Feed.offer
      split <;> exact List.prefix_rfl
  | worked isOpen =>
      unfold Feed.work
      split
      · split
        · rename_i e later queue
          have one : feed.handed.toList <+: (feed.handed.push e).toList := by
            rw [Array.toList_push]
            exact List.prefix_append _ _
          unfold handOver
          dsimp only
          split
          · exact one
          · split <;> exact one
          · exact one
          · exact one
        · split <;> exact List.prefix_rfl
      · exact List.prefix_rfl
      · exact List.prefix_rfl

/-- A worker dies only of a call that panics before its work begins. -/
theorem Moves.lives (moves : feed.Moves offered report feed')
    (begins : feed.subscriber.AlwaysBegins) (lives : feed.worker ≠ .dead) : feed'.worker ≠ .dead := by
  cases moves with
  | kept _ _ _ dead => exact mt dead.mp lives
  | offered e =>
      unfold Feed.offer
      split
      · exact lives
      · intro dead
        cases worker : feed.worker <;> simp_all [Worker.rouse]
  | worked isOpen =>
      unfold Feed.work
      split
      · split
        · unfold handOver
          dsimp only
          split
          · nofun
          · split <;> nofun
          · exact lives
          · rename_i atOnce
            exact absurd atOnce (begins.treatment _)
        · split <;> nofun
      · nofun
      · exact lives

/-- Only a handler that takes permits waits for one. -/
theorem Moves.isBlocked (moves : feed.Moves offered report feed')
    (takesNone : feed.subscriber.handling ≠ .block) (free : feed.isBlocked = false) :
    feed'.isBlocked = false := by
  cases moves with
  | kept _ _ _ _ blocked =>
      cases is : feed'.isBlocked with
      | false => rfl
      | true => exact (blocked is).symm.trans free
  | offered e =>
      unfold Feed.offer
      split
      · exact free
      · exact (isBlocked_rouse feed).trans free
  | worked isOpen =>
      unfold Feed.work
      split
      · split
        · unfold handOver
          dsimp only
          split
          · rfl
          · rename_i awaits
            exact absurd awaits (Subscriber.treatment_ne_awaitPermit takesNone _)
          · exact free
          · rfl
        · split <;> rfl
      · rfl
      · exact free

/-- Where nothing is offered nothing is accepted, and what was accepted stays so. -/
theorem Moves.taken (moves : feed.Moves none report feed') (begins : feed.subscriber.AlwaysBegins) :
    feed'.taken = feed.taken := by
  cases moves with
  | kept _ queue handed => rw [Feed.taken, Feed.taken, queue, handed]
  | worked isOpen => exact taken_work (begins.treatment _) isOpen

/-- A worker that is there refuses an event only where its queue is full. -/
theorem refusal?_of_lives (lives : feed.worker ≠ .dead) (attended : feed.Attended true due) :
    feed.refusal? = if feed.isFull then some .full else none := by
  have there : feed.worker.isGone = false := by
    cases worker : feed.worker with
    | dead => exact absurd worker lives
    | ended => exact absurd (attended.ended worker).2 nofun
    | taking | idle | blocked | permitted => rfl
  unfold refusal? isFull
  rw [there]
  simp

end Feed

/-! ## Attended sets -/

namespace Fanout

/-- Every feed of the set is attended to, the worker with a number being due where that number
is. -/
def Attended (s : Fanout) (due : Nat → Prop) : Prop :=
  ∀ i (feed : Feed), s.feeds[i]? = some feed → feed.Attended s.isOpen (due i)

variable {s : Fanout} {due due' : Nat → Prop}

theorem attended_ofSubscribers {subscribers : List Subscriber}
    (all : ∀ i < subscribers.length, due i) : (ofSubscribers subscribers).Attended due := by
  intro i feed found
  have fed : (subscribers.map fun s : Subscriber => ({ subscriber := s } : Feed))[i]? =
      some feed := found
  rw [List.getElem?_map] at fed
  obtain ⟨s, planned, rfl⟩ := Option.map_eq_some_iff.mp fed
  exact ⟨fun _ => all i (List.getElem?_eq_some_iff.mp planned).choose, nofun, nofun⟩

namespace Attended

theorem imp (attended : s.Attended due) (kept : ∀ i, due i → due' i) : s.Attended due' :=
  fun i feed found => (attended i feed found).imp (kept i)

theorem offer (attended : s.Attended due) (isOpen : s.isOpen = true) (e : Event)
    (kept : ∀ i, due i → due' i) (woken : ∀ i ∈ s.wokenByOffer, due' i) :
    (s.offer e).Attended due' := by
  intro i feed found
  rw [getElem?_feeds_offer] at found
  obtain ⟨feed', there, rfl⟩ := Option.map_eq_some_iff.mp found
  have before := attended i feed' there
  show (feed'.offer e).Attended s.isOpen _
  rw [isOpen] at before ⊢
  exact before.offer e (kept i) fun wakes => woken i (mem_wokenByOffer there wakes)

theorem close (attended : s.Attended due) (isOpen : s.isOpen = true)
    (kept : ∀ i, due i → due' i) (woken : ∀ i ∈ s.wokenByClose, due' i) :
    s.close.Attended due' := by
  intro i feed found
  have closed : (s.feeds.map fun f : Feed => { f with worker := f.worker.rouse })[i]? =
      some feed := found
  rw [List.getElem?_map] at closed
  obtain ⟨feed', there, rfl⟩ := Option.map_eq_some_iff.mp closed
  have before := attended i feed' there
  rw [isOpen] at before
  exact before.close (kept i) fun idle => woken i (mem_wokenByClose there idle)

theorem release (attended : s.Attended due) (j times : Nat) (kept : ∀ i, due i → due' i)
    (woken : s.wakesOnRelease j times = true → due' j) : (s.release j times).Attended due' := by
  intro i feed found
  have released : (s.feeds.modify j fun f => f.releaseTimes times)[i]? = some feed := found
  rw [List.getElem?_modify] at released
  obtain ⟨feed', there, eq⟩ := Option.map_eq_some_iff.mp released
  have before := attended i feed' there
  split at eq
  · rename_i own
    subst own eq
    refine before.releaseTimes (kept j) fun some blocked => woken ?_
    simp [wakesOnRelease, there, some, blocked]
  · cases eq
    exact before.imp (kept i)

theorem look (attended : s.Attended due) : s.look.Attended due := by
  intro i feed found
  have looked : (s.feeds.map Feed.look)[i]? = some feed := found
  rw [List.getElem?_map] at looked
  obtain ⟨feed', there, rfl⟩ := Option.map_eq_some_iff.mp looked
  obtain ⟨busy, idle, ended⟩ := attended i feed' there
  exact ⟨busy, idle, ended⟩

/-- The worker whose turn it is stays due if it goes on, and the others as long as they were. -/
theorem work (attended : s.Attended due) (j : Nat) (others : ∀ i, i ≠ j → due i → due' i)
    (goesOn : (s.work j).2.2 = .again → due' j) : (s.work j).1.Attended due' := by
  intro i feed found
  rw [work_isOpen]
  by_cases own : i = j
  · subst own
    cases there : s.feeds[i]? with
    | none =>
        rw [Fanout.work, there] at found
        cases there.symm.trans found
    | some feed' =>
        rw [work_self there] at found goesOn
        rw [List.getElem?_set_self (List.getElem?_eq_some_iff.mp there).choose] at found
        cases found
        exact (attended i feed' there).work goesOn
  · rw [(s.work_ne (Ne.symm own)).1] at found
    exact (attended i feed found).imp (others i own)

end Attended

end Fanout

end Flotilla
