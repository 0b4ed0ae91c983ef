import Flotilla.Proofs.ComingToRest

/-!
# Panics that feed on themselves

A report on a panic is an event like any other: unlike a report on a refusal it is reported in
turn when a subscriber panics at it. Once a subscriber that panics in all its calls has an event
before it (`Fleet.Spins`), every turn of a listener or a worker leaves it with one
(`Fleet.Spins.turn`), so they do not come to rest by themselves (`Fleet.never_settled`). One
event and one such subscriber are enough for that (`Fleet.not_settled_of_onePanicking`).
-/

namespace Flotilla

/-- Every call of the handler panics within its work. -/
def Subscriber.PanicsAlways (s : Subscriber) : Prop :=
  (∃ payload, s.handling = .panic payload) ∧ s.panicsAt = []

/-- The worker of a feed is at work, or waits for an event and there is none. -/
def Feed.Attends (feed : Feed) : Prop :=
  feed.worker = .taking ∨ feed.worker = .idle ∧ feed.queue = []

/-! ## Reading, accepting and working -/

/-- A reader that is not beyond what was published never gets there. -/
theorem Bus.read_within {b : Bus} {r : Reader} (slots : 0 < b.slots)
    (place : r.next ≤ b.published) :
    (∃ e r', b.read r = (.event e, r') ∧ r'.next ≤ b.published) ∨
      (∃ n r', b.read r = (.lagged n, r') ∧ r'.next < b.published) ∨
        b.read r = (.nothing, r) ∧ r.next = b.published := by
  unfold Bus.read
  split
  · rename_i behind
    refine Or.inr (Or.inl ⟨_, _, rfl, ?_⟩)
    unfold Bus.oldest at behind ⊢
    dsimp only
    omega
  · split
    · rename_i found
      obtain ⟨inside, -⟩ := Array.getElem?_eq_some_iff.mp found
      exact Or.inl ⟨_, _, rfl, inside⟩
    · rename_i none
      exact Or.inr (Or.inr ⟨rfl, Nat.le_antisymm place (Array.getElem?_eq_none_iff.mp none)⟩)

/-- An event offered to a subscriber that is at work or waits finds its way into the queue, or
finds others there; the worker is at work then. -/
theorem Feed.Attends.offer {feed : Feed} (attends : feed.Attends) (e : Event) :
    (feed.offer e).queue ≠ [] ∧ (feed.offer e).worker = .taking ∧
      (feed.worker = .idle → feed.wakesOnOffer = true) := by
  have places := feed.subscriber.one_le_places
  rcases attends with takes | ⟨idle, none⟩
  · have refusal : feed.refusal? =
        if feed.subscriber.places ≤ feed.queue.length then some .full else .none := by
      rw [Feed.refusal?, takes]
      rfl
    unfold Feed.offer
    rw [refusal]
    by_cases full : feed.subscriber.places ≤ feed.queue.length
    · rw [if_pos full]
      refine ⟨?_, takes, fun idle => absurd (takes.symm.trans idle) (by decide)⟩
      exact List.ne_nil_of_length_pos (Nat.le_trans places full)
    · rw [if_neg full]
      refine ⟨?_, ?_, fun idle => absurd (takes.symm.trans idle) (by decide)⟩
      · exact List.append_ne_nil_of_right_ne_nil _ (List.cons_ne_nil e [])
      · show feed.worker.rouse = .taking
        rw [takes]
        rfl
  · have refusal : feed.refusal? = .none := by
      rw [Feed.refusal?, idle, none, if_neg (by decide), if_neg]
      exact Nat.not_le.mpr places
    unfold Feed.offer Feed.wakesOnOffer
    rw [refusal, idle]
    exact ⟨List.append_ne_nil_of_right_ne_nil _ (List.cons_ne_nil e []), rfl, fun _ => rfl⟩

theorem Fanout.mem_indicesWhere {fanout : Fanout} {p : Feed → Bool} {i : Nat} :
    i ∈ fanout.indicesWhere p ↔ ∃ feed, fanout.feeds[i]? = some feed ∧ p feed = true := by
  unfold Fanout.indicesWhere
  constructor
  · intro mem
    obtain ⟨⟨feed, j⟩, there, eq⟩ := List.mem_filterMap.mp mem
    split at eq
    · rename_i holds
      cases eq
      exact ⟨feed, List.mem_zipIdx_iff_getElem?.mp there, holds⟩
    · cases eq
  · rintro ⟨feed, found, holds⟩
    refine List.mem_filterMap.mpr ⟨(feed, i), List.mem_zipIdx_iff_getElem?.mpr found, ?_⟩
    rw [if_pos holds]

theorem Fanout.mem_wokenByOffer {fanout : Fanout} {feed : Feed} {i : Nat}
    (found : fanout.feeds[i]? = some feed) (wakes : feed.wakesOnOffer = true) :
    i ∈ fanout.wokenByOffer :=
  mem_indicesWhere.mpr ⟨feed, found, wakes⟩

/-- A worker of a subscriber that panics in all its calls reports on the panic, or waits. -/
theorem Feed.work_of_panicsAlways {feed : Feed} (panics : feed.subscriber.PanicsAlways)
    (attends : feed.Attends) {isOpen : Bool} (goesOn : isOpen = true) :
    (∃ feed' report, feed.work isOpen = (feed', some report, .again) ∧ feed'.worker = .taking ∧
        feed'.subscriber = feed.subscriber) ∨
      ∃ feed', feed.work isOpen = (feed', none, .waits) ∧ feed'.worker = .idle ∧
        feed'.queue = [] ∧ feed'.subscriber = feed.subscriber ∧ feed.queue = [] := by
  subst goesOn
  obtain ⟨⟨payload, handling⟩, all⟩ := panics
  rcases attends with takes | ⟨idle, none⟩
  · unfold Feed.work
    rw [takes]
    cases queue : feed.queue with
    | nil => exact Or.inr ⟨_, rfl, rfl, rfl, rfl, rfl⟩
    | cons e later =>
        have treated : feed.subscriber.treatment feed.calls = .panic payload := by
          rw [Subscriber.treatment, handling]
          dsimp only
          rw [if_pos]
          rw [Subscriber.panicsOn, all]
          rfl
        dsimp only
        unfold Feed.handOver
        rw [treated]
        exact Or.inl ⟨_, _, rfl, takes, rfl⟩
  · unfold Feed.work
    rw [idle]
    exact Or.inr ⟨feed, rfl, idle, none, rfl, none⟩

theorem Fanout.work_self {fanout : Fanout} {feed : Feed} {i : Nat}
    (found : fanout.feeds[i]? = some feed) :
    fanout.work i =
      ({ fanout with feeds := fanout.feeds.set i (feed.work fanout.isOpen).1 },
        (feed.work fanout.isOpen).2) := by
  rw [Fanout.work, found]

theorem Fanout.work_ne (fanout : Fanout) {i j : Nat} (ne : j ≠ i) :
    (fanout.work j).1.feeds[i]? = fanout.feeds[i]? ∧
      (fanout.work j).1.isOpen = fanout.isOpen := by
  unfold Fanout.work
  split
  · exact ⟨rfl, rfl⟩
  · exact ⟨List.getElem?_set_ne ne, rfl⟩

namespace Fleet

variable {f g : Fleet} {m i : Nat} {t : Task} {relay : Relay} {feed : Feed}

/-! ## What is still due -/

/-- A task that is due stays so while it stays in line and the task being run is the same. -/
theorem IsDue.kept (due : f.IsDue t) (line : ∀ u ∈ f.tasks.ready, u ∈ g.tasks.ready)
    (turn : g.tasks.running = f.tasks.running) : g.IsDue t :=
  due.imp (fun due => turn.trans due) (line t)

/-- A task that is due while another one is run stands in line. -/
theorem IsDue.inLine {u : Task} (due : f.IsDue t) (turn : f.tasks.running = some u) (ne : u ≠ t) :
    t ∈ f.tasks.ready :=
  Scheduler.IsDue.inLine due turn ne

theorem isDue_wake (f : Fleet) (t : Task) : (f.wake t).IsDue t :=
  Or.inr (Scheduler.mem_ready_wake.mpr (Or.inr rfl))

theorem mem_ready_wakeAll {is : List Nat} (mem : i ∈ is) :
    .worker m i ∈ (f.wakeAll (is.map (Task.worker m))).tasks.ready :=
  Scheduler.mem_ready_wakeAll.mpr (Or.inr (List.mem_map_of_mem mem))

/-! ## A subscriber that always has an event before it -/

/-- The listener of a manager and the worker of one of its subscribers, which panics in all its
calls, are at work or wait for something to do, and neither waits while there is. -/
structure Attentive (f : Fleet) (m i : Nat) (relay : Relay) (feed : Feed) : Prop where
  here : (f.manager m).relay = some relay
  found : relay.fanout.feeds[i]? = some feed
  panics : feed.subscriber.PanicsAlways
  owned : (f.manager m).owned = true
  isOpen : relay.fanout.isOpen = true
  slots : 0 < (f.manager m).bus.slots
  place : relay.reader.next ≤ (f.manager m).bus.published
  listening : relay.listening = .reading ∧ f.IsDue (.listener m) ∨
    relay.listening = .idle ∧ relay.reader.next = (f.manager m).bus.published
  working : feed.worker = .taking ∧ f.IsDue (.worker m i) ∨ feed.worker = .idle ∧ feed.queue = []

/-- A subscriber that panics in all its calls has an event before it: in its queue, or on the
bus, still to be read. -/
def Spins (f : Fleet) (m i : Nat) : Prop :=
  ∃ relay feed, f.Attentive m i relay feed ∧
    (feed.queue ≠ [] ∨ relay.reader.next < (f.manager m).bus.published)

/-- Where a subscriber has an event before it, its worker or the listener can go on. -/
theorem Spins.not_settled (spins : f.Spins m i) : f.tasks.isSettled = false := by
  obtain ⟨relay, feed, attends, fed⟩ := spins
  have due : ∃ t, f.IsDue t := by
    rcases fed with queue | unread
    · rcases attends.working with ⟨-, due⟩ | ⟨-, none⟩
      · exact ⟨_, due⟩
      · exact absurd none queue
    · rcases attends.listening with ⟨-, due⟩ | ⟨-, none⟩
      · exact ⟨_, due⟩
      · omega
  obtain ⟨t, due⟩ := due
  cases settled : f.tasks.isSettled with
  | false => rfl
  | true =>
      obtain ⟨ready, running⟩ := Bool.and_eq_true_iff.mp settled
      rcases due with turn | mem
      · rw [turn] at running
        cases running
      · rw [List.isEmpty_iff.mp ready] at mem
        cases mem

/-- What happens elsewhere does not matter, as long as the tasks at work stay due. -/
theorem Attentive.of_same (attends : f.Attentive m i relay feed)
    (same : g.manager m = f.manager m)
    (listener : relay.listening = .reading → f.IsDue (.listener m) → g.IsDue (.listener m))
    (worker : feed.worker = .taking → f.IsDue (.worker m i) → g.IsDue (.worker m i)) :
    g.Attentive m i relay feed where
  here := same ▸ attends.here
  found := attends.found
  panics := attends.panics
  owned := same ▸ attends.owned
  isOpen := attends.isOpen
  slots := same ▸ attends.slots
  place := same ▸ attends.place
  listening := by
    rw [same]
    exact attends.listening.imp_left fun reads => ⟨reads.1, listener reads.1 reads.2⟩
  working := attends.working.imp_left fun takes => ⟨takes.1, worker takes.1 takes.2⟩

theorem Spins.of_same (spins : f.Spins m i) (same : g.manager m = f.manager m)
    (listener : f.IsDue (.listener m) → g.IsDue (.listener m))
    (worker : f.IsDue (.worker m i) → g.IsDue (.worker m i)) : g.Spins m i := by
  obtain ⟨relay, feed, attends, fed⟩ := spins
  exact ⟨relay, feed, attends.of_same same (fun _ => listener) fun _ => worker, same ▸ fed⟩

/-- A turn of a task of another manager. -/
theorem Spins.of_passesOn {m' : Nat} (spins : f.Spins m i) (passes : PassesOn m' f g) (ne : m' ≠ m)
    (turn : f.tasks.running = some t) (listener : t ≠ .listener m) (worker : t ≠ .worker m i) :
    g.Spins m i :=
  spins.of_same (passes.others m ne)
    (fun due => Or.inr (passes.line _ (due.inLine turn listener)))
    fun due => Or.inr (passes.line _ (due.inLine turn worker))

theorem manager_modifyRelay (here : (f.manager m).relay = some relay) (change : Relay → Relay) :
    (f.modifyRelay m change).manager m = (f.manager m).modifyRelay change :=
  manager_modifyManager_self (has_of_relay here) _

theorem bus_modifyRelay (here : (f.manager m).relay = some relay) (change : Relay → Relay) :
    ((f.modifyRelay m change).manager m).bus = (f.manager m).bus := by
  rw [manager_modifyRelay here]
  rfl

/-- What is to be seen to where the relay of the manager changes. -/
theorem Attentive.changed {feed' : Feed} (attends : f.Attentive m i relay feed)
    (change : Relay → Relay) (changed : g.manager m = (f.manager m).modifyRelay change)
    (found : (change relay).fanout.feeds[i]? = some feed')
    (same : feed'.subscriber = feed.subscriber)
    (isOpen : (change relay).fanout.isOpen = true)
    (place : (change relay).reader.next ≤ (f.manager m).bus.published)
    (listening : (change relay).listening = .reading ∧ g.IsDue (.listener m) ∨
      (change relay).listening = .idle ∧
        (change relay).reader.next = (f.manager m).bus.published)
    (working : feed'.worker = .taking ∧ g.IsDue (.worker m i) ∨
      feed'.worker = .idle ∧ feed'.queue = []) :
    g.Attentive m i (change relay) feed' := by
  have bus : (g.manager m).bus = (f.manager m).bus := by
    rw [changed]
    rfl
  exact
    { here := by rw [changed, Manager.modifyRelay, attends.here]; rfl
      found
      panics := same ▸ attends.panics
      owned := (congrArg Manager.owned changed).trans attends.owned
      isOpen
      slots := bus ▸ attends.slots
      place := bus ▸ place
      listening := bus ▸ listening
      working }

/-! ## Publishing -/

/-- An event that is published wakes a listener that waits: it is to read the bus then. -/
theorem publish_reads (here : (f.manager m).relay = some relay)
    (listening : relay.listening = .reading ∧ f.IsDue (.listener m) ∨ relay.listening = .idle)
    (e : Event) :
    ((f.publish m e).manager m).relay = some { relay with listening := .reading } ∧
      ((f.publish m e).manager m).bus = (f.manager m).bus.publish e ∧
        ((f.publish m e).manager m).owned = (f.manager m).owned ∧
          (f.publish m e).IsDue (.listener m) := by
  have has := has_of_relay here
  have told := manager_modifyManager_self has fun mgr => { mgr with bus := mgr.bus.publish e }
  have isIdle : ((f.modifyManager m fun mgr =>
      { mgr with bus := mgr.bus.publish e }).manager m).listenerIsIdle =
        (relay.listening == .idle) := by
    rw [told, Manager.listenerIsIdle, here]
  rcases listening with ⟨reads, due⟩ | idle
  · have still : f.publish m e = f.modifyManager m fun mgr =>
        { mgr with bus := mgr.bus.publish e } := by
      rw [Fleet.publish, wakeListener, isIdle, reads, if_neg (by decide)]
    have same : relay = { relay with listening := .reading } := by rw [← reads]
    rw [still, told, ← same]
    exact ⟨here, rfl, rfl, due⟩
  · have rouses : f.publish m e = ((f.modifyManager m fun mgr =>
        { mgr with bus := mgr.bus.publish e }).modifyRelay m fun r =>
          { r with listening := .reading }).wake (.listener m) := by
      rw [Fleet.publish, wakeListener, isIdle, idle, if_pos (by decide)]
      rfl
    have has' : (f.modifyManager m fun mgr => { mgr with bus := mgr.bus.publish e }).Has m :=
      (has_modifyManager _).mpr has
    have roused := manager_modifyManager_self has' fun mgr =>
      mgr.modifyRelay fun r => { r with listening := .reading }
    rw [told] at roused
    have reads := congrArg (Option.map fun r : Relay => { r with listening := .reading }) here
    rw [rouses]
    exact ⟨(congrArg Manager.relay roused).trans reads, congrArg Manager.bus roused,
      (congrArg Manager.owned roused).trans rfl, isDue_wake _ _⟩

theorem Attentive.publish (attends : f.Attentive m i relay feed) (e : Event) :
    (f.publish m e).Attentive m i { relay with listening := .reading } feed ∧
      ((f.publish m e).manager m).bus.published = (f.manager m).bus.published + 1 := by
  obtain ⟨here, bus, owned, due⟩ :=
    publish_reads attends.here (attends.listening.imp_right And.left) e
  have line := (passesOn_publish f m e).line
  have published : ((f.publish m e).manager m).bus.published = (f.manager m).bus.published + 1 := by
    rw [bus]
    exact Bus.published_publish _ _
  refine ⟨?_, published⟩
  exact
    { here
      found := attends.found
      panics := attends.panics
      owned := owned.trans attends.owned
      isOpen := attends.isOpen
      slots := by rw [bus]; exact attends.slots
      place := published ▸ Nat.le_succ_of_le attends.place
      listening := Or.inl ⟨rfl, due⟩
      working := attends.working.imp_left
        (And.imp_right fun due => due.kept line (running_publish f m e)) }

theorem Attentive.publishAll (attends : f.Attentive m i relay feed) (es : List Event) :
    ∃ listening, (f.publishAll m es).Attentive m i { relay with listening } feed ∧
      ((f.publishAll m es).manager m).bus.published =
        (f.manager m).bus.published + es.length := by
  induction es generalizing f relay with
  | nil => exact ⟨relay.listening, attends, rfl⟩
  | cons e es ih =>
      obtain ⟨first, published⟩ := attends.publish e
      obtain ⟨listening, later, published'⟩ := ih first
      refine ⟨listening, later, published'.trans ?_⟩
      rw [published, List.length_cons]
      omega

/-- Events that are published are fed to the subscriber. -/
theorem Attentive.spins_publishAll (attends : f.Attentive m i relay feed) {es : List Event}
    (fed : feed.queue ≠ [] ∨ relay.reader.next < (f.manager m).bus.published ∨ es ≠ []) :
    (f.publishAll m es).Spins m i := by
  obtain ⟨listening, attends', published⟩ := attends.publishAll es
  refine ⟨_, feed, attends', ?_⟩
  have place := attends.place
  rcases fed with queue | unread | some
  · exact Or.inl queue
  · exact Or.inr (by dsimp only; omega)
  · have pos := List.length_pos_iff.mpr some
    exact Or.inr (by dsimp only; omega)

/-! ## The listener -/

/-- An event that is delivered gets to the subscriber, or finds others there. -/
theorem Attentive.spins_deliver (attends : f.Attentive m i relay feed)
    (turn : f.tasks.running = some (.listener m)) (reads : relay.listening = .reading)
    (e : Event) : (f.deliver m relay.fanout e).Spins m i := by
  have working : feed.Attends := attends.working.imp_left And.left
  obtain ⟨queue, takes, wakes⟩ := working.offer e
  -- The fleet once the event was offered, before workers are woken and reports published.
  let g := f.modifyRelay m fun r => { r with fanout := relay.fanout.offer e }
  have offered : g.manager m =
      (f.manager m).modifyRelay fun r => { r with fanout := relay.fanout.offer e } :=
    manager_modifyRelay attends.here _
  have woken := passesOn_wakeAll g m relay.fanout.wokenByOffer
  have due : (g.wakeAll (relay.fanout.wokenByOffer.map (Task.worker m))).IsDue (.worker m i) := by
    rcases attends.working with ⟨-, due⟩ | ⟨idle, -⟩
    · exact Or.inr (woken.line _ (due.inLine turn (by simp)))
    · have mem := Fanout.mem_wokenByOffer attends.found (wakes idle)
      exact Or.inr (mem_ready_wakeAll mem)
  have found : (relay.fanout.offer e).feeds[i]? = some (feed.offer e) := by
    rw [Fanout.getElem?_feeds_offer, attends.found]
    rfl
  have attends' := attends.changed (g := g.wakeAll (relay.fanout.wokenByOffer.map (Task.worker m)))
    _ offered found (feed.subscriber_offer e) attends.isOpen attends.place
    (Or.inl ⟨reads, Or.inl ((Scheduler.running_wakeAll _ _).trans turn)⟩) (Or.inl ⟨takes, due⟩)
  exact attends'.spins_publishAll (Or.inl queue)

theorem Attentive.isHeld (attends : f.Attentive m i relay feed) : f.isHeld m = true := by
  have has := has_of_relay attends.here
  have owned := attends.owned
  unfold Has at has
  rw [manager, List.getD_eq_getElem?_getD, List.getElem?_eq_getElem has] at owned
  rw [Fleet.isHeld, isOwned, List.getElem?_eq_getElem has]
  exact Bool.or_eq_true_iff.mpr (Or.inl owned)

/-- A listener that finds nothing more to read waits; the worker is still at work. -/
theorem Attentive.spins_listenerRests (attends : f.Attentive m i relay feed)
    (turn : f.tasks.running = some (.listener m))
    (read : relay.reader.next = (f.manager m).bus.published) (queue : feed.queue ≠ []) :
    (f.listenerRests m).Spins m i := by
  rw [listenerRests, if_pos attends.isHeld]
  refine ⟨_, feed, attends.changed (fun r => { r with listening := .idle })
    (manager_modifyRelay attends.here _) attends.found rfl attends.isOpen attends.place
    (Or.inr ⟨rfl, read⟩) ?_, Or.inl queue⟩
  rcases attends.working with ⟨takes, due⟩ | ⟨-, none⟩
  · exact Or.inl ⟨takes, Or.inr (due.inLine turn (by simp))⟩
  · exact absurd none queue

/-- A turn of the listener. -/
theorem Spins.stepListener (spins : f.Spins m i) (turn : f.tasks.running = some (.listener m)) :
    (f.stepListener m).Spins m i := by
  obtain ⟨relay, feed, attends, fed⟩ := spins
  unfold Fleet.stepListener
  rw [attends.here]
  dsimp only
  rcases attends.listening with ⟨reads, -⟩ | ⟨idle, read⟩
  · rw [reads]
    -- Where the reader gets to concerns nobody else.
    have bus (reader : Reader) := bus_modifyRelay attends.here fun r => { r with reader }
    have moves (reader : Reader) (place : reader.next ≤ (f.manager m).bus.published) :
        (f.modifyRelay m fun r => { r with reader }).Attentive m i { relay with reader } feed :=
      attends.changed _ (manager_modifyRelay attends.here _) attends.found rfl attends.isOpen place
        (Or.inl ⟨reads, Or.inl turn⟩) attends.working
    rcases Bus.read_within attends.slots attends.place with
      ⟨e, r', got, place⟩ | ⟨n, r', got, unread⟩ | ⟨got, read⟩
    · rw [got]
      exact (moves r' place).spins_deliver turn reads e
    · rw [got]
      refine ⟨_, feed, (moves r' (Nat.le_of_lt unread)).of_same rfl (fun _ => id) fun _ => id,
        Or.inr ?_⟩
      exact (bus r').symm ▸ unread
    · rw [got]
      have queue : feed.queue ≠ [] := fed.resolve_right (by omega)
      refine (moves relay.reader attends.place).spins_listenerRests turn ?_ queue
      rw [bus]
      exact read
  · rw [idle]
    refine ⟨relay, feed, attends.of_same rfl (fun reads => ?_) fun _ due =>
      Or.inr (due.inLine turn (by simp)), fed⟩
    exact absurd (idle.symm.trans reads) (by decide)

/-! ## The workers -/

/-- A turn of the worker of the subscriber. -/
theorem Spins.stepWorker (spins : f.Spins m i) (turn : f.tasks.running = some (.worker m i)) :
    (f.stepWorker m i).Spins m i := by
  obtain ⟨relay, feed, attends, fed⟩ := spins
  have working : feed.Attends := attends.working.imp_left And.left
  have inside := (List.getElem?_eq_some_iff.mp attends.found).choose
  have listener : relay.listening = .reading ∧ .listener m ∈ f.tasks.ready ∨
      relay.listening = .idle ∧ relay.reader.next = (f.manager m).bus.published :=
    attends.listening.imp_left (And.imp_right fun due => due.inLine turn (by simp))
  unfold Fleet.stepWorker
  rw [attends.here]
  dsimp only
  rw [Fanout.work_self attends.found]
  rcases Feed.work_of_panicsAlways attends.panics working attends.isOpen with
    ⟨feed', report, worked, takes, same⟩ | ⟨feed', worked, idle, none, same, queue⟩
  · rw [worked]
    -- The report is the next event before the subscriber.
    let fanout : Fanout := { relay.fanout with feeds := relay.fanout.feeds.set i feed' }
    have panicked : (f.modifyRelay m fun r => { r with fanout }).Attentive m i
        { relay with fanout } feed' :=
      attends.changed _ (manager_modifyRelay attends.here _) (List.getElem?_set_self inside) same
        attends.isOpen attends.place
        (listener.imp_left (And.imp_right fun mem => Or.inr mem)) (Or.inl ⟨takes, Or.inl turn⟩)
    exact panicked.spins_publishAll (Or.inr (Or.inr (List.cons_ne_nil report [])))
  · rw [worked]
    have unread := fed.resolve_left fun some => some queue
    refine ⟨_, feed', attends.changed _ (manager_modifyRelay attends.here _)
      (List.getElem?_set_self inside) same attends.isOpen attends.place ?_ (Or.inr ⟨idle, none⟩),
      Or.inr ?_⟩
    · exact listener.imp_left (And.imp_right fun mem => Or.inr mem)
    · exact Nat.lt_of_lt_of_eq unread (congrArg Bus.published (bus_modifyRelay attends.here _).symm)

/-- A turn of the worker of another subscriber. -/
theorem Spins.stepWorker_ne {j : Nat} (spins : f.Spins m i)
    (turn : f.tasks.running = some (.worker m j)) (ne : j ≠ i) : (f.stepWorker m j).Spins m i := by
  obtain ⟨relay, feed, attends, fed⟩ := spins
  obtain ⟨feeds, isOpen⟩ := relay.fanout.work_ne ne
  unfold Fleet.stepWorker
  rw [attends.here]
  dsimp only
  generalize relay.fanout.work j = worked at feeds isOpen ⊢
  rcases worked with ⟨fanout, report, pace⟩
  dsimp only at feeds isOpen ⊢
  have changed : (f.modifyRelay m fun r => { r with fanout }).Attentive m i { relay with fanout }
      feed :=
    attends.changed _ (manager_modifyRelay attends.here _) (feeds.trans attends.found) rfl
      (isOpen.trans attends.isOpen) attends.place attends.listening attends.working
  have told : ((f.modifyRelay m fun r => { r with fanout }).publishAll m report.toList).Spins m i :=
    changed.spins_publishAll <| fed.imp_right fun unread => Or.inl <|
      Nat.lt_of_lt_of_eq unread (congrArg Bus.published (bus_modifyRelay attends.here _).symm)
  have still := (running_publishAll (f.modifyRelay m fun r => { r with fanout }) m
    report.toList).trans turn
  have parks {g : Fleet} (spins : g.Spins m i) (turn : g.tasks.running = some (.worker m j)) :
      g.park.Spins m i :=
    spins.of_same rfl (fun due => Or.inr (due.inLine turn (by simp)))
      fun due => Or.inr (due.inLine turn (by simp [ne]))
  cases pace with
  | again => exact told
  | waits => exact parks told still
  | «over» =>
      dsimp only
      unfold workerGone
      split
      · refine parks (told.of_same rfl ?_ ?_) ((Scheduler.running_wake _ _).trans still)
        all_goals
          exact fun due => due.kept (passesOn_wake m _ rfl).line (Scheduler.running_wake _ _)
      · exact parks told still

/-! ## Never at rest -/

/-- Whoever of the listeners and workers has the next turn, the subscriber still has an event
before it. -/
theorem Spins.turn (spins : f.Spins m i) (relays : f.RunsRelay) : (f.move .turn).Spins m i := by
  unfold move step?
  cases turn : f.tasks.running with
  | none =>
      cases next : f.tasks.next? with
      | none => exact spins
      | some tasks =>
          exact spins.of_same rfl (isDue_of_next next turn).mpr (isDue_of_next next turn).mpr
  | some t =>
      have relay := relays t turn
      cases t with
      | listener m' =>
          by_cases same : m' = m
          · subst same
            exact spins.stepListener turn
          · exact spins.of_passesOn (passesOn_stepListener f m') same turn (by simp [same])
              (by simp)
      | worker m' j =>
          by_cases same : m' = m
          · subst same
            by_cases own : j = i
            · subst own
              exact spins.stepWorker turn
            · exact spins.stepWorker_ne turn own
          · exact spins.of_passesOn (passesOn_stepWorker f m' j) same turn (by simp)
              (by simp [same])
      | bot | wait | dismissal => cases relay

/-- Where a subscriber that panics in all its calls has an event before it, the listeners and
workers do not come to rest by themselves. -/
theorem never_settled {n : Nat} (spins : f.Spins m i) (undisturbed : f.Undisturbed n) :
    (runToRest step? n f).tasks.isSettled = false := by
  rw [runToRest_eq_play]
  induction n generalizing f with
  | zero => exact spins.not_settled
  | succ n ih =>
      obtain ⟨relays, later⟩ := undisturbed.of_succ
      exact ih (spins.turn relays) later

/-- One bot is registered, and the only subscriber panics in all its calls: nothing but the
listener and the worker can go on, and they do so for ever. -/
theorem not_settled_of_onePanicking :
    ((raw [Sample.onePanicking []] [Sample.bot true]).play [.call (.add 0 0)]).OnlyRelays ∧
      ∀ n, (runToRest step? n ((raw [Sample.onePanicking []] [Sample.bot true]).play
        [.call (.add 0 0)])).tasks.isSettled = false := by
  generalize started : (raw [Sample.onePanicking []] [Sample.bot true]).play [.call (.add 0 0)] = f
  have line : f.tasks.ready = [.worker 0 0, .listener 0] := by
    rw [← started]
    rfl
  have nobody : f.tasks.running = none := by
    rw [← started]
    rfl
  have only : f.OnlyRelays := by
    rintro t (turn | mem)
    · rw [nobody] at turn
      cases turn
    · rw [line] at mem
      simp only [List.mem_cons, List.not_mem_nil, or_false] at mem
      rcases mem with rfl | rfl <;> rfl
  have slots : 0 < (f.manager 0).bus.slots := by
    rw [← started]
    exact Nat.pos_of_isPowerOfTwo (Nat.isPowerOfTwo_nextPowerOfTwo _)
  have spins : f.Spins 0 0 := by
    rw [← started] at line slots ⊢
    exact ⟨_, _,
      { here := rfl
        found := rfl
        panics := ⟨⟨_, rfl⟩, rfl⟩
        owned := rfl
        isOpen := rfl
        slots
        place := Nat.zero_le _
        listening := Or.inl ⟨rfl, Or.inr (line ▸ by simp)⟩
        working := Or.inl ⟨rfl, Or.inr (line ▸ by simp)⟩ }, Or.inr Nat.zero_lt_one⟩
  exact ⟨only, fun n => never_settled spins (only.undisturbed n)⟩

end Fleet

end Flotilla
