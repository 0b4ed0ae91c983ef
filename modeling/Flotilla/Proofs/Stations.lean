import Flotilla.Proofs.Feeds
import Flotilla.Proofs.Lockstep.Kept

/-!
# Between the bus and the subscribers

A `Station` is the bus of a manager together with the relay that reads it. `Station.Moves` lists
what a move can do to it: others publish events and rouse the listener, the listener reads, lags,
waits or closes the subscribers, a worker has its turn, and the owner looks or gives a subscriber
permits. Each move does one of these (`Fleet.Serving.move`), so what is said of a relay over a
whole run is proved by cases on them.

The listener and the workers are due wherever something is left for them to do
(`Fleet.Serving`), at every point of every run (`Fleet.serving_play`).
-/

namespace Flotilla

/-! ## Stations -/

/-- A listener that waits is to read again. -/
def Listening.rouse : Listening → Listening
  | .idle => .reading
  | l => l

/-- Whether the listener closes the subscribers. -/
def Listening.isClosing : Listening → Bool
  | .closing _ => true
  | .reading | .idle => false

/-- Whether events may still be offered to the subscribers. -/
def Listening.offers : Listening → Bool
  | .reading | .idle | .closing .begun => true
  | .closing (.awaiting _) | .closing .finished => false

def Relay.rouse (r : Relay) : Relay := { r with listening := r.listening.rouse }

/-- The relay of a manager just built that has subscribers. -/
def ManagerPlan.relay (p : ManagerPlan) : Relay where
  fanout := .ofSubscribers p.subscribers
  reader := ⟨0⟩

/-- The bus of a manager and the relay that reads it. -/
structure Station where
  bus : Bus
  relay : Relay

namespace Station

/-- Events are published, and the listener is roused by them. -/
def publishAll (s : Station) (es : List Event) : Station :=
  { bus := s.bus.publishAll es
    relay := if es.isEmpty then s.relay else s.relay.rouse }

def setFanout (s : Station) (fanout : Fanout) : Station :=
  { s with relay := { s.relay with fanout } }

def setListening (s : Station) (listening : Listening) : Station :=
  { s with relay := { s.relay with listening } }

theorem reader_publishAll (s : Station) (es : List Event) :
    (s.publishAll es).relay.reader = s.relay.reader := by
  cases es <;> rfl

theorem fanout_publishAll (s : Station) (es : List Event) :
    (s.publishAll es).relay.fanout = s.relay.fanout := by
  cases es <;> rfl

/-- What a move does to a station, and what the listener gets, if it reads the bus in it. -/
inductive Moves : Option Reading → Station → Station → Prop
  | still {s : Station} : Moves none s s
  | told {s : Station} {es : List Event} (plain : ∀ e ∈ es, e.kind.isDiagnostic = false) :
    Moves none s { bus := s.bus.publishAll es, relay := s.relay.rouse }
  | looked {s : Station} : Moves none s (s.setFanout s.relay.fanout.look)
  | released {s : Station} {i times : Nat} :
    Moves none s (s.setFanout (s.relay.fanout.release i times))
  | passed {s : Station} {e : Event} {reader : Reader} (reads : s.relay.listening = .reading)
    (got : s.bus.read s.relay.reader = (.event e, reader)) :
    Moves (some (.event e)) s
      { bus := s.bus.publishAll (s.relay.fanout.overflows e)
        relay := { s.relay with reader, fanout := s.relay.fanout.offer e } }
  | lagged {s : Station} {n : Nat} {reader : Reader} (reads : s.relay.listening = .reading)
    (got : s.bus.read s.relay.reader = (.lagged n, reader)) :
    Moves (some (.lagged n)) s { s with relay := { s.relay with reader } }
  | paused {s : Station} (reads : s.relay.listening = .reading)
    (got : s.bus.read s.relay.reader = (.nothing, s.relay.reader)) :
    Moves (some .nothing) s (s.setListening .idle)
  | stopped {s : Station} (reads : s.relay.listening = .reading)
    (got : s.bus.read s.relay.reader = (.nothing, s.relay.reader)) :
    Moves (some .nothing) s (s.setListening (.closing .begun))
  | closed {s : Station} (begun : s.relay.listening = .closing .begun) :
    Moves none s ((s.setFanout s.relay.fanout.close).setListening (.closing (.awaiting 0)))
  | awaited {s : Station} {i : Nat} (awaits : s.relay.listening = .closing (.awaiting i)) :
    Moves none s (s.setListening (.closing (s.relay.fanout.awaitFrom i)))
  | worked {s : Station} {i : Nat} :
    Moves none s ((s.setFanout (s.relay.fanout.work i).1).publishAll
      (s.relay.fanout.work i).2.1.toList)

theorem Moves.of_bus {got : Option Reading} {s s' : Station} {bus : Bus} (moves : Moves got s s')
    (same : bus = s'.bus) : Moves got s ⟨bus, s'.relay⟩ :=
  same ▸ moves

end Station

theorem Bus.next_le_of_read {b : Bus} {r r' : Reader} {got : Reading}
    (read : b.read r = (got, r')) (place : r.next ≤ b.published) : r'.next ≤ b.published := by
  unfold Bus.read at read
  split at read
  · cases read
    exact Nat.sub_le _ _
  · split at read
    · rename_i found
      cases read
      exact (Array.getElem?_eq_some_iff.mp found).choose
    · cases read
      exact place

theorem Bus.read_nothing {b : Bus} {r r' : Reader} (read : b.read r = (.nothing, r')) :
    r' = r ∧ b.published ≤ r.next := by
  unfold Bus.read at read
  split at read
  · cases read
  · split at read
    · cases read
    · rename_i none
      cases read
      exact ⟨rfl, Array.getElem?_eq_none_iff.mp none⟩

namespace Fleet

variable {f g : Fleet} {m i : Nat} {relay : Relay} {mv : Move}

/-! ## What others do -/

/-- What others do to a station: nothing, or they publish events and rouse the listener. -/
inductive Stirs (f : Fleet) (m : Nat) (relay : Relay) (g : Fleet) : Prop
  | still (bus : (g.manager m).bus = (f.manager m).bus) (here : (g.manager m).relay = some relay)
  | told (es : List Event) (plain : ∀ e ∈ es, e.kind.isDiagnostic = false)
    (bus : (g.manager m).bus = (f.manager m).bus.publishAll es)
    (here : (g.manager m).relay = some relay.rouse)
    (woken : relay.listening = .idle → .listener m ∈ g.tasks.ready)

theorem Stirs.of_same {h : Fleet} (stirs : f.Stirs m relay g)
    (bus : (h.manager m).bus = (g.manager m).bus)
    (here : (h.manager m).relay = (g.manager m).relay)
    (line : ∀ t ∈ g.tasks.ready, t ∈ h.tasks.ready) : f.Stirs m relay h := by
  cases stirs with
  | still bus' here' => exact .still (bus.trans bus') (here.trans here')
  | told es plain bus' here' woken =>
      exact .told es plain (bus.trans bus') (here.trans here') fun idle => line _ (woken idle)

theorem Stirs.of_manager {h : Fleet} (stirs : f.Stirs m relay g)
    (same : h.manager m = g.manager m) (line : ∀ t ∈ g.tasks.ready, t ∈ h.tasks.ready) :
    f.Stirs m relay h :=
  stirs.of_same (by rw [same]) (by rw [same]) line

theorem rouse_of_ne (busy : relay.listening ≠ .idle) : relay.rouse = relay := by
  unfold Relay.rouse Listening.rouse
  rcases relay with ⟨fanout, reader, _ | _ | c⟩
  · rfl
  · exact absurd rfl busy
  · rfl

theorem rouse_of_idle (idle : relay.listening = .idle) :
    relay.rouse = { relay with listening := .reading } := by
  rw [Relay.rouse, idle]
  rfl

theorem rouse_rouse (relay : Relay) : relay.rouse.rouse = relay.rouse := by
  refine rouse_of_ne ?_
  unfold Relay.rouse Listening.rouse
  cases relay.listening <;> nofun

theorem wakeListener_relay (here : (f.manager m).relay = some relay) :
    ((f.wakeListener m).manager m).relay = some relay.rouse ∧
      ((f.wakeListener m).manager m).bus = (f.manager m).bus ∧
        (relay.listening = .idle → .listener m ∈ (f.wakeListener m).tasks.ready) := by
  have isIdle : (f.manager m).listenerIsIdle = (relay.listening == .idle) := by
    rw [Manager.listenerIsIdle, here]
  unfold wakeListener
  rw [isIdle]
  by_cases idle : relay.listening = .idle
  · rw [rouse_of_idle idle, if_pos (beq_iff_eq.mpr idle)]
    exact ⟨relay_modifyRelay here _, bus_modifyRelay here _,
      fun _ => Scheduler.mem_ready_wake.mpr (Or.inr rfl)⟩
  · rw [rouse_of_ne idle, if_neg (mt beq_iff_eq.mp idle)]
    exact ⟨here, rfl, fun is => absurd is idle⟩

theorem publish_relay (here : (f.manager m).relay = some relay) (e : Event) :
    ((f.publish m e).manager m).relay = some relay.rouse ∧
      ((f.publish m e).manager m).bus = (f.manager m).bus.publish e ∧
        (relay.listening = .idle → .listener m ∈ (f.publish m e).tasks.ready) := by
  have told := manager_modifyManager_self (has_of_relay here)
    fun mgr => { mgr with bus := mgr.bus.publish e }
  have here' := (congrArg Manager.relay told).trans here
  obtain ⟨relay', bus, woken⟩ := wakeListener_relay here'
  exact ⟨relay', bus.trans (congrArg Manager.bus told), woken⟩

theorem Stirs.wakeListener (stirs : f.Stirs m relay g) (m' : Nat) :
    f.Stirs m relay (g.wakeListener m') := by
  have line := (keepsTasks_wakeListener g m').2
  by_cases same : m' = m
  · subst same
    cases stirs with
    | still bus here =>
        obtain ⟨relay', bus', woken⟩ := wakeListener_relay here
        exact .told [] (by simp) (bus'.trans bus) relay' woken
    | told es plain bus here woken =>
        obtain ⟨relay', bus', -⟩ := wakeListener_relay here
        rw [rouse_rouse] at relay'
        exact .told es plain (bus'.trans bus) relay' fun idle => line _ (woken idle)
  · refine stirs.of_manager ?_ line
    unfold Fleet.wakeListener
    split
    · exact manager_modifyManager_ne same _
    · rfl

theorem Stirs.publish (stirs : f.Stirs m relay g) {e : Event} (plain : e.kind.isDiagnostic = false)
    (m' : Nat) : f.Stirs m relay (g.publish m' e) := by
  have line := (keepsTasks_publish g m' e).2
  by_cases same : m' = m
  · subst same
    cases stirs with
    | still bus here =>
        obtain ⟨relay', bus', woken⟩ := publish_relay here e
        exact .told [e] (by simpa using plain) (by rw [bus', bus]; rfl) relay' woken
    | told es plain' bus here woken =>
        obtain ⟨relay', bus', -⟩ := publish_relay here e
        rw [rouse_rouse] at relay'
        refine .told (es ++ [e]) (fun e' mem => ?_) ?_ relay' fun idle => line _ (woken idle)
        · rcases List.mem_append.mp mem with mem | mem
          · exact plain' e' mem
          · rw [List.mem_singleton.mp mem]
            exact plain
        · rw [bus', bus, Bus.publishAll, Bus.publishAll, List.foldl_append]
          rfl
  · exact stirs.of_manager ((passesOn_publish g m' e).others m same) line

/-- What is done in the turn of a launched bot or a waiter, and what the owner does, stirs a
station at most. -/
theorem TurnsInStep.stirs (f : Fleet) (m : Nat) (relay : Relay) :
    TurnsInStep (Both (f.Stirs m relay)) := by
  have elsewhere {g h : Fleet} (stirs : f.Stirs m relay g) (managers : h.managers = g.managers)
      (tasks : h.tasks = g.tasks) : f.Stirs m relay h := by
    refine stirs.of_manager ?_ fun t mem => tasks ▸ mem
    unfold manager
    rw [managers]
  have modify {g : Fleet} {h : Manager → Manager} (stirs : f.Stirs m relay g)
      (bus : ∀ x, (h x).bus = x.bus) (relays : ∀ x, (h x).relay = x.relay) (m' : Nat) :
      f.Stirs m relay (g.modifyManager m' h) := by
    rcases manager_modifyManager_or g m' m h with same | ⟨-, changed⟩
    · exact stirs.of_manager same fun _ => id
    · exact stirs.of_same (by rw [changed, bus]) (by rw [changed, relays]) fun _ => id
  have manager {g : Fleet} {h : Manager → Manager} (stirs : f.Stirs m relay g)
      (apart : Manager.Apart h) (m' : Nat) : f.Stirs m relay (g.modifyManager m' h) :=
    modify stirs apart.bus apart.relay m'
  have lock : Lockstep (Both (f.Stirs m relay)) :=
    .ofKept (fun stirs managers tasks _ => elsewhere stirs managers tasks) manager
      (fun stirs _ => stirs.of_manager rfl (keepsTasks_wake _ _).2)
      fun stirs plain m' => stirs.publish plain m'
  refine .ofKept
    (.ofKept (.ofKept lock (fun stirs managers tasks _ => elsewhere stirs managers tasks) ?_ ?_)
      ?_ ?_)
    (.ofKept lock (fun stirs managers tasks _ => elsewhere stirs managers tasks) manager ?_) manager
  · exact fun stirs _ => stirs.of_manager rfl fun _ => id
  · exact fun stirs m' => stirs.wakeListener m'
  · exact fun stirs _ _ => stirs.of_manager rfl fun _ => id
  · exact fun stirs m' =>
      modify (h := fun x => { x with owned := false }) stirs (fun _ => rfl) (fun _ => rfl) m'
  · exact fun stirs => stirs.of_manager rfl fun _ => id

/-! ## What is due -/

/-- What the listener of a manager gets in a move, if it reads the bus in it. -/
def reading? (f : Fleet) (m : Nat) : Move → Option Reading
  | .turn =>
    if f.tasks.running = some (.listener m) then
      match (f.manager m).relay with
      | some relay =>
        if relay.listening = .reading then some ((f.manager m).bus.read relay.reader).1 else none
      | none => none
    else none
  | _ => none

/-- The listener of a manager and the workers of its subscribers are due wherever something is
left for them to do. -/
structure Serving (f : Fleet) (m : Nat) (relay : Relay) : Prop where
  here : (f.manager m).relay = some relay
  place : relay.reader.next ≤ (f.manager m).bus.published
  isOpen : relay.fanout.isOpen = relay.listening.offers
  due : relay.listening = .reading ∨ relay.listening = .closing .begun → f.IsDue (.listener m)
  idle : relay.listening = .idle → relay.reader.next = (f.manager m).bus.published
  alone : relay.listening.isClosing = true → f.isHeld m = false
  workers : ∀ i (feed : Feed), relay.fanout.feeds[i]? = some feed →
    feed.Attended relay.fanout.isOpen (f.IsDue (.worker m i))

theorem isClosing_rouse (l : Listening) : l.rouse.isClosing = l.isClosing := by
  cases l <;> rfl

theorem offers_rouse (l : Listening) : l.rouse.offers = l.offers := by
  cases l <;> rfl

theorem rouse_ne_idle (l : Listening) : l.rouse ≠ .idle := by
  cases l <;> nofun

theorem due_of_rouse {l : Listening} (busy : l.rouse = .reading ∨ l.rouse = .closing .begun) :
    (l = .reading ∨ l = .closing .begun) ∨ l = .idle := by
  cases l with
  | idle => exact Or.inr rfl
  | reading | closing => exact Or.inl busy

theorem not_isHeld_of (kept : f.KeepsAlone g) (alone : f.isHeld m = false) :
    g.isHeld m = false := by
  cases held : g.isHeld m with
  | false => rfl
  | true => exact absurd (kept m held) (by rw [alone]; nofun)

theorem published_publishAll (b : Bus) (es : List Event) :
    (b.publishAll es).published = b.published + es.length := by
  induction es generalizing b with
  | nil => rfl
  | cons e es ih =>
      rw [Bus.publishAll, List.foldl_cons]
      refine (ih (b.publish e)).trans ?_
      rw [Bus.published_publish, List.length_cons]
      omega

theorem Serving.attended (serving : f.Serving m relay) :
    relay.fanout.Attended fun i => f.IsDue (.worker m i) :=
  serving.workers

/-- Others leave it so that the listener and the workers are due where they should be. -/
theorem Serving.stirred (serving : f.Serving m relay) (stirs : f.Stirs m relay g)
    (kept : f.KeepsAlone g) (listener : f.IsDue (.listener m) → g.IsDue (.listener m))
    (workers : ∀ i, f.IsDue (.worker m i) → g.IsDue (.worker m i)) :
    ∃ relay', g.Serving m relay' ∧
      Station.Moves none ⟨(f.manager m).bus, relay⟩ ⟨(g.manager m).bus, relay'⟩ := by
  have attended := serving.attended.imp workers
  cases stirs with
  | still bus here =>
      refine ⟨relay, ?_, Station.Moves.still.of_bus bus⟩
      exact ⟨here, bus ▸ serving.place, serving.isOpen, fun busy => listener (serving.due busy),
        bus ▸ serving.idle, fun closing => not_isHeld_of kept (serving.alone closing), attended⟩
  | told es plain bus here woken =>
      refine ⟨relay.rouse, ?_, (Station.Moves.told plain).of_bus bus⟩
      refine ⟨here, ?_, serving.isOpen.trans (offers_rouse _).symm, fun busy => ?_,
        fun idle => absurd idle (rouse_ne_idle _), fun closing => ?_, attended⟩
      · rw [bus, published_publishAll]
        exact Nat.le_add_right_of_le serving.place
      · rcases due_of_rouse busy with busy | idle
        · exact listener (serving.due busy)
        · exact Or.inr (woken idle)
      · exact not_isHeld_of kept (serving.alone ((isClosing_rouse _).symm.trans closing))

/-! ## The owner -/

theorem Serving.release (serving : f.Serving m relay) (i times : Nat) :
    ∃ relay', (f.releaseSubscriber m i times).Serving m relay' ∧
      Station.Moves none ⟨(f.manager m).bus, relay⟩
        ⟨((f.releaseSubscriber m i times).manager m).bus, relay'⟩ := by
  have kept := keepsTasks_releaseSubscriber f m i times
  have alone := keepsAlone_releaseSubscriber f m i times
  have here : ((f.releaseSubscriber m i times).manager m).relay =
      some { relay with fanout := relay.fanout.release i times } := by
    unfold releaseSubscriber
    rw [serving.here]
    dsimp only
    split <;> exact relay_modifyRelay serving.here _
  have bus : ((f.releaseSubscriber m i times).manager m).bus = (f.manager m).bus := by
    unfold releaseSubscriber
    rw [serving.here]
    dsimp only
    split <;> exact bus_modifyRelay serving.here _
  have due {t : Task} (due : f.IsDue t) : (f.releaseSubscriber m i times).IsDue t :=
    due.kept kept.2 kept.1
  refine ⟨_, ⟨here, bus ▸ serving.place, serving.isOpen, fun busy => due (serving.due busy),
    bus ▸ serving.idle, fun closing => not_isHeld_of alone (serving.alone closing),
    serving.attended.release i times (fun _ => due) fun wakes => ?_⟩,
    Station.Moves.released.of_bus bus⟩
  unfold releaseSubscriber
  rw [serving.here]
  dsimp only
  rw [if_pos wakes]
  exact isDue_wake _ _

theorem Serving.look (serving : f.Serving m relay) :
    ∃ relay', (f.move .look).Serving m relay' ∧
      Station.Moves none ⟨(f.manager m).bus, relay⟩ ⟨((f.move .look).manager m).bus, relay'⟩ := by
  have looked : (f.move .look).manager m = lookAt (f.manager m) := by
    have has := has_of_relay serving.here
    unfold Has at has
    show ((f.managers.map lookAt).getD m default) = lookAt (f.managers.getD m default)
    rw [List.getD_eq_getElem?_getD, List.getD_eq_getElem?_getD, List.getElem?_map,
      List.getElem?_eq_getElem has]
    rfl
  have bus : ((f.move .look).manager m).bus = (f.manager m).bus := by
    rw [looked]
    rfl
  have here : ((f.move .look).manager m).relay =
      some { relay with fanout := relay.fanout.look } := by
    rw [looked]
    show ((f.manager m).relay.map _) = _
    rw [serving.here]
    rfl
  exact ⟨_, ⟨here, bus ▸ serving.place, serving.isOpen, serving.due, bus ▸ serving.idle,
    fun closing => not_isHeld_of (keepsAlone_look f) (serving.alone closing),
    serving.attended.look⟩, Station.Moves.looked.of_bus bus⟩

theorem manager_releaseSubscriber_ne (f : Fleet) {m' : Nat} (other : m' ≠ m) (i times : Nat) :
    (f.releaseSubscriber m' i times).manager m = f.manager m := by
  unfold releaseSubscriber
  split
  · rfl
  · dsimp only
    split <;> exact manager_modifyManager_ne other _

/-! ## The listener -/

theorem keepsTasks_wakeAll (f : Fleet) (ts : List Task) : f.KeepsTasks (f.wakeAll ts) := by
  induction ts generalizing f with
  | nil => exact ⟨rfl, fun _ => id⟩
  | cons t ts ih => exact (keepsTasks_wake f t).trans (ih (f.wake t))

theorem keepsTasks_publishAll (f : Fleet) (m : Nat) (es : List Event) :
    f.KeepsTasks (f.publishAll m es) := by
  induction es generalizing f with
  | nil => exact ⟨rfl, fun _ => id⟩
  | cons e es ih => exact (keepsTasks_publish f m e).trans (ih _)

theorem publishAll_relay (here : (f.manager m).relay = some relay) (es : List Event) :
    ((f.publishAll m es).manager m).relay =
        some (if es.isEmpty then relay else relay.rouse) ∧
      ((f.publishAll m es).manager m).bus = (f.manager m).bus.publishAll es ∧
        (relay.listening = .idle → es ≠ [] → .listener m ∈ (f.publishAll m es).tasks.ready) := by
  induction es generalizing f relay with
  | nil => exact ⟨here, rfl, fun _ some => absurd rfl some⟩
  | cons e es ih =>
      obtain ⟨here', bus, woken⟩ := publish_relay here e
      obtain ⟨relay', bus', -⟩ := ih here'
      refine ⟨relay'.trans ?_, bus'.trans (by rw [bus]; rfl), fun idle _ => ?_⟩
      · rw [rouse_rouse, ite_self]
        rfl
      · exact (keepsTasks_publishAll (f.publish m e) m es).2 _ (woken idle)

/-- The listener reads an event and offers it to the subscribers. -/
theorem Serving.passed (serving : f.Serving m relay)
    (turn : f.tasks.running = some (.listener m)) (reads : relay.listening = .reading) {e : Event}
    {reader : Reader} (got : (f.manager m).bus.read relay.reader = (.event e, reader))
    (place : reader.next ≤ (f.manager m).bus.published) :
    ∃ relay', ((f.modifyRelay m fun r => { r with reader }).deliver m relay.fanout e).Serving m
        relay' ∧
      Station.Moves (some (.event e)) ⟨(f.manager m).bus, relay⟩
        ⟨((((f.modifyRelay m fun r => { r with reader }).deliver m relay.fanout e)).manager m).bus,
          relay'⟩ := by
  -- The fleet once the event was offered, before workers are woken and reports published.
  let g := (f.modifyRelay m fun r => { r with reader }).modifyRelay m fun r =>
    { r with fanout := relay.fanout.offer e }
  let woken := g.wakeAll (relay.fanout.wokenByOffer.map (Task.worker m))
  have here : (woken.manager m).relay =
      some { relay with reader, fanout := relay.fanout.offer e } :=
    relay_modifyRelay (relay_modifyRelay serving.here _) _
  have bus : (woken.manager m).bus = (f.manager m).bus :=
    (bus_modifyRelay (relay_modifyRelay serving.here _) _).trans (bus_modifyRelay serving.here _)
  have line : f.KeepsTasks woken := keepsTasks_wakeAll g _
  have tasks := line.trans (keepsTasks_publishAll woken m (relay.fanout.overflows e))
  obtain ⟨here', bus', -⟩ := publishAll_relay here (relay.fanout.overflows e)
  rw [rouse_of_ne (by simp [reads]), ite_self] at here'
  rw [bus] at bus'
  have isOpen : relay.fanout.isOpen = true := by
    rw [serving.isOpen, reads]
    rfl
  refine ⟨_, ⟨here', ?_, ?_, fun _ => Or.inl (tasks.1.trans turn), fun idle => ?_,
    fun closing => ?_, serving.attended.offer isOpen e (fun i due => due.kept tasks.2 tasks.1)
      fun i wakes => Or.inr ?_⟩, (Station.Moves.passed reads got).of_bus bus'⟩
  · show reader.next ≤ ((woken.publishAll m (relay.fanout.overflows e)).manager m).bus.published
    rw [bus', published_publishAll]
    exact Nat.le_add_right_of_le place
  · exact serving.isOpen
  · exact absurd (reads.symm.trans idle) nofun
  · have closing : relay.listening.isClosing = true := closing
    rw [reads] at closing
    cases closing
  · exact (keepsTasks_publishAll woken m _).2 _ (mem_ready_wakeAll wakes)

/-- The listener has read everything: it waits, or closes the subscribers once nobody has the
manager. -/
theorem Serving.rests (serving : f.Serving m relay)
    (turn : f.tasks.running = some (.listener m)) (reads : relay.listening = .reading)
    (got : (f.manager m).bus.read relay.reader = (.nothing, relay.reader))
    (read : relay.reader.next = (f.manager m).bus.published) :
    ∃ relay', ((f.modifyRelay m fun r => { r with reader := relay.reader }).listenerRests m).Serving
        m relay' ∧
      Station.Moves (some .nothing) ⟨(f.manager m).bus, relay⟩
        ⟨(((f.modifyRelay m fun r => { r with reader := relay.reader }).listenerRests m).manager
          m).bus, relay'⟩ := by
  have here := relay_modifyRelay serving.here fun r => { r with reader := relay.reader }
  have bus := bus_modifyRelay serving.here fun r => { r with reader := relay.reader }
  have offers : relay.fanout.isOpen = true := by
    rw [serving.isOpen, reads]
    rfl
  unfold listenerRests
  split
  · have here' := relay_modifyRelay here fun r => { r with listening := .idle }
    have bus' := (bus_modifyRelay here fun r => { r with listening := .idle }).trans bus
    exact ⟨{ relay with listening := .idle }, ⟨here', bus' ▸ serving.place, offers, nofun,
      fun _ => bus' ▸ read, nofun,
      serving.attended.imp fun i due => Or.inr (due.inLine turn (by simp))⟩,
      (Station.Moves.paused reads got).of_bus bus'⟩
  · rename_i alone
    rw [Bool.not_eq_true] at alone
    have here' := relay_modifyRelay here fun r => { r with listening := .closing .begun }
    have bus' := (bus_modifyRelay here fun r => { r with listening := .closing .begun }).trans bus
    refine ⟨{ relay with listening := .closing .begun }, ⟨here', bus' ▸ serving.place, offers,
      fun _ => Or.inl turn, nofun, fun _ => ?_, serving.workers⟩,
      (Station.Moves.stopped reads got).of_bus bus'⟩
    exact not_isHeld_of (keepsAlone_modifyRelay _ m _) alone

/-- The listener closes the set of the subscribers. -/
theorem Serving.closed (serving : f.Serving m relay)
    (begun : relay.listening = .closing .begun) :
    ∃ relay', ((f.modifyRelay m fun r => { r with
        fanout := r.fanout.close
        listening := .closing (.awaiting 0) }).wakeAll
          (relay.fanout.wokenByClose.map (Task.worker m))).Serving m relay' ∧
      Station.Moves none ⟨(f.manager m).bus, relay⟩
        ⟨((f.modifyRelay m fun r => { r with
          fanout := r.fanout.close
          listening := .closing (.awaiting 0) }).manager m).bus, relay'⟩ := by
  let g := f.modifyRelay m fun r => { r with
    fanout := r.fanout.close
    listening := .closing (.awaiting 0) }
  have here : (g.manager m).relay = some { relay with
      fanout := relay.fanout.close
      listening := .closing (.awaiting 0) } :=
    relay_modifyRelay serving.here _
  have bus : (g.manager m).bus = (f.manager m).bus := bus_modifyRelay serving.here _
  have tasks : f.KeepsTasks (g.wakeAll (relay.fanout.wokenByClose.map (Task.worker m))) :=
    keepsTasks_wakeAll g _
  have isOpen : relay.fanout.isOpen = true := by
    rw [serving.isOpen, begun]
    rfl
  have alone := serving.alone (by rw [begun]; rfl)
  refine ⟨_, ⟨here, ?_, rfl, fun busy => ?_, nofun, fun _ => ?_,
    serving.attended.close isOpen (fun i due => due.kept tasks.2 tasks.1) fun i wakes => Or.inr ?_⟩,
    (Station.Moves.closed begun).of_bus bus⟩
  · show relay.reader.next ≤ (g.manager m).bus.published
    rw [bus]
    exact serving.place
  · rcases busy with busy | busy <;> cases busy
  · exact not_isHeld_of (keepsAlone_modifyRelay f m _) alone
  · exact mem_ready_wakeAll wakes

/-- The workers are due as they were while the listener has the turn. -/
theorem Serving.attendedIn {g : Fleet} (serving : f.Serving m relay)
    (turn : f.tasks.running = some (.listener m))
    (line : ∀ t ∈ f.tasks.ready, t ∈ g.tasks.ready) :
    relay.fanout.Attended fun i => g.IsDue (.worker m i) :=
  serving.attended.imp fun i due => Or.inr (line _ (due.inLine turn (by simp)))

/-- The listener is told that it lost events, and warns of it. -/
theorem Serving.lost (serving : f.Serving m relay) (turn : f.tasks.running = some (.listener m))
    (reads : relay.listening = .reading) {n : Nat} {reader : Reader}
    (got : (f.manager m).bus.read relay.reader = (.lagged n, reader)) (message : String)
    (fields : List (String × FieldValue)) :
    ∃ relay', ((f.modifyRelay m fun r => { r with reader }).say .warn message fields none).Serving
        m relay' ∧
      Station.Moves (some (.lagged n)) ⟨(f.manager m).bus, relay⟩
        ⟨(((f.modifyRelay m fun r => { r with reader }).say .warn message fields none).manager
          m).bus, relay'⟩ := by
  have here := relay_modifyRelay serving.here fun r => { r with reader }
  have bus := bus_modifyRelay serving.here fun r => { r with reader }
  refine ⟨{ relay with reader }, ⟨here, ?_, serving.isOpen, fun _ => Or.inl turn, ?_, ?_,
    serving.attendedIn turn fun _ => id⟩, (Station.Moves.lagged reads got).of_bus bus⟩
  · show reader.next ≤ ((f.modifyRelay m fun r => { r with reader }).manager m).bus.published
    rw [bus]
    exact Bus.next_le_of_read got serving.place
  · exact fun idle => absurd (reads.symm.trans idle) nofun
  · intro closing
    have closing : relay.listening.isClosing = true := closing
    rw [reads] at closing
    cases closing

/-- The listener waits for the next of the workers to end. -/
theorem Serving.awaits (serving : f.Serving m relay) (turn : f.tasks.running = some (.listener m))
    (awaiting : relay.listening = .closing (.awaiting i)) :
    ∃ relay', (f.modifyRelay m fun r =>
        { r with listening := .closing (relay.fanout.awaitFrom i) }).park.Serving m relay' ∧
      Station.Moves none ⟨(f.manager m).bus, relay⟩
        ⟨((f.modifyRelay m fun r =>
          { r with listening := .closing (relay.fanout.awaitFrom i) }).park.manager m).bus,
          relay'⟩ := by
  have here := relay_modifyRelay serving.here fun r =>
    { r with listening := .closing (relay.fanout.awaitFrom i) }
  have bus := bus_modifyRelay serving.here fun r =>
    { r with listening := .closing (relay.fanout.awaitFrom i) }
  have alone := serving.alone (by rw [awaiting]; rfl)
  have done : (Listening.closing (relay.fanout.awaitFrom i)).offers = false ∧
      relay.fanout.awaitFrom i ≠ .begun := by
    unfold Fanout.awaitFrom
    split <;> exact ⟨rfl, nofun⟩
  refine ⟨_, ⟨here, bus.symm ▸ serving.place, ?_, fun busy => ?_, nofun,
    fun _ => not_isHeld_of (keepsAlone_modifyRelay f m _) alone,
    serving.attendedIn turn fun _ => id⟩, (Station.Moves.awaited awaiting).of_bus bus⟩
  · refine (serving.isOpen.trans ?_).trans done.1.symm
    rw [awaiting]
    rfl
  · rcases busy with busy | busy
    · cases busy
    · exact absurd (Listening.closing.inj busy) done.2

/-- The listener parks, with nothing to read and nothing to close. -/
theorem Serving.parks (serving : f.Serving m relay) (turn : f.tasks.running = some (.listener m))
    (quiet : ¬ (relay.listening = .reading ∨ relay.listening = .closing .begun)) :
    f.park.Serving m relay :=
  ⟨serving.here, serving.place, serving.isOpen, fun busy => absurd busy quiet, serving.idle,
    serving.alone, serving.attendedIn turn fun _ => id⟩

theorem Serving.stepListener (serving : f.Serving m relay)
    (turn : f.tasks.running = some (.listener m)) :
    ∃ relay', (f.stepListener m).Serving m relay' ∧
      Station.Moves (f.reading? m .turn) ⟨(f.manager m).bus, relay⟩
        ⟨((f.stepListener m).manager m).bus, relay'⟩ := by
  unfold reading? Fleet.stepListener
  rw [serving.here, if_pos turn]
  dsimp only
  cases listening : relay.listening with
  | reading =>
      rw [if_pos rfl]
      rcases got : (f.manager m).bus.read relay.reader with ⟨reading, reader⟩
      cases reading with
      | event e => exact serving.passed turn listening got (Bus.next_le_of_read got serving.place)
      | lagged n => exact serving.lost turn listening got _ _
      | nothing =>
          obtain ⟨rfl, read⟩ := Bus.read_nothing got
          exact serving.rests turn listening got (Nat.le_antisymm serving.place read)
  | idle =>
      rw [if_neg nofun]
      exact ⟨relay, serving.parks turn (by simp [listening]), .still⟩
  | closing c =>
      rw [if_neg nofun]
      cases c with
      | begun => exact serving.closed listening
      | awaiting i => exact serving.awaits turn listening
      | finished => exact ⟨relay, serving.parks turn (by simp [listening]), .still⟩

/-! ## The workers -/

/-- The fleet once the set of the subscribers had worker `i` do its next thing. -/
def worked (f : Fleet) (m : Nat) (set : Fanout) (i : Nat) : Fleet :=
  (f.modifyRelay m fun r => { r with fanout := (set.work i).1 }).publishAll m
    (set.work i).2.1.toList

theorem keepsTasks_worked (f : Fleet) (m : Nat) (set : Fanout) (i : Nat) :
    f.KeepsTasks (f.worked m set i) :=
  keepsTasks_publishAll (f.modifyRelay m fun r => { r with fanout := (set.work i).1 }) m _

/-- What worker `i` does leaves the set served, whatever becomes of the tasks at the end of its
turn. -/
theorem Serving.ofWorked {g : Fleet} (serving : f.Serving m relay)
    (turn : f.tasks.running = some (.worker m i))
    (managers : g.managers = (f.worked m relay.fanout i).managers) (kept : f.KeepsAlone g)
    (line : ∀ t ∈ (f.worked m relay.fanout i).tasks.ready, t ∈ g.tasks.ready)
    (goesOn : (relay.fanout.work i).2.2 = .again → g.IsDue (.worker m i)) :
    ∃ relay', g.Serving m relay' ∧
      Station.Moves none ⟨(f.manager m).bus, relay⟩ ⟨(g.manager m).bus, relay'⟩ := by
  obtain ⟨here, bus, woken⟩ := publishAll_relay
    (relay_modifyRelay serving.here fun r => { r with fanout := (relay.fanout.work i).1 })
    (relay.fanout.work i).2.1.toList
  rw [bus_modifyRelay serving.here] at bus
  have same : g.manager m = (f.worked m relay.fanout i).manager m := by
    unfold manager
    rw [managers]
  have here : (g.manager m).relay = _ := (congrArg Manager.relay same).trans here
  have bus : (g.manager m).bus = _ := (congrArg Manager.bus same).trans bus
  have inLine {t : Task} (other : t ≠ .worker m i) (due : f.IsDue t) : g.IsDue t := by
    have ready := due.inLine turn (by simpa using other.symm)
    exact Or.inr (line t ((keepsTasks_worked f m relay.fanout i).2 t ready))
  have isOpen := (Fanout.work_isOpen relay.fanout i).trans serving.isOpen
  have workers : (relay.fanout.work i).1.Attended fun j => g.IsDue (.worker m j) :=
    serving.attended.work i (fun j other due => inLine (by simpa using other) due) goesOn
  have moves := (Station.Moves.worked (s := ⟨(f.manager m).bus, relay⟩) (i := i)).of_bus bus
  unfold Station.publishAll Station.setFanout at moves
  dsimp only at moves here
  -- The listener is called if there is a report to read.
  cases told : (relay.fanout.work i).2.1.toList with
  | nil =>
      rw [told] at here moves bus
      exact ⟨_, ⟨here, bus ▸ serving.place, isOpen, fun busy => inLine nofun (serving.due busy),
        bus ▸ serving.idle, fun closing => not_isHeld_of kept (serving.alone closing), workers⟩,
        moves⟩
  | cons e es =>
      rw [told] at here moves bus woken
      refine ⟨_, ⟨here, ?_, isOpen.trans (offers_rouse _).symm, fun busy => ?_,
        fun idle => absurd idle (rouse_ne_idle _), fun closing => ?_, workers⟩, moves⟩
      · rw [bus, published_publishAll]
        exact Nat.le_add_right_of_le serving.place
      · rcases due_of_rouse busy with busy | idle
        · exact inLine nofun (serving.due busy)
        · refine Or.inr (line _ ?_)
          unfold worked
          rw [told]
          exact woken idle (List.cons_ne_nil e es)
      · exact not_isHeld_of kept (serving.alone ((isClosing_rouse _).symm.trans closing))

theorem Serving.stepWorker (serving : f.Serving m relay)
    (turn : f.tasks.running = some (.worker m i)) :
    ∃ relay', (f.stepWorker m i).Serving m relay' ∧
      Station.Moves none ⟨(f.manager m).bus, relay⟩
        ⟨((f.stepWorker m i).manager m).bus, relay'⟩ := by
  have alone := keepsAlone_stepWorker f m i
  have done {g : Fleet} := serving.ofWorked (g := g) turn
  have tasks := keepsTasks_worked f m relay.fanout i
  unfold Fleet.stepWorker at alone ⊢
  rw [serving.here] at alone ⊢
  dsimp only at alone ⊢
  cases pace : (relay.fanout.work i).2.2 with
  | again =>
      rw [pace] at alone done
      exact done rfl alone (fun _ => id) fun _ => Or.inl (tasks.1.trans turn)
  | waits =>
      rw [pace] at alone done
      exact done rfl alone (fun _ => id) nofun
  | «over» =>
      rw [pace] at alone done
      dsimp only at alone ⊢
      unfold workerGone at alone ⊢
      split
      · rename_i awaited
        rw [if_pos awaited] at alone
        exact done rfl alone (keepsTasks_wake _ (.listener m)).2 nofun
      · rename_i other
        rw [if_neg other] at alone
        exact done rfl alone (fun _ => id) nofun

/-! ## Every move -/

/-- Every move does one thing to a station, and leaves it so that the listener and the workers
are due where they should be. -/
theorem Serving.move (serving : f.Serving m relay) (mv : Move) :
    ∃ relay', (f.move mv).Serving m relay' ∧
      Station.Moves (f.reading? m mv) ⟨(f.manager m).bus, relay⟩
        ⟨((f.move mv).manager m).bus, relay'⟩ := by
  have kept := isHeld_move f mv
  have aside (stirs : f.Stirs m relay (f.move mv)) (silent : f.reading? m mv = none)
      (listener : mv = .turn → f.tasks.running ≠ some (.listener m))
      (workers : mv = .turn → ∀ i, f.tasks.running ≠ some (.worker m i)) :
      ∃ relay', (f.move mv).Serving m relay' ∧
        Station.Moves (f.reading? m mv) ⟨(f.manager m).bus, relay⟩
          ⟨((f.move mv).manager m).bus, relay'⟩ := by
    rw [silent]
    exact serving.stirred stirs kept (fun due => due.move listener)
      fun i due => due.move fun turn => workers turn i
  have stirs := TurnsInStep.stirs f m relay
  have first : Both (f.Stirs m relay) f f := ⟨rfl, .still rfl serving.here⟩
  cases mv with
  | release m' i times =>
      by_cases same : m' = m
      · subst same
        exact serving.release i times
      · refine aside ?_ rfl (by simp) (by simp)
        have other := manager_releaseSubscriber_ne f same i times
        exact .still (by rw [Fleet.move, other]) (by rw [Fleet.move, other, serving.here])
  | look => exact serving.look
  | turn =>
      rcases turn_cases f with ⟨t, turn, eq⟩ | ⟨idle, moved⟩
      · by_cases own : t = .listener m
        · subst own
          rw [eq]
          exact serving.stepListener turn
        · have silent : f.reading? m .turn = none := by
            unfold reading?
            rw [turn, if_neg (by simpa using own)]
          have listener : f.tasks.running ≠ some (.listener m) := by
            rw [turn]
            simpa using own
          cases t with
          | bot | wait | dismissal =>
              refine aside ?_ silent (fun _ => listener) fun _ i => by simp [turn]
              rw [eq]
              exact (stirs.stepTask first rfl).2
          | listener m' =>
              have ne : m' ≠ m := fun same => own (same ▸ rfl)
              refine aside ?_ silent (fun _ => listener) fun _ i => by simp [turn]
              have other := (passesOn_stepListener f m').others m ne
              rw [eq]
              exact .still (congrArg Manager.bus other) ((congrArg Manager.relay other).trans
                serving.here)
          | worker m' i =>
              by_cases same : m' = m
              · subst same
                rw [silent, eq]
                exact serving.stepWorker turn
              · refine aside ?_ silent (fun _ => listener) fun _ j => ?_
                · have other := (passesOn_stepWorker f m' i).others m same
                  rw [eq]
                  exact .still (congrArg Manager.bus other) ((congrArg Manager.relay other).trans
                    serving.here)
                · rw [turn]
                  simp [same]
      · have silent : f.reading? m .turn = none := by
          simp [reading?, idle]
        refine aside ?_ silent (fun _ => by simp [idle]) fun _ i => by simp [idle]
        rcases moved with eq | ⟨tasks, -, eq⟩
        · rw [eq]
          exact first.2
        · rw [eq]
          exact .still rfl serving.here
  | _ => exact aside (stirs.move first rfl).2 rfl (by simp) (by simp)

/-! ## Runs -/

theorem play_snoc (f : Fleet) (ms : List Move) (mv : Move) :
    f.play (ms ++ [mv]) = (f.play ms).move mv :=
  play_append f ms [mv]

variable {managers : List ManagerPlan} {bots : List BotPlan}

/-- At first the listener and the workers are in line. -/
theorem serving_raw (has : m < managers.length) (served : managers[m].subscribers ≠ [])
    (bots : List BotPlan) : (raw managers bots).Serving m (ManagerPlan.relay managers[m]) := by
  have due {t : Task} (mem : t ∈ managers[m].tasks m) : (raw managers bots).IsDue t := by
    refine Or.inr (Scheduler.mem_ready_wakeAll.mpr (Or.inr (List.mem_flatMap.mpr ?_)))
    refine ⟨(managers[m], m), ?_, mem⟩
    exact List.mem_zipIdx_iff_getElem?.mpr (List.getElem?_eq_getElem has)
  have tasks : managers[m].tasks m =
      (List.range managers[m].subscribers.length).map (Task.worker m) ++ [.listener m] := by
    rw [ManagerPlan.tasks, if_neg (by simpa using served)]
  have here : ((raw managers bots).manager m).relay = some (ManagerPlan.relay managers[m]) := by
    rw [manager_raw has, ManagerPlan.build, Manager.build]
    exact if_neg (by simpa using served)
  refine ⟨here, Nat.zero_le _, rfl, fun _ => due (by rw [tasks]; simp),
    (by simp [ManagerPlan.relay]), (by simp [ManagerPlan.relay, Listening.isClosing]),
    Fanout.attended_ofSubscribers fun i inside => due ?_⟩
  rw [tasks]
  simp [inside]

/-- What holds of a station at first and is kept by every move holds at every point of every
run. What is kept may depend on the moves made so far. -/
theorem serving_play (has : m < managers.length) (served : managers[m].subscribers ≠ [])
    {P : List Move → Station → Prop}
    (first : P [] ⟨((raw managers bots).manager m).bus, ManagerPlan.relay managers[m]⟩)
    (kept : ∀ {ms mv s relay'}, ((raw managers bots).play ms).Serving m s.relay →
      (((raw managers bots).play ms).manager m).bus = s.bus →
      ((raw managers bots).play (ms ++ [mv])).Serving m relay' →
      Station.Moves (((raw managers bots).play ms).reading? m mv) s
        ⟨(((raw managers bots).play (ms ++ [mv])).manager m).bus, relay'⟩ → P ms s →
      P (ms ++ [mv]) ⟨(((raw managers bots).play (ms ++ [mv])).manager m).bus, relay'⟩)
    (ms : List Move) :
    ∃ relay, ((raw managers bots).play ms).Serving m relay ∧
      P ms ⟨(((raw managers bots).play ms).manager m).bus, relay⟩ := by
  induction ms using List.reverseRecOn with
  | nil => exact ⟨_, serving_raw has served bots, first⟩
  | append_singleton ms mv ih =>
      obtain ⟨relay, serving, inv⟩ := ih
      obtain ⟨relay', serving', moves⟩ := serving.move mv
      rw [← play_snoc] at serving' moves
      exact ⟨relay', serving', kept serving rfl serving' moves inv⟩

end Fleet

end Flotilla
