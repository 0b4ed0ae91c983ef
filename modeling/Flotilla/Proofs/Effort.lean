import Flotilla.Proofs.Simulation.Waiters
import Mathlib.Algebra.GroupWithZero.Nat
import Mathlib.Data.List.Count

/-!
# What passing events on takes

`Fleet.effort` measures what was published and what the tasks that pass events on have before
them: the events to be read and those that wait for a subscriber, the panics that are still to
come, the turns taken or awaited. A report is charged for where it is caused: the report on a
refusal by the event that is refused, if that is not such a report itself, and the report on a
panic in advance, which is possible only where the handler panics in finitely many calls
(`Subscriber.PanicsFinitely`).

With that every step of a listener or a worker lowers the measure
(`Fleet.effort_stepListener_lt`, `Fleet.effort_stepWorker_lt`).
-/

namespace Flotilla

/-! ## The measure -/

/-- Only finitely many calls of the handler panic within its work. -/
def Subscriber.PanicsFinitely (s : Subscriber) : Prop :=
  ∀ payload, s.handling = .panic payload → s.panicsAt ≠ []

/-- What is charged for offering an event to so many subscribers: each may keep it in its queue,
and each worker may be woken. -/
def offerCost (k : Nat) : Nat := 5 * k

/-- What is charged for an event that is to be read for so many subscribers. A report on a
refusal causes no further reports. -/
def Event.effort (k : Nat) (e : Event) : Nat :=
  offerCost k + 1 + if e.kind = .subscriberOverflow then 0 else k * (offerCost k + 4)

/-- What is charged in advance for a panic to come: its report, and that the listener is woken
to read it. -/
def panicCost (k : Nat) : Nat := offerCost k + 4 + k * (offerCost k + 4)

/-- How many of the calls that panic are still to come. -/
def Feed.panicsLeft (f : Feed) : Nat := (f.subscriber.panicsAt.filter (f.calls ≤ ·)).length

/-- What a feed has before it, one of so many. -/
def Feed.effort (k : Nat) (f : Feed) : Nat :=
  f.queue.length + f.worker.effort + panicCost k * f.panicsLeft

/-- What a listener has before it apart from reading: when it closes the subscribers it may wake
each worker. -/
def Listening.effort (k : Nat) : Listening → Nat
  | .reading | .idle => 4 * k + 2
  | .closing .begun => 4 * k + 1
  | .closing _ => 0

/-- What a reader has not read yet, whether the ring still holds it or not. -/
def Bus.toRead (b : Bus) (r : Reader) : List Event := b.log.toList.drop r.next

/-- What a list of events is charged with. -/
def eventsEffort (k : Nat) (es : List Event) : Nat := (es.map (Event.effort k)).sum

def feedsEffort (k : Nat) (feeds : List Feed) : Nat := (feeds.map (Feed.effort k)).sum

/-- What a relay has before it. -/
def Relay.effort (b : Bus) (r : Relay) : Nat :=
  eventsEffort r.fanout.feeds.length (b.toRead r.reader) +
    feedsEffort r.fanout.feeds.length r.fanout.feeds + r.listening.effort r.fanout.feeds.length

/-- What a manager published, and what its relay has before it. -/
def Manager.effort (mgr : Manager) : Nat :=
  mgr.bus.published +
    match mgr.relay with
    | none => 0
    | some r => r.effort mgr.bus

/-- What a task that is run is charged with; one that stands in line is charged with one more.
A worker may wake the listener in its last turn. -/
def Task.effort : Task → Nat
  | .worker _ _ => 3
  | _ => 1

/-- What the tasks in line and the task being run are charged with. -/
def tasksEffort (tasks : Scheduler Task) : Nat :=
  (tasks.ready.map fun t => t.effort + 1).sum + (tasks.running.map Task.effort).getD 0

/-- What the managers of a fleet published, and what the tasks that pass events on have before
them. -/
def Fleet.effort (f : Fleet) : Nat := (f.managers.map Manager.effort).sum + tasksEffort f.tasks

/-! ## Lists changed at one place -/

/-- What a change at one place does not concern. -/
theorem map_modify_of_same {α β : Type} {g : α → β} {h : α → α} (xs : List α) (i : Nat)
    (same : ∀ x, xs[i]? = some x → g (h x) = g x) : (xs.modify i h).map g = xs.map g := by
  refine List.ext_getElem? fun j => ?_
  rw [List.getElem?_map, List.getElem?_modify, List.getElem?_map]
  cases found : xs[j]? with
  | none => rfl
  | some x =>
      refine congrArg some ?_
      show g (if i = j then h x else x) = g x
      split
      · rename_i here
        exact same x (here ▸ found)
      · rfl

theorem sum_map_modify {α : Type} (φ : α → Nat) {xs : List α} {i : Nat} {x : α} (g : α → α)
    (found : xs[i]? = some x) :
    ((xs.modify i g).map φ).sum + φ x = (xs.map φ).sum + φ (g x) := by
  induction xs generalizing i with
  | nil => cases found
  | cons y ys ih =>
      cases i with
      | zero =>
          cases found
          simp only [List.modify_zero_cons, List.map_cons, List.sum_cons]
          omega
      | succ i =>
          have rest := ih (i := i) found
          simp only [List.modify_succ_cons, List.map_cons, List.sum_cons]
          omega

theorem sum_map_set {α : Type} (φ : α → Nat) {xs : List α} {i : Nat} {x : α} (y : α)
    (found : xs[i]? = some x) : ((xs.set i y).map φ).sum + φ x = (xs.map φ).sum + φ y := by
  rw [List.set_eq_modify]
  exact sum_map_modify φ _ found

theorem le_sum_map {α : Type} (φ : α → Nat) {xs : List α} {x : α} (mem : x ∈ xs) :
    φ x ≤ (xs.map φ).sum := by
  induction xs with
  | nil => cases mem
  | cons y ys ih =>
      rw [List.map_cons, List.sum_cons]
      rcases List.mem_cons.mp mem with rfl | mem
      · exact Nat.le_add_right _ _
      · exact Nat.le_trans (ih mem) (Nat.le_add_left _ _)

/-- What is added to each of several is added to all of them together. -/
theorem sum_map_le_add {α : Type} {φ ψ : α → Nat} {c : Nat} {xs : List α}
    (each : ∀ x ∈ xs, φ x ≤ ψ x + c) : (xs.map φ).sum ≤ (xs.map ψ).sum + c * xs.length := by
  induction xs with
  | nil => exact Nat.zero_le _
  | cons x xs ih =>
      have here := each x List.mem_cons_self
      have rest := ih fun y mem => each y (List.mem_cons_of_mem x mem)
      simp only [List.map_cons, List.sum_cons, List.length_cons, Nat.mul_add, Nat.mul_one]
      omega

theorem sum_map_le {α : Type} {φ : α → Nat} {c : Nat} {xs : List α}
    (each : ∀ x ∈ xs, φ x ≤ c) : (xs.map φ).sum ≤ c * xs.length := by
  have none : (xs.map fun _ => 0).sum = 0 := by
    induction xs with
    | nil => rfl
    | cons x xs ih =>
        rw [List.map_cons, List.sum_cons, Nat.zero_add]
        exact ih fun y mem => each y (List.mem_cons_of_mem x mem)
  have each' : ∀ x ∈ xs, φ x ≤ (fun _ => 0) x + c := fun x mem => by
    rw [Nat.zero_add]
    exact each x mem
  have total := sum_map_le_add each'
  rwa [none, Nat.zero_add] at total

/-! ## Reading -/

theorem eventsEffort_append (k : Nat) (es es' : List Event) :
    eventsEffort k (es ++ es') = eventsEffort k es + eventsEffort k es' := by
  rw [eventsEffort, List.map_append, List.sum_append]
  rfl

theorem Event.one_le_effort (k : Nat) (e : Event) : 1 ≤ e.effort k := by
  unfold Event.effort
  omega

theorem Event.effort_le (k : Nat) (e : Event) : e.effort k + 3 ≤ panicCost k := by
  unfold Event.effort panicCost
  split <;> omega

theorem eventsEffort_pos {k : Nat} {es : List Event} (some : es ≠ []) : 1 ≤ eventsEffort k es := by
  cases es with
  | nil => exact absurd rfl some
  | cons e es => exact Nat.le_trans (e.one_le_effort k) (Nat.le_add_right _ _)

theorem eventsEffort_publish (k : Nat) (b : Bus) (e : Event) (r : Reader) :
    eventsEffort k ((b.publish e).toRead r) ≤ eventsEffort k (b.toRead r) + e.effort k := by
  unfold Bus.toRead
  rw [Bus.log_publish, Array.toList_push, List.drop_append, eventsEffort_append]
  refine Nat.add_le_add_left ?_ _
  cases r.next - b.log.toList.length with
  | zero => exact Nat.le_refl _
  | succ n => simp [eventsEffort]

/-- What a reader gets is what it has to read first; if it is too far behind it passes over some
of that. -/
theorem Bus.read_cases (b : Bus) (r : Reader) :
    (∃ e r', b.read r = (.event e, r') ∧ b.toRead r = e :: b.toRead r') ∨
      (∃ n r' lost, b.read r = (.lagged n, r') ∧ lost ≠ [] ∧ b.toRead r = lost ++ b.toRead r') ∨
        b.read r = (.nothing, r) := by
  unfold Bus.read Bus.toRead
  split
  · rename_i behind
    refine Or.inr (Or.inl ⟨_, _, (b.log.toList.drop r.next).take (b.oldest - r.next), rfl, ?_, ?_⟩)
    · have within : b.oldest ≤ b.log.toList.length := Nat.sub_le _ _
      intro none
      have length := congrArg List.length none
      rw [List.length_take, List.length_drop, List.length_nil] at length
      omega
    · have split := List.take_append_drop (b.oldest - r.next) (b.log.toList.drop r.next)
      rw [List.drop_drop, Nat.add_sub_cancel' (Nat.le_of_lt behind)] at split
      exact split.symm
  · split
    · rename_i e found
      refine Or.inl ⟨e, _, rfl, ?_⟩
      rw [← Array.getElem?_toList] at found
      obtain ⟨inside, rfl⟩ := List.getElem?_eq_some_iff.mp found
      exact List.drop_eq_getElem_cons inside
    · exact Or.inr (Or.inr rfl)

/-! ## Feeds -/

theorem Feed.effort_offer_le (k : Nat) (f : Feed) (e : Event) :
    (f.offer e).effort k ≤ f.effort k + 1 := by
  unfold Feed.offer
  split
  · exact Nat.le_succ _
  · have still : f.worker.rouse.effort = f.worker.effort := by cases f.worker <;> rfl
    simp only [Feed.effort, List.length_append, List.length_singleton, still]
    exact Nat.le_of_eq (by rw [Nat.add_right_comm _ 1, Nat.add_right_comm _ 1]; rfl)

theorem Feed.effort_rouse (k : Nat) (f : Feed) :
    Feed.effort k { f with worker := f.worker.rouse } = f.effort k := by
  have still : f.worker.rouse.effort = f.worker.effort := by cases f.worker <;> rfl
  simp only [Feed.effort, still]
  rfl

/-- The calls that are still to come after one more call. -/
theorem filter_succ_le (n : Nat) (calls : List Nat) :
    calls.filter (n + 1 ≤ ·) = (calls.filter (n ≤ ·)).filter (n + 1 ≤ ·) := by
  rw [List.filter_filter]
  refine List.filter_congr fun call _ => ?_
  by_cases later : n + 1 ≤ call
  · simp [later, Nat.le_of_succ_le later]
  · simp [later]

theorem panicsLeft_le (f : Feed) (e : Event) :
    Feed.panicsLeft { f with handed := f.handed.push e } ≤ f.panicsLeft := by
  unfold Feed.panicsLeft Feed.calls
  dsimp only
  rw [Array.size_push, filter_succ_le]
  exact List.length_filter_le _ _

/-- A call that panics is no longer to come once it was made. -/
theorem panicsLeft_lt {f : Feed} (e : Event) (panics : f.calls ∈ f.subscriber.panicsAt) :
    Feed.panicsLeft { f with handed := f.handed.push e } < f.panicsLeft := by
  unfold Feed.panicsLeft Feed.calls
  dsimp only
  rw [Array.size_push, filter_succ_le]
  refine List.length_filter_lt_length_iff_exists.mpr ⟨f.calls, List.mem_filter.mpr ⟨panics, ?_⟩, ?_⟩
  · exact decide_eq_true (Nat.le_refl _)
  · rw [decide_eq_true_eq]
    exact Nat.not_succ_le_self _

/-- What a report published by a worker is charged with. -/
def reportEffort (k : Nat) (report : Option Event) : Nat :=
  (report.map fun e => e.effort k + 3).getD 0

/-- Where only finitely many calls panic, one that does is among those listed. -/
theorem mem_panicsAt_of_treatment {s : Subscriber} {call : Nat} {payload : Payload}
    (finite : s.PanicsFinitely) (treated : s.treatment call = .panic payload) :
    call ∈ s.panicsAt := by
  unfold Subscriber.treatment at treated
  cases handling : s.handling with
  | panic payload' =>
      simp only [handling] at treated
      split at treated
      · rename_i on
        rw [Subscriber.panicsOn, Bool.or_eq_true, List.isEmpty_iff, List.contains_iff_mem] at on
        exact on.resolve_left (finite payload' handling)
      · cases treated
  | panicAtOnce =>
      simp only [handling] at treated
      split at treated <;> cases treated
  | record | count | block =>
      simp only [handling] at treated
      cases treated

/-- A worker whose turn goes on at once used something up. -/
def Pace.used : Pace → Nat
  | .again => 1
  | _ => 0

/-- Handing an event over uses it up, and pays for the report on a panic. -/
theorem Feed.effort_handOver {f : Feed} {e : Event} {later : List Event} (k : Nat)
    (taking : f.worker = .taking) (queue : f.queue = e :: later)
    (finite : f.subscriber.PanicsFinitely) :
    (f.handOver e later).1.effort k + reportEffort k (f.handOver e later).2.1 + 1 ≤
      f.effort k := by
  have before : f.effort k = later.length + 1 + panicCost k * f.panicsLeft := by
    rw [Feed.effort, taking, queue]
    rfl
  have cost := Nat.mul_le_mul_left (panicCost k) (panicsLeft_le f e)
  -- The feed after the call, wherever its worker is then.
  have after (worker : Worker) (kept : Array Event) (permits : Nat) (none : worker.effort = 0) :
      Feed.effort k { f with queue := later, handed := f.handed.push e, worker, kept, permits } =
        later.length + panicCost k * Feed.panicsLeft { f with handed := f.handed.push e } := by
    rw [Feed.effort, none]
    rfl
  unfold Feed.handOver
  dsimp only
  split
  · have kept := after .taking (f.kept.push e) f.permits rfl
    simp only [Feed.keep, reportEffort, kept, Option.map_none, Option.getD_none]
    omega
  · split
    · have blocked := after (.blocked e) f.kept f.permits rfl
      simp only [reportEffort, blocked, Option.map_none, Option.getD_none]
      omega
    · have kept := after .taking (f.kept.push e) (f.permits - 1) rfl
      simp only [Feed.keep, reportEffort, kept, Option.map_none, Option.getD_none]
      omega
  · rename_i payload treated
    have panics := mem_panicsAt_of_treatment finite treated
    have less := Nat.mul_le_mul_left (panicCost k) (panicsLeft_lt e panics)
    have report := Event.effort_le k (.subscriberPanicked f.subscriber.name payload.message)
    have same := after f.worker f.kept f.permits (by rw [taking]; rfl)
    simp only [reportEffort, same, Option.map_some, Option.getD_some]
    rw [Nat.mul_succ] at less
    omega
  · have dead : Feed.effort k { f with queue := [], handed := f.handed.push e, worker := .dead } =
        panicCost k * Feed.panicsLeft { f with handed := f.handed.push e } := Nat.zero_add _
    simp only [reportEffort, dead, Option.map_none, Option.getD_none]
    omega

/-- One step of a worker whose subscriber panics in finitely many calls only: what it publishes
is paid for, and if its turn goes on at once, something was used up. -/
theorem Feed.effort_work (k : Nat) (f : Feed) (isOpen : Bool)
    (finite : f.subscriber.PanicsFinitely) :
    (f.work isOpen).1.effort k + reportEffort k (f.work isOpen).2.1 +
      (f.work isOpen).2.2.used ≤ f.effort k := by
  have rests (worker : Worker) (none : worker.effort = 0) :
      Feed.effort k { f with worker } ≤ f.effort k := by
    rw [Feed.effort, Feed.effort, none]
    exact Nat.add_le_add_right (Nat.add_le_add_left (Nat.zero_le _) _) _
  unfold Feed.work
  split
  · rename_i taking
    split
    · rename_i e later queue
      refine Nat.le_trans (Nat.add_le_add_left ?_ _) (Feed.effort_handOver k taking queue finite)
      cases (f.handOver e later).2.2 <;> decide
    · split
      · exact rests .idle rfl
      · exact rests .ended rfl
  · rename_i e permitted
    have before : f.effort k = f.queue.length + 1 + panicCost k * f.panicsLeft := by
      rw [Feed.effort, permitted]
      rfl
    have kept : (f.keep e).effort k = f.queue.length + panicCost k * f.panicsLeft := rfl
    simp only [reportEffort, kept, Option.map_none, Option.getD_none, Pace.used]
    omega
  · exact Nat.le_refl _

/-! ## Sets of subscribers -/

theorem length_indicesWhere_le (s : Fanout) (p : Feed → Bool) :
    (s.indicesWhere p).length ≤ s.feeds.length := by
  refine Nat.le_trans (List.length_filterMap_le _ _) (Nat.le_of_eq ?_)
  exact List.length_zipIdx

theorem feedsEffort_offer_le (k : Nat) (s : Fanout) (e : Event) :
    feedsEffort k (s.offer e).feeds ≤ feedsEffort k s.feeds + s.feeds.length := by
  have each : ∀ f ∈ s.feeds, (Feed.effort k ∘ fun f => f.offer e) f ≤ f.effort k + 1 :=
    fun f _ => f.effort_offer_le k e
  have total := sum_map_le_add each
  rw [Nat.one_mul] at total
  unfold feedsEffort Fanout.offer
  rw [List.map_map]
  exact total

theorem feedsEffort_close (k : Nat) (s : Fanout) :
    feedsEffort k s.close.feeds = feedsEffort k s.feeds := by
  unfold feedsEffort Fanout.close
  rw [List.map_map]
  exact congrArg List.sum (List.map_congr_left fun f _ => f.effort_rouse k)

/-- The reports on the refusals of an event are paid for by it. -/
theorem eventsEffort_overflows_le (s : Fanout) (e : Event) :
    eventsEffort s.feeds.length (s.overflows e) + 3 * (s.overflows e).length +
      offerCost s.feeds.length + 1 ≤ e.effort s.feeds.length := by
  by_cases report : e.kind = .subscriberOverflow
  · have none : s.overflows e = [] :=
      List.filterMap_eq_nil_iff.mpr fun f _ => by rw [Feed.overflow?, if_pos report]
    rw [none, Event.effort, if_pos report]
    simp [eventsEffort]
  · have few : (s.overflows e).length ≤ s.feeds.length := List.length_filterMap_le _ _
    have total : eventsEffort s.feeds.length (s.overflows e) ≤
        (offerCost s.feeds.length + 1) * (s.overflows e).length := by
      refine sum_map_le fun e' mem => ?_
      obtain ⟨f, -, refused⟩ := List.mem_filterMap.mp mem
      rw [Feed.overflow?, if_neg report] at refused
      obtain ⟨refusal, -, rfl⟩ := Option.map_eq_some_iff.mp refused
      exact Nat.le_refl _
    have cost := Nat.mul_le_mul_left (offerCost s.feeds.length + 4) few
    rw [Event.effort, if_neg report, Nat.mul_comm s.feeds.length]
    simp only [Nat.add_mul] at total cost ⊢
    omega

/-- One step of a worker of a set. -/
theorem feedsEffort_work_le (k : Nat) (s : Fanout) (i : Nat)
    (finite : ∀ f ∈ s.feeds, f.subscriber.PanicsFinitely) :
    feedsEffort k (s.work i).1.feeds + reportEffort k (s.work i).2.1 +
      (s.work i).2.2.used ≤ feedsEffort k s.feeds := by
  unfold Fanout.work
  cases found : s.feeds[i]? with
  | none => exact Nat.le_refl _
  | some f =>
      have step := f.effort_work k s.isOpen (finite f (List.mem_of_getElem? found))
      have total := sum_map_set (Feed.effort k) (f.work s.isOpen).1 found
      dsimp only
      generalize f.work s.isOpen = worked at step total ⊢
      rcases worked with ⟨f', report, pace⟩
      unfold feedsEffort
      dsimp only at step total ⊢
      omega

theorem Fanout.effort_awaitFrom (s : Fanout) (i k : Nat) :
    (Listening.closing (s.awaitFrom i)).effort k = 0 := by
  unfold Fanout.awaitFrom
  split <;> rfl

/-! ## Small changes of a fleet -/

namespace Fleet

variable {f : Fleet} {m i : Nat} {relay : Relay}

theorem effort_modifyManager_le {g : Manager → Manager} {c : Nat}
    (le : (g (f.manager m)).effort ≤ (f.manager m).effort + c) :
    (f.modifyManager m g).effort ≤ f.effort + c := by
  by_cases has : f.Has m
  · have found : f.managers[m]? = some (f.manager m) := by
      rw [manager, List.getD_eq_getElem?_getD, List.getElem?_eq_getElem has]
      rfl
    have total := sum_map_modify Manager.effort g found
    unfold effort modifyManager
    dsimp only
    omega
  · have out : (f.modifyManager m g).managers = f.managers :=
      List.modify_eq_self (Nat.le_of_not_lt has)
    unfold effort
    rw [out]
    exact Nat.le_add_right _ _

/-- What changes in a relay changes in the fleet. -/
theorem effort_modifyRelay (here : (f.manager m).relay = some relay) (g : Relay → Relay) :
    (f.modifyRelay m g).effort + relay.effort (f.manager m).bus =
      f.effort + (g relay).effort (f.manager m).bus := by
  have has := has_of_relay here
  have found : f.managers[m]? = some (f.manager m) := by
    rw [manager, List.getD_eq_getElem?_getD, List.getElem?_eq_getElem has]
    rfl
  have total := sum_map_modify Manager.effort (fun mgr => mgr.modifyRelay g) found
  have before : (f.manager m).effort =
      (f.manager m).bus.published + relay.effort (f.manager m).bus := by
    rw [Manager.effort, here]
  have after : ((f.manager m).modifyRelay g).effort =
      (f.manager m).bus.published + (g relay).effort (f.manager m).bus := by
    rw [Manager.effort, Manager.modifyRelay, here]
    rfl
  rw [before, after] at total
  unfold effort modifyRelay modifyManager
  dsimp only
  omega

theorem tasksEffort_wake_le (tasks : Scheduler Task) (t : Task) :
    tasksEffort (tasks.wake t) ≤ tasksEffort tasks + (t.effort + 1) := by
  unfold Scheduler.wake
  split
  · exact Nat.le_add_right _ _
  · simp only [tasksEffort, List.map_append, List.map_singleton, List.sum_append,
      List.sum_singleton]
    omega

theorem effort_wake_le (f : Fleet) (t : Task) : (f.wake t).effort ≤ f.effort + (t.effort + 1) := by
  have le := tasksEffort_wake_le f.tasks t
  unfold effort wake
  dsimp only
  omega

theorem effort_wakeAll_worker_le (f : Fleet) (m : Nat) (is : List Nat) :
    (f.wakeAll (is.map (Task.worker m))).effort ≤ f.effort + 4 * is.length := by
  induction is generalizing f with
  | nil => exact Nat.le_refl _
  | cons i is ih =>
      have first := f.effort_wake_le (.worker m i)
      have rest := ih (f.wake (.worker m i))
      rw [List.map_cons, wakeAll_cons, List.length_cons]
      simp only [Task.effort] at first
      omega

theorem effort_park {t : Task} (turn : f.tasks.running = some t) :
    f.park.effort + t.effort = f.effort := by
  unfold effort park tasksEffort Scheduler.park
  rw [turn]
  exact Nat.add_assoc _ _ _

theorem effort_wakeListener_le (f : Fleet) (m : Nat) :
    (f.wakeListener m).effort ≤ f.effort + 2 := by
  unfold wakeListener
  split
  · rename_i idle
    refine Nat.le_trans (effort_wake_le _ _) (Nat.add_le_add_right ?_ 2)
    refine effort_modifyManager_le (c := 0) (Nat.le_of_eq ?_)
    unfold Manager.listenerIsIdle at idle
    unfold Manager.effort Manager.modifyRelay
    cases relay : (f.manager m).relay with
    | none => rfl
    | some r =>
        rw [relay] at idle
        have idle : r.listening = .idle := eq_of_beq idle
        simp [Relay.effort, idle, Listening.effort]
  · exact Nat.le_add_right _ _

/-- An event that is published is charged for, and so is the listener it may wake. -/
theorem effort_publish_le (f : Fleet) (m : Nat) (e : Event) :
    (f.publish m e).effort ≤ f.effort + (e.effort (f.subscribers m).length + 3) := by
  refine Nat.le_trans (effort_wakeListener_le _ m) ?_
  rw [show e.effort (f.subscribers m).length + 3 = e.effort (f.subscribers m).length + 1 + 2 from
    rfl, ← Nat.add_assoc]
  refine Nat.add_le_add_right (effort_modifyManager_le ?_) 2
  unfold subscribers Manager.subscribers Manager.effort
  dsimp only
  rw [Bus.published_publish]
  cases (f.manager m).relay with
  | none => simp only [Nat.add_zero, Nat.le_add_left, Nat.add_le_add_iff_left]
  | some r =>
      have published := eventsEffort_publish r.fanout.feeds.length (f.manager m).bus e r.reader
      simp only [Relay.effort, Relay.subscribers, List.length_map]
      omega

theorem effort_publishAll_le (f : Fleet) (m : Nat) (es : List Event) :
    (f.publishAll m es).effort ≤
      f.effort + (eventsEffort (f.subscribers m).length es + 3 * es.length) := by
  induction es generalizing f with
  | nil => exact Nat.le_refl _
  | cons e es ih =>
      have first := f.effort_publish_le m e
      have rest := ih (f.publish m e)
      rw [(steady_publish f m e).subscribers m] at rest
      simp only [eventsEffort, List.map_cons, List.sum_cons, List.length_cons] at rest ⊢
      show ((f.publish m e).publishAll m es).effort ≤ _
      omega

theorem length_subscribers (here : (f.manager m).relay = some relay) :
    (f.subscribers m).length = relay.fanout.feeds.length := by
  unfold subscribers Manager.subscribers
  rw [here]
  exact List.length_map _

/-! ## Turns -/

theorem effort_setListening (b : Bus) (relay : Relay) (next : Listening) :
    Relay.effort b { relay with listening := next } +
        relay.listening.effort relay.fanout.feeds.length =
      relay.effort b + next.effort relay.fanout.feeds.length := by
  simp only [Relay.effort]
  omega

/-- Where nothing is left to read the listener waits, or sets about to close the subscribers. -/
theorem effort_listenerRests_lt (turn : f.tasks.running = some (.listener m))
    (here : (f.manager m).relay = some relay) (reads : relay.listening = .reading) :
    (f.listenerRests m).effort < f.effort := by
  have changed (next : Listening) := effort_modifyRelay here fun r => { r with listening := next }
  have set (next : Listening) := effort_setListening (f.manager m).bus relay next
  rw [reads] at set
  unfold listenerRests
  split
  · have parked := effort_park (f := f.modifyRelay m fun r => { r with listening := .idle }) turn
    have changed := changed .idle
    have set := set .idle
    simp only [Listening.effort, Task.effort] at set parked
    omega
  · have changed := changed (.closing .begun)
    have set := set (.closing .begun)
    simp only [Listening.effort] at set
    omega

/-- An event that is delivered pays for what it causes. -/
theorem effort_deliver_lt (here : (f.manager m).relay = some relay) (e : Event) :
    (f.deliver m relay.fanout e).effort < f.effort + e.effort relay.fanout.feeds.length := by
  have offered := effort_modifyRelay here fun r => { r with fanout := relay.fanout.offer e }
  have there := relay_modifyRelay here fun r => { r with fanout := relay.fanout.offer e }
  have feeds := feedsEffort_offer_le relay.fanout.feeds.length relay.fanout e
  have few : (relay.fanout.wokenByOffer).length ≤ relay.fanout.feeds.length :=
    length_indicesWhere_le _ _
  have paid := eventsEffort_overflows_le relay.fanout e
  unfold deliver
  dsimp only
  generalize (f.modifyRelay m fun r => { r with fanout := relay.fanout.offer e }) = g
    at offered there ⊢
  have woken := effort_wakeAll_worker_le g m relay.fanout.wokenByOffer
  have told := effort_publishAll_le (g.wakeAll (relay.fanout.wokenByOffer.map (Task.worker m))) m
    (relay.fanout.overflows e)
  have same : ((g.wakeAll (relay.fanout.wokenByOffer.map (Task.worker m))).subscribers m).length =
      relay.fanout.feeds.length :=
    (length_subscribers there).trans (Fanout.length_feeds_offer _ _)
  rw [same] at told
  simp only [Relay.effort, Fanout.length_feeds_offer, offerCost] at offered paid
  omega

/-- Reading an event pays for passing it on, and passing over events costs nothing. -/
theorem effort_stepListener_lt_of_reading (turn : f.tasks.running = some (.listener m))
    (here : (f.manager m).relay = some relay) (reads : relay.listening = .reading) :
    (f.stepListener m).effort < f.effort := by
  have read (r' : Reader) := effort_modifyRelay here fun r => { r with reader := r' }
  unfold stepListener
  rw [here]
  dsimp only
  rw [reads]
  dsimp only
  rcases (f.manager m).bus.read_cases relay.reader with
    ⟨e, r', got, rest⟩ | ⟨n, r', lost, got, some, rest⟩ | got
  · rw [got]
    have delivered := effort_deliver_lt (relay_modifyRelay here fun r =>
      { r with reader := r' }) e
    have read := read r'
    simp only [Relay.effort, rest, eventsEffort, List.map_cons, List.sum_cons] at read
    dsimp only at delivered ⊢
    omega
  · rw [got]
    have read := read r'
    have pos := eventsEffort_pos (k := relay.fanout.feeds.length) some
    simp only [Relay.effort, rest, eventsEffort_append] at read
    show (f.modifyRelay m fun r => { r with reader := r' }).effort < f.effort
    omega
  · rw [got]
    have read : (f.modifyRelay m fun r => { r with reader := relay.reader }).effort +
        relay.effort (f.manager m).bus = f.effort + relay.effort (f.manager m).bus :=
      read relay.reader
    have rested := effort_listenerRests_lt (f := f.modifyRelay m fun r =>
      { r with reader := relay.reader }) turn (relay_modifyRelay here _) reads
    dsimp only
    omega

/-- Closing the subscribers pays for waking their workers. -/
theorem effort_stepListener_lt_of_begun (here : (f.manager m).relay = some relay)
    (begun : relay.listening = .closing .begun) : (f.stepListener m).effort < f.effort := by
  have closed := effort_modifyRelay here fun r =>
    { r with fanout := r.fanout.close, listening := .closing (.awaiting 0) }
  have few : (relay.fanout.wokenByClose).length ≤ relay.fanout.feeds.length :=
    length_indicesWhere_le _ _
  have length : relay.fanout.close.feeds.length = relay.fanout.feeds.length :=
    List.length_map _
  simp only [Relay.effort, length, feedsEffort_close, begun, Listening.effort] at closed
  unfold stepListener
  rw [here]
  dsimp only
  rw [begun]
  dsimp only
  generalize (f.modifyRelay m fun r =>
    { r with fanout := r.fanout.close, listening := .closing (.awaiting 0) }) = g at closed ⊢
  have woken := effort_wakeAll_worker_le g m relay.fanout.wokenByClose
  omega

theorem effort_stepListener_lt (turn : f.tasks.running = some (.listener m)) :
    (f.stepListener m).effort < f.effort := by
  have parks {g : Fleet} (le : g.effort ≤ f.effort)
      (still : g.tasks.running = f.tasks.running) : g.park.effort < f.effort := by
    have parked := effort_park (still.trans turn)
    simp only [Task.effort] at parked
    omega
  cases here : (f.manager m).relay with
  | none =>
      rw [stepListener, here]
      exact parks (Nat.le_refl _) rfl
  | some relay =>
      cases listening : relay.listening with
      | reading => exact effort_stepListener_lt_of_reading turn here listening
      | idle =>
          rw [stepListener, here]
          dsimp only
          rw [listening]
          exact parks (Nat.le_refl _) rfl
      | closing c =>
          cases c with
          | begun => exact effort_stepListener_lt_of_begun here listening
          | awaiting i =>
              have moved := effort_modifyRelay here fun r =>
                { r with listening := .closing (relay.fanout.awaitFrom i) }
              have set := effort_setListening (f.manager m).bus relay
                (.closing (relay.fanout.awaitFrom i))
              rw [Fanout.effort_awaitFrom] at set
              rw [stepListener, here]
              dsimp only
              rw [listening]
              refine parks (g := f.modifyRelay m fun r =>
                { r with listening := .closing (relay.fanout.awaitFrom i) }) ?_ rfl
              omega
          | finished =>
              rw [stepListener, here]
              dsimp only
              rw [listening]
              exact parks (Nat.le_refl _) rfl

/-- One step of a worker uses something up, its turn at least, if it is over. -/
theorem effort_stepWorker_lt (turn : f.tasks.running = some (.worker m i))
    (finite : ∀ s ∈ f.subscribers m, s.PanicsFinitely) :
    (f.stepWorker m i).effort < f.effort := by
  have parks {g : Fleet} (le : g.effort ≤ f.effort + 2)
      (still : g.tasks.running = f.tasks.running) : g.park.effort < f.effort := by
    have parked := effort_park (still.trans turn)
    simp only [Task.effort] at parked
    omega
  unfold stepWorker
  cases here : (f.manager m).relay with
  | none => exact parks (Nat.le_add_right _ _) rfl
  | some relay =>
      have feeds : ∀ feed ∈ relay.fanout.feeds, feed.subscriber.PanicsFinitely := by
        intro feed mem
        refine finite _ ?_
        unfold subscribers Manager.subscribers
        rw [here]
        exact List.mem_map_of_mem mem
      have step := feedsEffort_work_le relay.fanout.feeds.length relay.fanout i feeds
      have length : (relay.fanout.work i).1.feeds.length = relay.fanout.feeds.length := by
        have same := congrArg List.length (Fanout.subscribers_work relay.fanout i)
        rwa [List.length_map, List.length_map] at same
      dsimp only
      generalize relay.fanout.work i = worked at step length ⊢
      rcases worked with ⟨fanout, report, pace⟩
      dsimp only at step length ⊢
      have changed := effort_modifyRelay here fun r => { r with fanout }
      have there := length_subscribers (relay_modifyRelay here fun r => { r with fanout })
      have told := effort_publishAll_le (f.modifyRelay m fun r => { r with fanout }) m
        report.toList
      have still := running_publishAll (f.modifyRelay m fun r => { r with fanout }) m
        report.toList
      rw [there] at told
      have cost : eventsEffort relay.fanout.feeds.length report.toList +
          3 * report.toList.length = reportEffort relay.fanout.feeds.length report := by
        cases report <;> rfl
      simp only [Relay.effort, length] at changed told
      generalize (f.modifyRelay m fun r => { r with fanout }).publishAll m report.toList = g
        at told still ⊢
      have used : g.effort + pace.used ≤ f.effort := by omega
      cases pace with
      | again => exact used
      | waits => exact parks (Nat.le_trans used (Nat.le_add_right _ _)) still
      | «over» =>
          dsimp only
          unfold workerGone
          split
          · have woken := g.effort_wake_le (.listener m)
            refine parks ?_ ((Scheduler.running_wake _ _).trans still)
            simp only [Task.effort, Pace.used] at woken used
            omega
          · exact parks (Nat.le_trans used (Nat.le_add_right _ _)) still

end Fleet

end Flotilla
