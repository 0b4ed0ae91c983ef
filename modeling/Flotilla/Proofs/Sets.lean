import Flotilla.Proofs.Feeds
import Flotilla.Subscriber.Session

/-!
# Sets of subscribers at work

A session with a set of subscribers is cut into moves: an event is offered once, permits are
added, somebody begins to close the set or looks, or a task has one step of its turn. What the
commands of a session do is done by moves (`after_eq_play`), and `Moves` says once what each of
them makes of a session.

At every point of every run a worker is due wherever something is left for it to do
(`tended_play`), one thing happens to a feed in each move (`exists_feed_move`), and the tasks come
to rest whatever the handlers do (`settles_in_time`): a set does not read the bus it reports on.
-/

namespace Flotilla

/-! ## What a line is charged with -/

namespace Scheduler

variable {τ : Type} {s s' : Scheduler τ} {t : τ}

theorem weight_eq (φ : τ → Nat) (s : Scheduler τ) :
    s.weight φ = (s.ready.map fun t => φ t + 1).sum + (s.running.map φ).getD 0 := by
  rw [weight, List.sum_eq_foldr, List.foldr_map]

theorem weight_wake_le [DecidableEq τ] (φ : τ → Nat) (s : Scheduler τ) (t : τ) :
    (s.wake t).weight φ ≤ s.weight φ + (φ t + 1) := by
  unfold wake
  split
  · exact Nat.le_add_right _ _
  · simp only [weight_eq, List.map_append, List.map_singleton, List.sum_append, List.sum_singleton]
    omega

theorem weight_wakeAll_le [DecidableEq τ] (φ : τ → Nat) (s : Scheduler τ) (ts : List τ) :
    (s.wakeAll ts).weight φ ≤ s.weight φ + (ts.map fun t => φ t + 1).sum := by
  induction ts generalizing s with
  | nil => exact Nat.le_refl _
  | cons t ts ih =>
      have first := weight_wake_le φ s t
      have rest := ih (s.wake t)
      show ((s.wake t).wakeAll ts).weight φ ≤ _
      rw [List.map_cons, List.sum_cons]
      omega

theorem weight_park (φ : τ → Nat) (turn : s.running = some t) :
    s.park.weight φ + φ t = s.weight φ := by
  simp [weight_eq, park, turn]

theorem weight_of_next? (φ : τ → Nat) (next : s.next? = some s') (idle : s.running = none) :
    s'.weight φ + 1 = s.weight φ := by
  obtain ⟨t, first, turn⟩ := exists_of_next? next
  simp only [weight_eq, first, turn, idle, List.map_cons, List.sum_cons, Option.map_some,
    Option.map_none, Option.getD_some, Option.getD_none]
  omega

end Scheduler

/-- A system whose steps lower a measure comes to rest. -/
theorem runToRest_of_lt {σ : Type} {step? : σ → Option σ} (measure : σ → Nat)
    (lowers : ∀ s s', step? s = some s' → measure s' < measure s) {n : Nat} {s : σ}
    (enough : measure s ≤ n) : step? (runToRest step? n s) = none := by
  induction n generalizing s with
  | zero =>
      cases step : step? s with
      | none => exact step
      | some s' =>
          have less := lowers s s' step
          omega
  | succ n ih =>
      rw [runToRest]
      cases step : step? s with
      | none => exact step
      | some s' =>
          have less := lowers s s' step
          exact ih (by omega)

/-! ## What is left to be done -/

/-- A worker whose turn goes on at once used something up. -/
theorem Feed.left_work (f : Feed) (isOpen : Bool) :
    (f.work isOpen).1.left + (f.work isOpen).2.2.used ≤ f.left := by
  unfold Feed.work
  split
  · rename_i taking
    split
    · rename_i e later queue
      have before : f.left = later.length + 1 := by simp [left, taking, queue, Worker.effort]
      rw [before]
      unfold handOver
      dsimp only
      split
      · simp [left, keep, Worker.effort, Pace.used]
      · split
        · simp [left, Worker.effort, Pace.used]
        · simp [left, keep, Worker.effort, Pace.used]
      · simp [left, taking, Worker.effort, Pace.used]
      · simp [left, Worker.effort, Pace.used]
    · split <;> simp [left, Worker.effort, Pace.used]
  · rename_i permitted
    simp [left, keep, permitted, Worker.effort, Pace.used]
  · exact Nat.le_refl _

namespace Fanout

theorem left_eq (s : Fanout) : s.left = (s.feeds.map Feed.left).sum := by
  rw [left, List.sum_eq_foldr, List.foldr_map]

theorem left_work (s : Fanout) (i : Nat) :
    (s.work i).1.left + (s.work i).2.2.used ≤ s.left := by
  unfold work
  cases found : s.feeds[i]? with
  | none => exact Nat.le_refl _
  | some f =>
      have step := f.left_work s.isOpen
      have total := sum_map_set Feed.left (f.work s.isOpen).1 found
      dsimp only
      generalize f.work s.isOpen = worked at step total ⊢
      rcases worked with ⟨f', report, pace⟩
      rw [left_eq, left_eq]
      dsimp only at step total ⊢
      omega

theorem left_close (s : Fanout) : s.close.left = s.left := by
  rw [left_eq, left_eq, close]
  dsimp only
  rw [List.map_map]
  refine congrArg List.sum (List.map_congr_left fun f _ => ?_)
  have still : f.worker.rouse.effort = f.worker.effort := by cases f.worker <;> rfl
  simp [Feed.left, still]

end Fanout

namespace Fanout.Session

/-! ## Moves -/

/-- One thing that happens to a session. -/
inductive Move where
  /-- An event is offered to the set, if nobody closes it. -/
  | emit (e : Event)
  | release (subscriber times : Nat)
  /-- Somebody begins to close the set, if nobody does yet. -/
  | close
  /-- Somebody reads the bus and looks at the subscribers. -/
  | look
  /-- One step of the task being run, or the first task in line gets its turn. -/
  | turn

/-- What a move does. -/
def move (s : Session) : Move → Session
  | .emit e => if s.closing.isSome then s else s.emit e
  | .release i times => (s.perform (.release i times)).1
  | .close =>
    if s.closing.isSome then s
    else { s with closing := some .begun, tasks := s.tasks.wake .closer }
  | .look => { s with reader := (s.bus.drain s.reader).2, fanout := s.fanout.look }
  | .turn => s.step?.getD s

/-- Makes moves in order. -/
def play (s : Session) (ms : List Move) : Session := ms.foldl move s

/-- What is noted of the moves of a run, in order. -/
def record {α : Type} (what : Session → Move → List α) (s : Session) (ms : List Move) : List α :=
  noted move what s ms

/-- A set of subscribers before anything happened, its workers in line. -/
def raw (subscribers : List Subscriber) (busCapacity : Nat) : Session where
  fanout := .ofSubscribers subscribers
  bus := .ofCapacity busCapacity
  reader := (Bus.ofCapacity busCapacity).subscribe
  tasks := (Scheduler.empty : Scheduler Task).wakeAll
    ((List.range subscribers.length).map Task.worker)

/-- What commands carried out in order make of a session. -/
def after (s : Session) (cs : List Command) : Session := cs.foldl (fun s c => (s.observe c).1) s

variable {s : Session} {i : Nat} {feed : Feed}

theorem feed_raw {subscribers : List Subscriber} {s : Subscriber} (planned : subscribers[i]? = some s)
    (busCapacity : Nat) :
    (raw subscribers busCapacity).fanout.feeds[i]? = some { subscriber := s } := by
  show (subscribers.map fun s : Subscriber => ({ subscriber := s } : Feed))[i]? = _
  rw [List.getElem?_map, planned]
  rfl

theorem play_append (s : Session) (ms ms' : List Move) :
    s.play (ms ++ ms') = (s.play ms).play ms' :=
  List.foldl_append

theorem play_snoc (s : Session) (ms : List Move) (mv : Move) :
    s.play (ms ++ [mv]) = (s.play ms).move mv :=
  play_append s ms [mv]

theorem record_append {α : Type} (what : Session → Move → List α) (s : Session)
    (ms ms' : List Move) :
    s.record what (ms ++ ms') = s.record what ms ++ (s.play ms).record what ms' :=
  noted_append move what s ms ms'

theorem record_snoc {α : Type} (what : Session → Move → List α) (s : Session) (ms : List Move)
    (mv : Move) : s.record what (ms ++ [mv]) = s.record what ms ++ what (s.play ms) mv :=
  noted_snoc move what s ms mv

theorem move_turn {s' : Session} (step : s.step? = some s') : s.move .turn = s' :=
  congrArg (fun o : Option Session => o.getD s) step

theorem move_turn_of_none (stuck : s.step? = none) : s.move .turn = s :=
  congrArg (fun o : Option Session => o.getD s) stuck

/-- One step of whichever task can go on. -/
theorem step_cases {s' : Session} (step : s.step? = some s') :
    (∃ i, s.tasks.running = some (.worker i) ∧ s' = s.work i) ∨
      s.tasks.running = some .closer ∧ s' = s.close ∨
        s.tasks.running = none ∧ ∃ tasks, s.tasks.next? = some tasks ∧ s' = { s with tasks } := by
  unfold step? at step
  cases turn : s.tasks.running with
  | some t =>
      rw [turn] at step
      cases t with
      | worker i => exact Or.inl ⟨i, rfl, (Option.some.inj step).symm⟩
      | closer => exact Or.inr (Or.inl ⟨rfl, (Option.some.inj step).symm⟩)
  | none =>
      rw [turn] at step
      obtain ⟨tasks, next, rfl⟩ := Option.map_eq_some_iff.mp step
      exact Or.inr (Or.inr ⟨rfl, tasks, next, rfl⟩)

/-- Where no step can be taken no task can go on. -/
theorem isSettled_of_step? (stuck : s.step? = none) : s.tasks.isSettled = true := by
  unfold step? at stuck
  cases turn : s.tasks.running with
  | some t =>
      rw [turn] at stuck
      cases t <;> cases stuck
  | none =>
      rw [turn] at stuck
      have line := Scheduler.next?_eq_none_iff.mp (Option.map_eq_none_iff.mp stuck)
      simp [Scheduler.isSettled, turn, line]

theorem move_emit (e : Event) (isOpen : s.closing = none) : s.move (.emit e) = s.emit e := by
  simp [move, isOpen]

theorem move_emit_of_closing (e : Event) (closing : s.closing.isSome = true) :
    s.move (.emit e) = s :=
  if_pos closing

theorem move_close (isOpen : s.closing = none) :
    s.move .close = { s with closing := some .begun, tasks := s.tasks.wake .closer } := by
  simp [move, isOpen]

/-- What each move makes of a session. -/
inductive Moves (s : Session) : Move → Session → Prop
  | offered (e : Event) (isOpen : s.closing = none) : s.Moves (.emit e) (s.emit e)
  | unoffered (e : Event) (closing : s.closing.isSome = true) : s.Moves (.emit e) s
  | released (i times : Nat) : s.Moves (.release i times) (s.move (.release i times))
  | begun (isOpen : s.closing = none) :
      s.Moves .close { s with closing := some .begun, tasks := s.tasks.wake .closer }
  | unbegun (closing : s.closing.isSome = true) : s.Moves .close s
  | looked : s.Moves .look (s.move .look)
  | worked (i : Nat) (turn : s.tasks.running = some (.worker i)) : s.Moves .turn (s.work i)
  | closed (turn : s.tasks.running = some .closer) : s.Moves .turn s.close
  /-- The first task in line gets its turn. -/
  | taken (idle : s.tasks.running = none) (tasks : Scheduler Task)
      (next : s.tasks.next? = some tasks) : s.Moves .turn { s with tasks }
  /-- No task can go on. -/
  | rested (idle : s.tasks.running = none) : s.Moves .turn s

theorem moves (s : Session) (mv : Move) : s.Moves mv (s.move mv) := by
  cases mv with
  | emit e =>
      cases closing : s.closing with
      | none =>
          rw [move_emit e closing]
          exact .offered e closing
      | some c =>
          have begun : s.closing.isSome = true := Option.isSome_of_eq_some closing
          rw [move_emit_of_closing e begun]
          exact .unoffered e begun
  | release i times => exact .released i times
  | close =>
      cases closing : s.closing with
      | none =>
          rw [move_close closing]
          exact .begun closing
      | some c =>
          have begun : s.closing.isSome = true := Option.isSome_of_eq_some closing
          rw [show s.move .close = s from if_pos begun]
          exact .unbegun begun
  | look => exact .looked
  | turn =>
      cases step : s.step? with
      | none =>
          have settled := isSettled_of_step? step
          simp only [Scheduler.isSettled, Bool.and_eq_true, Option.isNone_iff_eq_none] at settled
          rw [move_turn_of_none step]
          exact .rested settled.2
      | some s' =>
          rw [move_turn step]
          rcases step_cases step with ⟨i, turn, rfl⟩ | ⟨turn, rfl⟩ | ⟨idle, tasks, next, rfl⟩
          · exact .worked i turn
          · exact .closed turn
          · exact .taken idle tasks next

/-! ## Sessions are made of moves -/

/-- The turns after which no task can go on. -/
def settling (s : Session) : List Move := List.replicate s.left .turn

/-- The moves that a command consists of. -/
def movesOf (s : Session) : Command → List Move
  | .emit e times => List.replicate times (.emit e)
  | .release i times => [.release i times]
  | .settle => s.settling
  | .shutdown => if s.closing.isSome then [] else .close :: (s.move .close).settling
  | .unknown => []

/-- The moves that commands one after another consist of, somebody looking after each. -/
def sessionMoves (s : Session) : List Command → List Move
  | [] => []
  | c :: cs => s.movesOf c ++ .look :: sessionMoves (s.observe c).1 cs

theorem runToRest_eq_play (n : Nat) (s : Session) :
    runToRest step? n s = s.play (List.replicate n .turn) :=
  runToRest_eq_foldl (fun _ => rfl) n s

theorem settle_eq_play (s : Session) : s.settle = s.play s.settling := runToRest_eq_play s.left s

theorem start_eq_play (subscribers : List Subscriber) (busCapacity : Nat) :
    start subscribers busCapacity =
      (raw subscribers busCapacity).play (raw subscribers busCapacity).settling :=
  settle_eq_play _

theorem play_emit_of_closing {c : Closing} (e : Event) (n : Nat) (closing : s.closing = some c) :
    s.play (List.replicate n (.emit e)) = s := by
  have still := move_emit_of_closing e (Option.isSome_of_eq_some closing)
  induction n with
  | zero => rfl
  | succ n ih => exact (congrArg (·.play (List.replicate n (.emit e))) still).trans ih

theorem emitTimes_eq_play (e : Event) (n : Nat) (isOpen : s.closing = none) :
    s.emitTimes e n = s.play (List.replicate n (.emit e)) := by
  induction n generalizing s with
  | zero => rfl
  | succ n ih =>
      show (s.emit e).emitTimes e n = (s.move (.emit e)).play (List.replicate n (.emit e))
      rw [move_emit e isOpen]
      exact ih isOpen

theorem perform_eq_play (s : Session) (c : Command) : (s.perform c).1 = s.play (s.movesOf c) := by
  cases c with
  | emit e times =>
      unfold perform movesOf
      cases closing : s.closing with
      | none => exact emitTimes_eq_play e times closing
      | some c => exact (play_emit_of_closing e times closing).symm
  | release i times => rfl
  | settle => exact settle_eq_play s
  | shutdown =>
      unfold perform movesOf
      cases closing : s.closing with
      | none =>
          show settle _ = (s.move .close).play (s.move .close).settling
          rw [← settle_eq_play, move_close closing]
      | some c => rfl
  | unknown => rfl

theorem observe_eq_play (s : Session) (c : Command) :
    (s.observe c).1 = s.play (s.movesOf c ++ [.look]) := by
  rw [play_append, ← perform_eq_play]
  rfl

/-- What the commands of a session do is done by moves. -/
theorem after_eq_play (s : Session) (cs : List Command) : s.after cs = s.play (s.sessionMoves cs) := by
  induction cs generalizing s with
  | nil => rfl
  | cons c cs ih =>
      show (s.observe c).1.after cs = s.play (s.movesOf c ++ .look :: _)
      rw [ih, List.append_cons, play_append, ← observe_eq_play]

/-! ## What happens to a feed -/

/-- The event that is offered to the subscribers in a move. -/
def offered? (s : Session) : Move → Option Event
  | .emit e => if s.closing.isSome then none else some e
  | _ => none

/-- The report that a worker publishes in a move. -/
def report? (i : Nat) (s : Session) : Move → Option Event
  | .turn => if s.tasks.running = some (.worker i) then (s.fanout.work i).2.1 else none
  | _ => none

/-- A turn of a worker concerns the feeds, the bus and the line of tasks. -/
theorem exists_tasks_work (s : Session) (i : Nat) : ∃ tasks, s.work i =
    { s with
      fanout := (s.fanout.work i).1
      bus := s.bus.publishAll (s.fanout.work i).2.1.toList
      tasks } := by
  unfold work
  dsimp only
  split
  · exact ⟨_, rfl⟩
  · exact ⟨_, rfl⟩
  · unfold workerGone
    dsimp only
    split <;> exact ⟨_, rfl⟩

theorem fanout_work (s : Session) (i : Nat) : (s.work i).fanout = (s.fanout.work i).1 := by
  obtain ⟨tasks, eq⟩ := s.exists_tasks_work i
  rw [eq]

theorem bus_work (s : Session) (i : Nat) :
    (s.work i).bus = s.bus.publishAll (s.fanout.work i).2.1.toList := by
  obtain ⟨tasks, eq⟩ := s.exists_tasks_work i
  rw [eq]

theorem closing_work (s : Session) (i : Nat) : (s.work i).closing = s.closing := by
  obtain ⟨tasks, eq⟩ := s.exists_tasks_work i
  rw [eq]

/-- One thing happens to a feed in each move. -/
theorem exists_feed_move (found : s.fanout.feeds[i]? = some feed) (mv : Move) :
    ∃ feed', (s.move mv).fanout.feeds[i]? = some feed' ∧
      feed.Moves (s.offered? mv) (s.report? i mv) feed' := by
  have same : feed.Moves none none feed := .kept rfl rfl rfl .rfl id
  have moves := s.moves mv
  generalize s.move mv = s' at moves ⊢
  cases moves with
  | offered e isOpen =>
      have told : s.offered? (.emit e) = some e := by simp [offered?, isOpen]
      rw [told]
      refine ⟨feed.offer e, ?_, .offered e⟩
      show (s.fanout.offer e).feeds[i]? = _
      rw [Fanout.getElem?_feeds_offer, found]
      rfl
  | unoffered e closing =>
      have told : s.offered? (.emit e) = none := if_pos closing
      rw [told]
      exact ⟨feed, found, same⟩
  | released j times =>
      show ∃ feed', (s.fanout.feeds.modify j fun f => f.releaseTimes times)[i]? = _ ∧ _
      rw [List.getElem?_modify, found]
      by_cases own : j = i
      · exact ⟨_, by simp [own], feed.moves_releaseTimes times⟩
      · exact ⟨feed, by simp [own], same⟩
  | begun | unbegun => exact ⟨feed, found, same⟩
  | looked =>
      refine ⟨_, ?_, feed.moves_look⟩
      show (s.fanout.feeds.map Feed.look)[i]? = _
      rw [List.getElem?_map, found]
      rfl
  | worked j turn =>
      rw [report?, turn, fanout_work]
      by_cases own : j = i
      · subst own
        rw [if_pos rfl, Fanout.work_self found]
        refine ⟨_, ?_, .worked _⟩
        exact List.getElem?_set_self (List.getElem?_eq_some_iff.mp found).choose
      · rw [if_neg (by simpa using own), (s.fanout.work_ne own).1]
        exact ⟨feed, found, same⟩
  | closed turn =>
      rw [report?, turn, if_neg (by simp)]
      unfold Session.close
      split
      · refine ⟨_, ?_, feed.moves_rouse⟩
        show (s.fanout.feeds.map fun f : Feed => { f with worker := f.worker.rouse })[i]? = _
        rw [List.getElem?_map, found]
        rfl
      · exact ⟨feed, found, same⟩
      · exact ⟨feed, found, same⟩
  | taken idle | rested idle =>
      rw [report?, idle, if_neg (by simp)]
      exact ⟨feed, found, same⟩

/-! ## Attended queues -/

/-- Events are offered only while the set is open, and the workers are due wherever something is
left for them to do. -/
structure Tended (s : Session) : Prop where
  isOpen : s.closing = none ∨ s.closing = some .begun → s.fanout.isOpen = true
  workers : ∀ i (feed : Feed), s.fanout.feeds[i]? = some feed →
    feed.Attended s.fanout.isOpen (s.tasks.IsDue (.worker i))

theorem mem_map_worker {is : List Nat} (mem : i ∈ is) : Task.worker i ∈ is.map Task.worker :=
  List.mem_map_of_mem mem

theorem Tended.attended (tended : s.Tended) :
    s.fanout.Attended fun i => s.tasks.IsDue (.worker i) :=
  tended.workers

theorem Tended.emit (tended : s.Tended) (e : Event) (closing : s.closing = none) :
    (s.emit e).Tended := by
  refine ⟨tended.isOpen, tended.attended.offer (tended.isOpen (Or.inl closing)) e
    (fun i due => ?_) fun i wakes => ?_⟩
  · exact Scheduler.isDue_wakeAll.mpr (Or.inl due)
  · exact Scheduler.isDue_wakeAll.mpr (Or.inr (mem_map_worker wakes))

theorem Tended.release (tended : s.Tended) (j times : Nat) :
    (s.move (.release j times)).Tended := by
  refine ⟨tended.isOpen, tended.attended.release j times (fun i due => ?_) fun wakes => ?_⟩
  · show Scheduler.IsDue (if _ then _ else _) _
    split
    · exact Scheduler.isDue_wake.mpr (Or.inl due)
    · exact due
  · show Scheduler.IsDue (if _ then _ else _) _
    rw [if_pos wakes]
    exact Scheduler.isDue_wake.mpr (Or.inr rfl)

theorem Tended.look (tended : s.Tended) : (s.move .look).Tended :=
  ⟨tended.isOpen, tended.attended.look⟩

theorem Tended.beginClosing (tended : s.Tended) (isOpen : s.closing = none) :
    Tended { s with closing := some .begun, tasks := s.tasks.wake .closer } :=
  ⟨fun _ => tended.isOpen (Or.inl isOpen),
    tended.attended.imp fun _ due => Scheduler.isDue_wake.mpr (Or.inl due)⟩

theorem Tended.close (tended : s.Tended) (turn : s.tasks.running = some .closer) :
    s.close.Tended := by
  have line (i : Nat) (due : s.tasks.IsDue (.worker i)) : .worker i ∈ s.tasks.ready :=
    due.inLine turn (by simp)
  unfold Session.close
  split
  · rename_i begun
    refine ⟨by simp, tended.attended.close (tended.isOpen (Or.inr begun)) (fun i due => ?_)
      fun i wakes => ?_⟩
    · exact Scheduler.isDue_wakeAll.mpr (Or.inl due)
    · exact Scheduler.isDue_wakeAll.mpr (Or.inr (mem_map_worker wakes))
  · refine ⟨fun now => ?_, tended.attended.imp fun i due => Or.inr (line i due)⟩
    unfold awaitFrom at now
    split at now <;> simp at now
  · exact ⟨tended.isOpen, tended.attended.imp fun i due => Or.inr (line i due)⟩

/-- The tasks that stand in line stay there in the turn of a worker, and it has its turn still if
it goes on. -/
theorem tasks_work (s : Session) (i : Nat) :
    (∀ t ∈ s.tasks.ready, t ∈ (s.work i).tasks.ready) ∧
      ((s.fanout.work i).2.2 = .again → (s.work i).tasks = s.tasks) := by
  unfold work
  dsimp only
  cases pace : (s.fanout.work i).2.2 with
  | again => exact ⟨fun _ mem => mem, fun _ => rfl⟩
  | waits => exact ⟨fun _ mem => mem, by simp⟩
  | «over» =>
      refine ⟨fun t mem => ?_, by simp⟩
      unfold workerGone
      dsimp only
      split
      · exact Scheduler.mem_ready_wake.mpr (Or.inl mem)
      · exact mem

theorem Tended.work (tended : s.Tended) (turn : s.tasks.running = some (.worker i)) :
    (s.work i).Tended := by
  obtain ⟨line, goesOn⟩ := tasks_work s i
  refine ⟨?_, ?_⟩
  · rw [closing_work, fanout_work, Fanout.work_isOpen]
    exact tended.isOpen
  · show (s.work i).fanout.Attended fun j => (s.work i).tasks.IsDue (.worker j)
    rw [fanout_work]
    refine tended.attended.work i (fun j other due => Or.inr (line _ (due.inLine turn ?_)))
      fun again => Or.inl (goesOn again ▸ turn)
    simpa using Ne.symm other

/-- The workers are due wherever something is left for them to do, after every move. -/
theorem Tended.move (tended : s.Tended) (mv : Move) : (s.move mv).Tended := by
  have moves := s.moves mv
  generalize s.move mv = s' at moves ⊢
  cases moves with
  | offered e isOpen => exact tended.emit e isOpen
  | released i times => exact tended.release i times
  | begun isOpen => exact tended.beginClosing isOpen
  | looked => exact tended.look
  | worked i turn => exact tended.work turn
  | closed turn => exact tended.close turn
  | taken idle tasks next =>
      exact ⟨tended.isOpen,
        tended.attended.imp fun _ => (Scheduler.isDue_of_next? next idle).mpr⟩
  | unoffered | unbegun | rested => exact tended

/-- The workers are due wherever something is left for them to do, at every point of every
run. -/
theorem tended_play (subscribers : List Subscriber) (busCapacity : Nat) (ms : List Move) :
    ((raw subscribers busCapacity).play ms).Tended := by
  induction ms using List.reverseRecOn with
  | nil =>
      refine ⟨fun _ => rfl, Fanout.attended_ofSubscribers fun i inside => ?_⟩
      exact Scheduler.isDue_wakeAll.mpr (Or.inr (mem_map_worker (List.mem_range.mpr inside)))
  | append_singleton ms mv ih =>
      rw [play_snoc]
      exact ih.move mv

/-! ## Coming to rest -/

/-- To close the set, and then to await its workers, leaves less to do. -/
theorem left_close_lt (turn : s.tasks.running = some .closer) : s.close.left < s.left := by
  have parked : s.tasks.park.weight Task.left + 1 = s.tasks.weight Task.left :=
    Scheduler.weight_park Task.left turn
  unfold close
  split
  · rename_i begun
    have few : s.fanout.wokenByClose.length ≤ s.fanout.feeds.length :=
      length_indicesWhere_le s.fanout _
    have woken := Scheduler.weight_wakeAll_le Task.left s.tasks
      (s.fanout.wokenByClose.map Task.worker)
    have each : ((s.fanout.wokenByClose.map Task.worker).map fun t => t.left + 1).sum ≤
        4 * (s.fanout.wokenByClose.map Task.worker).length := by
      refine sum_map_le fun t mem => ?_
      obtain ⟨i, -, rfl⟩ := List.mem_map.mp mem
      exact Nat.le_refl 4
    rw [List.length_map] at each
    have same := left_close s.fanout
    simp only [left, begun, closingLeft, same]
    omega
  · rename_i i awaiting
    have done : closingLeft s.fanout.feeds.length (some (s.fanout.awaitFrom i)) = 0 := by
      unfold awaitFrom
      split <;> rfl
    simp only [left, done]
    omega
  · simp only [left, park]
    omega

/-- A turn of a worker leaves less to do. -/
theorem left_work_lt (turn : s.tasks.running = some (.worker i)) : (s.work i).left < s.left := by
  have parked : s.tasks.park.weight Task.left + 3 = s.tasks.weight Task.left :=
    Scheduler.weight_park Task.left turn
  have step := s.fanout.left_work i
  have same := s.fanout.length_feeds_work i
  unfold work
  generalize s.fanout.work i = worked at step same ⊢
  rcases worked with ⟨fanout, report, pace⟩
  dsimp only at step same ⊢
  cases pace with
  | again =>
      simp only [left, same, Pace.used] at step ⊢
      omega
  | waits =>
      simp only [left, same, park] at step ⊢
      omega
  | «over» =>
      unfold workerGone
      dsimp only
      split
      · have woken := Scheduler.weight_wake_le Task.left s.tasks.park .closer
        have turns : (s.tasks.wake .closer).park = s.tasks.park.wake .closer := by
          unfold Scheduler.wake Scheduler.park
          split <;> rfl
        simp only [left, same, park, turns, Task.left] at step woken ⊢
        omega
      · simp only [left, same, park] at step ⊢
        omega

/-- While some task can go on, a turn leaves less to do. -/
theorem left_of_step {s' : Session} (step : s.step? = some s') : s'.left < s.left := by
  rcases step_cases step with ⟨i, turn, rfl⟩ | ⟨turn, rfl⟩ | ⟨idle, tasks, next, rfl⟩
  · exact left_work_lt turn
  · exact left_close_lt turn
  · have fewer := Scheduler.weight_of_next? Task.left next idle
    simp only [left]
    omega

/-- The tasks of a session come to rest, whatever the handlers do. -/
theorem settles_in_time {n : Nat} (enough : s.left ≤ n) :
    (runToRest step? n s).tasks.isSettled = true :=
  isSettled_of_step? (runToRest_of_lt left (fun _ _ => left_of_step) enough)

end Fanout.Session

end Flotilla
