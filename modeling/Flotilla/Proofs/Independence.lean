import Flotilla.Proofs.Closing
import Flotilla.Proofs.Panics
import Mathlib.Data.List.Basic

/-!
# Subscribers of one set are independent

The workers of a set share one line, one bus and the one who closes the set. None of that lets one
subscriber notice another: what a worker comes to when the tasks come to rest is what it comes to
by itself (`Feed.prospect`), and a turn, whosever it is, does not change that
(`Fanout.Session.Orderly.prospect_turn`). So two sets that have the same subscriber at the same
place hand it the same events in the same commands, and publish the same reports on its behalf
(`Fanout.Session.independent_of_others`).
-/

namespace Flotilla

/-! ## One worker by itself -/

namespace Feed

variable {f : Feed} {isOpen closes : Bool}

/-- The turn of a worker: the feed after it, and the reports it publishes. -/
def turn (f : Feed) (isOpen : Bool) : Feed × List Event :=
  if (f.work isOpen).2.2 = .again then
    (((f.work isOpen).1.turn isOpen).1,
      (f.work isOpen).2.1.toList ++ ((f.work isOpen).1.turn isOpen).2)
  else ((f.work isOpen).1, (f.work isOpen).2.1.toList)
termination_by f.left
decreasing_by
  all_goals
    rename_i goesOn
    have step := f.left_work isOpen
    rw [goesOn] at step
    exact step

/-- A worker that waits for an event and is woken as the set is closed. -/
def rouse (f : Feed) : Feed := { f with worker := f.worker.rouse }

/-- What a feed comes to when the tasks come to rest, if nothing happens to it but that, and the
reports published on the way. `closes` says whether the set is closed or about to be. -/
def prospect (closes : Bool) (f : Feed) : Feed × List Event :=
  if closes then f.rouse.turn false else f.turn true

theorem turn_of_again {f' : Feed} {report : Option Event}
    (goesOn : f.work isOpen = (f', report, .again)) :
    f.turn isOpen = ((f'.turn isOpen).1, report.toList ++ (f'.turn isOpen).2) := by
  rw [turn, goesOn, if_pos rfl]

theorem turn_of_ne_again {f' : Feed} {report : Option Event} {pace : Pace}
    (stops : f.work isOpen = (f', report, pace)) (ne : pace ≠ .again) :
    f.turn isOpen = (f', report.toList) := by
  rw [turn, stops, if_neg ne]

theorem work_of_not_busy (rests : f.worker.isBusy = false) (isOpen : Bool) :
    f.work isOpen = (f, none, .waits) := by
  unfold work
  cases worker : f.worker with
  | taking | permitted => rw [worker] at rests; cases rests
  | idle | blocked | ended | dead => rfl

theorem turn_of_not_busy (rests : f.worker.isBusy = false) (isOpen : Bool) :
    f.turn isOpen = (f, []) :=
  turn_of_ne_again (work_of_not_busy rests isOpen) nofun

theorem rouse_of_ne_idle (awake : f.worker ≠ .idle) : f.rouse = f := by
  have same : f.worker.rouse = f.worker := by
    cases worker : f.worker with
    | idle => exact absurd worker awake
    | taking | permitted | blocked | ended | dead => rfl
  rw [rouse, same]

theorem prospect_of_ne_idle (awake : f.worker ≠ .idle) (closes : Bool) :
    f.prospect closes = f.turn !closes := by
  unfold prospect
  rw [rouse_of_ne_idle awake]
  cases closes <;> rfl

/-- A worker that rests, and is not to be woken as the set is closed, stays as it is. -/
theorem prospect_of_rests (rests : f.worker.isBusy = false)
    (stays : closes = true → f.worker ≠ .idle) : f.prospect closes = (f, []) := by
  cases closes with
  | true =>
      rw [prospect_of_ne_idle (stays rfl)]
      exact turn_of_not_busy rests _
  | false => exact turn_of_not_busy rests true

theorem prospect_rouse (f : Feed) : f.rouse.prospect true = f.prospect true := by
  have twice : f.rouse.rouse = f.rouse := by
    refine rouse_of_ne_idle ?_
    show f.worker.rouse ≠ .idle
    cases f.worker <;> simp [Worker.rouse]
  show f.rouse.rouse.turn false = f.rouse.turn false
  rw [twice]

/-- A worker whose step does not depend on whether events may still come. -/
theorem prospect_of_step {f' : Feed} {report : Option Event} {pace : Pace}
    (busy : f.worker.isBusy = true) (steps : ∀ isOpen, f.work isOpen = (f', report, pace))
    (next : if pace = .again then f'.worker ≠ .idle else f'.worker.isBusy = false ∧
      f'.worker ≠ .idle) :
    f.prospect closes =
      ((f'.prospect closes).1, report.toList ++ (f'.prospect closes).2) := by
  have awake : f.worker ≠ .idle := by
    intro idle
    rw [idle] at busy
    cases busy
  rw [prospect_of_ne_idle awake]
  split at next
  · rename_i goesOn
    subst goesOn
    rw [turn_of_again (steps _), prospect_of_ne_idle next]
  · rename_i stops
    rw [turn_of_ne_again (steps _) stops, prospect_of_rests next.1 fun _ => next.2, List.append_nil]

/-- A step of the worker is a step towards what becomes of the feed in the end. -/
theorem prospect_work (closed : isOpen = false → closes = true) (f : Feed) :
    f.prospect closes = (((f.work isOpen).1.prospect closes).1,
      (f.work isOpen).2.1.toList ++ ((f.work isOpen).1.prospect closes).2) := by
  cases worker : f.worker with
  | idle | blocked | ended | dead =>
      rw [work_of_not_busy (by rw [worker]; rfl)]
      rfl
  | permitted e =>
      have steps (isOpen : Bool) : f.work isOpen = (f.keep e, none, .again) := by
        rw [work, worker]
      rw [steps]
      exact prospect_of_step (by rw [worker]; rfl) steps (by simp [keep])
  | taking =>
      cases queue : f.queue with
      | cons e later =>
          have steps (isOpen : Bool) : f.work isOpen = f.handOver e later := by
            rw [work, worker, queue]
          rw [steps]
          refine prospect_of_step (by rw [worker]; rfl) steps ?_
          unfold handOver
          dsimp only
          split
          · simp [keep]
          · split <;> simp [keep, Worker.isBusy]
          · simp [worker]
          · simp [Worker.isBusy]
      | nil =>
          -- Whoever finds nothing waits for more to come, and is woken and done once none will.
          have awake : f.worker ≠ .idle := by simp [worker]
          have finds : f.work true = ({ f with worker := .idle }, none, .waits) := by
            rw [work, worker, queue]
            rfl
          have ends : f.work false = ({ f with worker := .ended }, none, .over) := by
            rw [work, worker, queue]
            rfl
          rw [prospect_of_ne_idle awake]
          cases isOpen with
          | false =>
              cases closed rfl
              have stays : Feed.prospect true { f with worker := .ended } =
                  ({ f with worker := .ended }, []) :=
                prospect_of_rests rfl fun _ => by simp
              rw [ends, stays]
              exact turn_of_ne_again ends (by simp)
          | true =>
              rw [finds]
              cases closes with
              | false =>
                  have stays : Feed.prospect false { f with worker := .idle } =
                      ({ f with worker := .idle }, []) :=
                    prospect_of_rests rfl fun closed => by cases closed
                  rw [stays]
                  exact turn_of_ne_again finds (by simp)
              | true =>
                  have again : Feed.rouse { f with worker := .idle } = f := by
                    show { f with worker := .taking } = f
                    rw [← worker]
                  show f.turn false = ((Feed.rouse { f with worker := .idle }).turn false)
                  rw [again]

end Feed

namespace Fanout.Session

variable {s t : Session} {f : Feed} {i : Nat}

/-! ## What is published on whose behalf -/

/-- What is published on behalf of a subscriber in a move: the report on an event that it refuses,
or on a panic of its handler. -/
def onBehalf (i : Nat) (s : Session) (mv : Move) : List Event :=
  ((s.offered? mv).bind fun e => s.fanout.feeds[i]?.bind fun f => f.overflow? e).toList ++
    panics i s mv

/-- What is published in a move: what is published on behalf of each subscriber, in their order. -/
def published (s : Session) (mv : Move) : List Event :=
  (List.range s.fanout.feeds.length).flatMap fun i => s.onBehalf i mv

theorem filterMap_eq_filterMap_range {α β : Type} (g : α → Option β) (xs : List α) :
    xs.filterMap g = (List.range xs.length).filterMap fun i => xs[i]?.bind g := by
  induction xs using List.reverseRecOn with
  | nil => rfl
  | append_singleton xs x ih =>
      have before : ∀ i ∈ List.range xs.length, (xs ++ [x])[i]?.bind g = xs[i]?.bind g := by
        intro i mem
        rw [List.getElem?_append_left (List.mem_range.mp mem)]
      rw [List.filterMap_append, List.length_append, List.length_singleton, List.range_succ,
        List.filterMap_append, List.filterMap_congr before, ← ih]
      simp [List.filterMap_cons]

theorem flatMap_range_ite {α : Type} {n : Nat} {l : List α} (inside : n ≤ i → l = []) :
    ((List.range n).flatMap fun j => if i = j then l else []) = l := by
  induction n with
  | zero => exact (inside (Nat.zero_le i)).symm
  | succ n ih =>
      rw [List.range_succ, List.flatMap_append, List.flatMap_singleton]
      by_cases last : i = n
      · subst last
        have none : ((List.range i).flatMap fun j => if i = j then l else []) = [] := by
          refine List.flatMap_eq_nil_iff.mpr fun j mem => if_neg ?_
          exact (Nat.ne_of_lt (List.mem_range.mp mem)).symm
        rw [none, if_pos rfl]
        rfl
      · rw [if_neg last, List.append_nil]
        exact ih fun le => inside (Nat.lt_of_le_of_ne le (Ne.symm last))

theorem published_of_quiet {mv : Move} (nothing : s.offered? mv = none)
    (silent : ∀ i, s.report? i mv = none) : s.published mv = [] := by
  refine List.flatMap_eq_nil_iff.mpr fun i _ => ?_
  simp [onBehalf, panics, nothing, silent]

theorem published_emit (e : Event) (closing : s.closing = none) :
    s.published (.emit e) = s.fanout.overflows e := by
  rw [Fanout.overflows, filterMap_eq_filterMap_range, List.filterMap_eq_flatMap_toList]
  simp [published, onBehalf, offered?, panics, report?, closing]

theorem published_work (turn : s.tasks.running = some (.worker i)) :
    s.published .turn = (s.fanout.work i).2.1.toList := by
  have each : ∀ j, s.onBehalf j .turn = if i = j then (s.fanout.work i).2.1.toList else [] := by
    intro j
    unfold onBehalf panics report?
    rw [turn]
    by_cases own : i = j
    · simp [offered?, own]
    · simp [offered?, own]
  rw [published, funext each]
  refine flatMap_range_ite fun outside => ?_
  rw [Fanout.work, List.getElem?_eq_none_iff.mpr outside]
  rfl

/-- All that is published is published on behalf of some subscriber. -/
theorem bus_move (s : Session) (mv : Move) :
    (s.move mv).bus = s.bus.publishAll (s.published mv) := by
  have quiet (busy : ∀ i, s.tasks.running ≠ some (.worker i)) : s.published .turn = [] :=
    published_of_quiet rfl fun i => if_neg (busy i)
  have moves := s.moves mv
  generalize s.move mv = s' at moves ⊢
  cases moves with
  | offered e isOpen =>
      rw [published_emit e isOpen]
      rfl
  | unoffered e closing =>
      have nothing : s.offered? (.emit e) = none := if_pos closing
      rw [published_of_quiet nothing fun _ => rfl]
      rfl
  | released | begun | unbegun | looked =>
      rw [published_of_quiet rfl fun _ => rfl]
      rfl
  | worked i turn => rw [published_work turn, bus_work]
  | closed turn =>
      rw [quiet (by simp [turn])]
      unfold close
      split <;> rfl
  | taken idle | rested idle =>
      rw [quiet (by simp [idle])]
      rfl

theorem bus_play (s : Session) (ms : List Move) :
    (s.play ms).bus = s.bus.publishAll (s.record published ms) := by
  induction ms generalizing s with
  | nil => rfl
  | cons mv ms ih =>
      show ((s.move mv).play ms).bus = s.bus.publishAll (s.published mv ++ _)
      rw [ih, bus_move, Bus.publishAll, Bus.publishAll, Bus.publishAll, List.foldl_append]
      rfl

/-! ## Coming to rest -/

theorem isOpen_of_not_closing (orderly : s.Orderly) (isOpen : s.fanout.isOpen = false) :
    s.closing.isSome = true := by
  cases closing : s.closing with
  | some c => rfl
  | none => cases isOpen.symm.trans (orderly.tended.isOpen (Or.inl closing))

theorem closing_turn (s : Session) : (s.move .turn).closing.isSome = s.closing.isSome := by
  have moves := s.moves .turn
  generalize s.move .turn = s' at moves ⊢
  cases moves with
  | worked i => rw [closing_work]
  | closed =>
      unfold close
      split
      · rename_i begun
        rw [begun]
        rfl
      · rename_i awaiting
        rw [awaiting]
        rfl
      · rfl
  | taken | rested => rfl

theorem closing_turns (s : Session) (n : Nat) :
    (s.play (List.replicate n .turn)).closing.isSome = s.closing.isSome := by
  induction n generalizing s with
  | zero => rfl
  | succ n ih => exact (ih (s.move .turn)).trans (closing_turn s)

/-- A turn, whosever it is, does not change what becomes of a feed. -/
theorem Orderly.prospect_turn (orderly : s.Orderly) (found : s.fanout.feeds[i]? = some f) :
    ∃ f', (s.move .turn).fanout.feeds[i]? = some f' ∧
      f.prospect s.closing.isSome = ((f'.prospect s.closing.isSome).1,
        s.onBehalf i .turn ++ (f'.prospect s.closing.isSome).2) := by
  have quiet (other : s.tasks.running ≠ some (.worker i)) : s.onBehalf i .turn = [] := by
    simp [onBehalf, panics, offered?, report?, other]
  have moves := s.moves .turn
  generalize s.move .turn = s' at moves ⊢
  cases moves with
  | worked j turn =>
      rw [fanout_work]
      by_cases own : j = i
      · subst own
        refine ⟨(f.work s.fanout.isOpen).1, ?_, ?_⟩
        · rw [Fanout.work_self found]
          exact List.getElem?_set_self (List.getElem?_eq_some_iff.mp found).choose
        · have told : s.onBehalf j .turn = (f.work s.fanout.isOpen).2.1.toList := by
            simp [onBehalf, panics, offered?, report?, turn, Fanout.work_self found]
          rw [told]
          exact Feed.prospect_work (isOpen_of_not_closing orderly) f
      · rw [quiet (by simpa [turn] using own), (s.fanout.work_ne own).1]
        exact ⟨f, found, rfl⟩
  | closed turn =>
      rw [quiet (by simp [turn])]
      unfold close
      split
      · rename_i begun
        refine ⟨f.rouse, ?_, ?_⟩
        · show (s.fanout.feeds.map Feed.rouse)[i]? = _
          rw [List.getElem?_map, found]
          rfl
        · rw [begun]
          exact (Feed.prospect_rouse f).symm
      · exact ⟨f, found, rfl⟩
      · exact ⟨f, found, rfl⟩
  | taken idle | rested idle =>
      rw [quiet (by simp [idle])]
      exact ⟨f, found, rfl⟩

theorem Orderly.prospect_turns (orderly : s.Orderly) (found : s.fanout.feeds[i]? = some f)
    (n : Nat) :
    ∃ f', (s.play (List.replicate n .turn)).fanout.feeds[i]? = some f' ∧
      f.prospect s.closing.isSome = ((f'.prospect s.closing.isSome).1,
        s.record (onBehalf i) (List.replicate n .turn) ++ (f'.prospect s.closing.isSome).2) := by
  induction n generalizing s f with
  | zero => exact ⟨f, found, rfl⟩
  | succ n ih =>
      obtain ⟨f₁, found₁, first⟩ := orderly.prospect_turn found
      obtain ⟨f₂, found₂, rest⟩ := ih (orderly.play [.turn]) found₁
      refine ⟨f₂, found₂, ?_⟩
      have same : (s.play [.turn]).closing.isSome = s.closing.isSome := closing_turn s
      rw [same] at rest
      rw [first, rest]
      show _ = (_, (s.onBehalf i .turn ++ _) ++ _)
      rw [List.append_assoc]
      rfl

/-- Where the tasks come to rest, each feed is what it comes to by itself. -/
theorem Orderly.settle (orderly : s.Orderly) (found : s.fanout.feeds[i]? = some f) :
    (s.play s.settling).fanout.feeds[i]? = some (f.prospect s.closing.isSome).1 ∧
      s.record (onBehalf i) s.settling = (f.prospect s.closing.isSome).2 := by
  obtain ⟨f', found', eq⟩ := orderly.prospect_turns found s.left
  have after := orderly.play s.settling
  have settled := isSettled_settle s
  rw [settle_eq_play] at settled
  have attended := (after.tended.workers i f' found').imp
    (Scheduler.not_isDue_of_isSettled settled (Task.worker i))
  have rests : f'.worker.isBusy = false := by
    cases busy : f'.worker.isBusy with
    | false => rfl
    | true => exact (attended.busy busy).elim
  have stays : s.closing.isSome = true → f'.worker ≠ .idle := by
    intro closing idle
    rw [← closing_turns s s.left] at closing
    rcases after.closes.isOpen (attended.idle idle).2 with none | begun
    · have closing : (s.play s.settling).closing.isSome = true := closing
      rw [none] at closing
      cases closing
    · exact Scheduler.not_isDue_of_isSettled settled _ (after.closes.begun begun)
  rw [eq, Feed.prospect_of_rests rests stays, List.append_nil]
  exact ⟨found', rfl⟩

/-! ## Two sets with the same subscriber -/

/-- Two sets that have the same feed at a place, either both closed, or about to be, or neither. -/
structure Agree (i : Nat) (s t : Session) : Prop where
  feed : ∃ f, s.fanout.feeds[i]? = some f ∧ t.fanout.feeds[i]? = some f
  closing : t.closing.isSome = s.closing.isSome

theorem Agree.offered? (agree : Agree i s t) (mv : Move) : t.offered? mv = s.offered? mv := by
  cases mv with
  | emit e => rw [Session.offered?, Session.offered?, agree.closing]
  | release | close | look | turn => rfl

/-- What happens to a feed in a move that is not a turn does not depend on the others. -/
theorem Agree.move (agree : Agree i s t) (mv : Move) (quiet : mv ≠ .turn) :
    Agree i (s.move mv) (t.move mv) ∧ t.onBehalf i mv = s.onBehalf i mv := by
  obtain ⟨f, found, found'⟩ := agree.feed
  have silent (u : Session) : panics i u mv = [] := by
    cases mv with
    | emit | release | close | look => rfl
    | turn => exact absurd rfl quiet
  refine ⟨?_, ?_⟩
  · cases mv with
    | emit e =>
        cases closing : s.closing.isSome with
        | true =>
            have closing' := agree.closing.trans closing
            simpa [Session.move, closing, closing'] using agree
        | false =>
            have closing' := agree.closing.trans closing
            simp only [Session.move, closing, closing', if_neg Bool.false_ne_true]
            refine ⟨⟨f.offer e, ?_, ?_⟩, agree.closing⟩
            · rw [emit, Fanout.getElem?_feeds_offer, found]
              rfl
            · rw [emit, Fanout.getElem?_feeds_offer, found']
              rfl
    | release j times =>
        refine ⟨⟨if j = i then f.releaseTimes times else f, ?_, ?_⟩, agree.closing⟩
        · show (s.fanout.feeds.modify j fun f => f.releaseTimes times)[i]? = _
          rw [List.getElem?_modify, found]
          rfl
        · show (t.fanout.feeds.modify j fun f => f.releaseTimes times)[i]? = _
          rw [List.getElem?_modify, found']
          rfl
    | close =>
        cases closing : s.closing.isSome with
        | true =>
            have closing' := agree.closing.trans closing
            simpa [Session.move, closing, closing'] using agree
        | false =>
            have closing' := agree.closing.trans closing
            simp only [Session.move, closing, closing', if_neg Bool.false_ne_true]
            exact ⟨⟨f, found, found'⟩, rfl⟩
    | look =>
        refine ⟨⟨f.look, ?_, ?_⟩, agree.closing⟩
        · show (s.fanout.feeds.map Feed.look)[i]? = _
          rw [List.getElem?_map, found]
          rfl
        · show (t.fanout.feeds.map Feed.look)[i]? = _
          rw [List.getElem?_map, found']
          rfl
    | turn => exact absurd rfl quiet
  · rw [onBehalf, onBehalf, agree.offered?, silent, silent, found, found']

theorem Agree.play (agree : Agree i s t) {ms : List Move} (quiet : ∀ mv ∈ ms, mv ≠ .turn) :
    Agree i (s.play ms) (t.play ms) ∧ t.record (onBehalf i) ms = s.record (onBehalf i) ms := by
  induction ms generalizing s t with
  | nil => exact ⟨agree, rfl⟩
  | cons mv ms ih =>
      obtain ⟨first, same⟩ := agree.move mv (quiet mv List.mem_cons_self)
      obtain ⟨rest, records⟩ := ih first fun mv' mem => quiet mv' (List.mem_cons_of_mem mv mem)
      refine ⟨rest, ?_⟩
      show t.onBehalf i mv ++ _ = s.onBehalf i mv ++ _
      rw [same]
      exact congrArg _ records

theorem Agree.settle (agree : Agree i s t) (first : s.Orderly) (second : t.Orderly) :
    Agree i (s.play s.settling) (t.play t.settling) ∧
      t.record (onBehalf i) t.settling = s.record (onBehalf i) s.settling := by
  obtain ⟨f, found, found'⟩ := agree.feed
  obtain ⟨there, told⟩ := first.settle found
  obtain ⟨there', told'⟩ := second.settle found'
  rw [agree.closing] at there' told'
  refine ⟨⟨⟨_, there, there'⟩, ?_⟩, told'.trans told.symm⟩
  exact (closing_turns t t.left).trans (agree.closing.trans (closing_turns s s.left).symm)

/-- A command does the same to a subscriber in both sets, and the same is published on its
behalf. -/
theorem Agree.perform (agree : Agree i s t) (first : s.Orderly) (second : t.Orderly)
    (c : Command) : Agree i (s.perform c).1 (t.perform c).1 ∧
      t.record (onBehalf i) (t.movesOf c) = s.record (onBehalf i) (s.movesOf c) := by
  rw [perform_eq_play, perform_eq_play]
  cases c with
  | emit e times =>
      refine agree.play fun mv mem => ?_
      rw [List.eq_of_mem_replicate mem]
      nofun
  | release j times =>
      refine agree.play fun mv mem => ?_
      rw [List.mem_singleton.mp mem]
      nofun
  | settle => exact agree.settle first second
  | shutdown =>
      simp only [movesOf, agree.closing]
      split
      · exact ⟨agree, rfl⟩
      · obtain ⟨begun, -⟩ := agree.move .close nofun
        exact begun.settle (first.play [.close]) (second.play [.close])
  | unknown => exact ⟨agree, rfl⟩

/-! ## What each command does for a subscriber -/

/-- What a command does for a subscriber. -/
structure Share where
  /-- The events that are handed to it, in order. -/
  handed : List Event
  /-- The reports that are published on its behalf, in order and without their numbers. -/
  reports : List Event
  deriving DecidableEq

/-- Every event that was handed to a subscriber, in order. -/
def handedTo (i : Nat) (s : Session) : List Event :=
  (s.fanout.feeds[i]?.map fun f => f.handed.toList).getD []

def share (i : Nat) (s : Session) (c : Command) : Share where
  handed := (handedTo i (s.perform c).1).drop (handedTo i s).length
  reports := s.record (onBehalf i) (s.movesOf c)

/-- What each of these commands does for a subscriber. -/
def shares (i : Nat) (s : Session) : List Command → List Share
  | [] => []
  | c :: cs => share i s c :: shares i (s.observe c).1 cs

theorem Agree.handedTo (agree : Agree i s t) : handedTo i t = handedTo i s := by
  obtain ⟨f, found, found'⟩ := agree.feed
  rw [Session.handedTo, Session.handedTo, found, found']

theorem Agree.shares (agree : Agree i s t) (first : s.Orderly) (second : t.Orderly)
    (cs : List Command) : shares i t cs = shares i s cs := by
  induction cs generalizing s t with
  | nil => rfl
  | cons c cs ih =>
      obtain ⟨done, told⟩ := agree.perform first second c
      have looked : Agree i (s.observe c).1 (t.observe c).1 := (done.move .look nofun).1
      have here : share i t c = share i s c := by
        rw [share, share, done.handedTo, agree.handedTo, told]
      rw [Session.shares, Session.shares, here, ih looked (first.observe c) (second.observe c)]

/-! ## Whole sessions -/

/-- What was handed over stays handed over. -/
theorem handedTo_move (s : Session) (mv : Move) : handedTo i s <+: handedTo i (s.move mv) := by
  unfold handedTo
  cases found : s.fanout.feeds[i]? with
  | none => exact List.nil_prefix
  | some f =>
      obtain ⟨f', found', moves⟩ := exists_feed_move found mv
      rw [found']
      exact moves.handed

theorem handedTo_play (s : Session) (ms : List Move) :
    handedTo i s <+: handedTo i (s.play ms) := by
  induction ms generalizing s with
  | nil => exact List.prefix_rfl
  | cons mv ms ih => exact (handedTo_move s mv).trans (ih (s.move mv))

theorem handedTo_look (s : Session) : handedTo i (s.move .look) = handedTo i s := by
  show ((s.fanout.feeds.map Feed.look)[i]?.map fun f => f.handed.toList).getD [] = _
  rw [List.getElem?_map, Option.map_map]
  rfl

/-- What was handed to a subscriber is what the commands handed to it, one after another. -/
theorem handedTo_after (s : Session) (cs : List Command) :
    handedTo i (s.after cs) = handedTo i s ++ (shares i s cs).flatMap Share.handed := by
  induction cs generalizing s with
  | nil => exact (List.append_nil _).symm
  | cons c cs ih =>
      have here : handedTo i (s.observe c).1 = handedTo i s ++ (share i s c).handed := by
        have before : handedTo i s <+: handedTo i (s.perform c).1 := by
          rw [perform_eq_play]
          exact handedTo_play s _
        exact (handedTo_look (s.perform c).1).trans (List.prefix_iff_eq_append.mp before).symm
      show handedTo i ((s.observe c).1.after cs) = _
      rw [ih, here, shares, List.flatMap_cons, List.append_assoc]

/-- What was published on behalf of a subscriber is what the commands published, one after
another. -/
theorem record_onBehalf (s : Session) (cs : List Command) :
    s.record (onBehalf i) (s.sessionMoves cs) = (shares i s cs).flatMap Share.reports := by
  induction cs generalizing s with
  | nil => rfl
  | cons c cs ih =>
      rw [shares, List.flatMap_cons, ← ih, sessionMoves, record_append, ← perform_eq_play]
      rfl

/-- The feed of a set just made: nothing happened to it, but that its worker may wait already. -/
theorem feed_made {subscribers : List Subscriber} {s : Subscriber}
    (planned : subscribers[i]? = some s) (ran : Bool) (busCapacity : Nat) :
    (made ran subscribers busCapacity).fanout.feeds[i]? =
      some { subscriber := s, worker := if ran then .idle else .taking } := by
  have found := feed_raw planned busCapacity
  cases ran with
  | false => exact found
  | true =>
      obtain ⟨there, -⟩ := (orderly_raw subscribers busCapacity).settle found
      have waits : Feed.work { subscriber := s } true =
          ({ subscriber := s, worker := .idle }, none, .waits) := rfl
      show (start subscribers busCapacity).fanout.feeds[i]? = _
      rw [start_eq_play, there]
      exact congrArg (fun x : Feed × List Event => some x.1) (Feed.turn_of_ne_again waits nofun)

theorem closing_made (ran : Bool) (subscribers : List Subscriber) (busCapacity : Nat) :
    (made ran subscribers busCapacity).closing.isSome = false := by
  cases ran with
  | false => rfl
  | true =>
      show (start subscribers busCapacity).closing.isSome = false
      rw [start_eq_play]
      exact closing_turns _ _

/-- Two sets that have the same subscriber at a place hand it the same events, in the same
commands and in the same order, and publish the same reports on its behalf, whatever the other
subscribers do and however many there are. What a set publishes on its bus is what it publishes on
behalf of each of its subscribers. -/
theorem independent_of_others {subscribers subscribers' : List Subscriber} {s : Subscriber}
    (here : subscribers[i]? = some s) (there : subscribers'[i]? = some s) (ran : Bool)
    (busCapacity busCapacity' : Nat) (cs : List Command) :
    let session := made ran subscribers busCapacity
    shares i (made ran subscribers' busCapacity') cs = shares i session cs ∧
      handedTo i (session.after cs) = (shares i session cs).flatMap Share.handed ∧
      session.record (onBehalf i) (session.sessionMoves cs) =
        (shares i session cs).flatMap Share.reports ∧
      (session.after cs).bus =
        session.bus.publishAll (session.record published (session.sessionMoves cs)) := by
  intro session
  have found := feed_made here ran busCapacity
  have agree : Agree i session (made ran subscribers' busCapacity') :=
    ⟨⟨_, found, feed_made there ran busCapacity'⟩,
      (closing_made ran _ _).trans (closing_made ran _ _).symm⟩
  have nothing : handedTo i session = [] := by
    rw [handedTo, found]
    rfl
  refine ⟨agree.shares (orderly_made ran _ _) (orderly_made ran _ _) cs, ?_,
    record_onBehalf session cs, ?_⟩
  · rw [handedTo_after, nothing, List.nil_append]
  · rw [after_eq_play, bus_play]

end Fanout.Session

namespace Sample

/-- A subscriber with two places that panics within its work in its second call. -/
def uneasy : Subscriber :=
  { name := "b", handling := .panic (.text "boom"), capacity := 2, panicsAt := [1] }

/-- Three events are offered at once and one more later; then the set is closed. -/
def burst : List Fanout.Command :=
  [.emit (numbered 7) 3, .settle, .emit (numbered 8) 1, .shutdown, .emit (numbered 9) 1]

end Sample

namespace Fanout.Session

/-- Beside a subscriber that takes one event and waits for a permit, and before one that panics in
its first call, the subscriber in the middle is handed what it is handed beside a subscriber that
is dead after the first event. -/
theorem independent_of_others_of_uneasy :
    let subscribers : List Subscriber :=
      [{ name := "a", handling := .block, capacity := 1 }, Sample.uneasy,
        { name := "c", handling := .panic (.text "bang") }]
    let subscribers' : List Subscriber := [{ name := "a", handling := .panicAtOnce }, Sample.uneasy]
    let session := made true subscribers 64
    (shares 1 (made true subscribers' 8) Sample.burst = shares 1 session Sample.burst ∧
      handedTo 1 (session.after Sample.burst) =
        (shares 1 session Sample.burst).flatMap Share.handed ∧
      session.record (onBehalf 1) (session.sessionMoves Sample.burst) =
        (shares 1 session Sample.burst).flatMap Share.reports ∧
      (session.after Sample.burst).bus =
        session.bus.publishAll (session.record published (session.sessionMoves Sample.burst))) ∧
    shares 1 session Sample.burst =
      [⟨[], [.subscriberOverflow "b" "full"]⟩,
        ⟨[Sample.numbered 7, Sample.numbered 7], [.subscriberPanicked "b" "boom"]⟩, ⟨[], []⟩,
        ⟨[Sample.numbered 8], []⟩, ⟨[], []⟩] := by
  refine ⟨independent_of_others (s := Sample.uneasy) rfl rfl true 64 8 _, ?_⟩
  decide +kernel

end Fanout.Session

end Flotilla
