import Flotilla.Proofs.Sets

/-!
# How a set is closed

Whoever closes a set offers it no more events and then awaits its workers one after another. At
every point of every run it has something to do or waits for a worker that is there, and those it
passed are gone (`Closes.move`). So where no task can go on, the set is closed for good exactly
when every worker is gone (`Closes.finished_iff`).
-/

namespace Flotilla

/-! ## Workers that are gone -/

namespace Feed

theorem isGone_offer (f : Feed) (e : Event) : (f.offer e).worker.isGone = f.worker.isGone := by
  unfold offer
  split
  · rfl
  · cases worker : f.worker <;> rfl

theorem isGone_releaseTimes (f : Feed) (n : Nat) :
    (f.releaseTimes n).worker.isGone = f.worker.isGone := by
  rcases f.worker_releaseTimes n with same | ⟨-, e, blocked, permitted⟩
  · rw [same]
  · rw [blocked, permitted]
    rfl

/-- A worker is gone after its last step, and after another one if it was gone before. -/
theorem isGone_work (f : Feed) (isOpen : Bool) :
    (f.work isOpen).1.worker.isGone =
      if (f.work isOpen).2.2 = .over then true else f.worker.isGone := by
  unfold work
  split
  · rename_i taking
    rw [taking]
    split
    · unfold handOver
      dsimp only
      split
      · rfl
      · split <;> rfl
      · exact congrArg Worker.isGone taking
      · rfl
    · split <;> rfl
  · rename_i permitted
    rw [permitted]
    rfl
  · rfl

end Feed

namespace Fanout

/-- Which workers are gone. -/
def gone (s : Fanout) : List Bool := s.feeds.map fun f => f.worker.isGone

theorem getElem?_gone_eq_some_iff {s : Fanout} {i : Nat} {b : Bool} :
    s.gone[i]? = some b ↔ ∃ feed, s.feeds[i]? = some feed ∧ feed.worker.isGone = b := by
  rw [gone, List.getElem?_map, Option.map_eq_some_iff]

theorem gone_offer (s : Fanout) (e : Event) : (s.offer e).gone = s.gone := by
  unfold gone offer
  rw [List.map_map]
  exact List.map_congr_left fun f _ => f.isGone_offer e

theorem gone_look (s : Fanout) : s.look.gone = s.gone := by
  unfold gone look
  rw [List.map_map]
  rfl

theorem gone_release (s : Fanout) (i times : Nat) : (s.release i times).gone = s.gone :=
  map_modify_of_same s.feeds i fun f _ => f.isGone_releaseTimes times

/-- The step of a worker makes nobody gone but that worker, and only if it is its last one. -/
theorem gone_work (s : Fanout) (i : Nat) :
    (s.work i).1.gone = if (s.work i).2.2 = .over then s.gone.set i true else s.gone := by
  cases found : s.feeds[i]? with
  | none =>
      have outside : s.gone.length ≤ i := by
        rw [gone, List.length_map]
        exact List.getElem?_eq_none_iff.mp found
      rw [work, found]
      exact (List.set_eq_of_length_le outside).symm
  | some feed =>
      have before : s.gone[i]? = some feed.worker.isGone :=
        getElem?_gone_eq_some_iff.mpr ⟨feed, found, rfl⟩
      rw [work_self found]
      show (s.feeds.set i _).map _ = _
      rw [List.map_set, feed.isGone_work]
      split
      · rfl
      · obtain ⟨inside, eq⟩ := List.getElem?_eq_some_iff.mp before
        rw [← eq]
        exact List.set_getElem_self inside

theorem pairwise_indicesWhere (s : Fanout) (p : Feed → Bool) :
    (s.indicesWhere p).Pairwise (· < ·) := by
  have ascending : (s.feeds.zipIdx.map Prod.snd).Pairwise (· < ·) := by
    rw [List.zipIdx_map_snd]
    exact List.pairwise_lt_range'
  refine List.Pairwise.filterMap _ (fun x y lt i eq j eq' => ?_) (List.pairwise_map.mp ascending)
  split at eq
  · split at eq'
    · cases eq
      cases eq'
      exact lt
    · cases eq'
  · cases eq

/-- Whoever awaits the workers from a number on stops at the first one that is there. -/
theorem awaitFrom_cases (s : Fanout) (i : Nat) :
    (∃ j, s.awaitFrom i = .awaiting j ∧ s.gone[j]? = some false ∧
        ∀ k, i ≤ k → k < j → s.gone[k]? ≠ some false) ∨
      s.awaitFrom i = .finished ∧ ∀ k, i ≤ k → s.gone[k]? ≠ some false := by
  have there {k : Nat} : k ∈ s.indicesWhere (fun f => !f.worker.isGone) ↔
      s.gone[k]? = some false := by
    rw [mem_indicesWhere, getElem?_gone_eq_some_iff]
    simp
  unfold awaitFrom firstAt?
  cases found : (s.indicesWhere fun f => !f.worker.isGone).find? (i ≤ ·) with
  | none =>
      refine Or.inr ⟨rfl, fun k le waits => ?_⟩
      have before := List.find?_eq_none.mp found k (there.mpr waits)
      simp [le] at before
  | some j =>
      obtain ⟨late, before, after, line, early⟩ := List.find?_eq_some_iff_append.mp found
      have waits : j ∈ s.indicesWhere fun f => !f.worker.isGone := List.mem_of_find?_eq_some found
      refine Or.inl ⟨j, rfl, there.mp waits, fun k le lt notGone => ?_⟩
      have ascending := s.pairwise_indicesWhere fun f => !f.worker.isGone
      have listed := there.mpr notGone
      rw [line] at listed ascending
      rcases List.mem_append.mp listed with mem | mem
      · simpa [le] using early k mem
      · rcases List.mem_cons.mp mem with rfl | mem
        · exact absurd lt (Nat.lt_irrefl k)
        · have le := (List.pairwise_cons.mp (List.pairwise_append.mp ascending).2.1).1 k mem
          omega

namespace Session

variable {s s' : Session} {i : Nat}

/-! ## Awaiting the workers -/

/-- Whoever closes the set has something to do, or waits for a worker that is there; the workers
it passed are gone, and no event is offered any more. -/
structure Closes (s : Session) : Prop where
  begun : s.closing = some .begun → s.tasks.IsDue .closer
  isOpen : s.fanout.isOpen = true → s.closing = none ∨ s.closing = some .begun
  awaits : ∀ i, s.closing = some (.awaiting i) →
    s.tasks.IsDue .closer ∨ s.fanout.gone[i]? = some false
  passed : ∀ i, s.closing = some (.awaiting i) → ∀ j < i, s.fanout.gone[j]? ≠ some false
  finished : s.closing = some .finished → ∀ j : Nat, s.fanout.gone[j]? ≠ some false

/-- What keeps the closing as it is: nobody comes back, and whoever is awaited and goes wakes the
one who closes the set. -/
theorem Closes.kept (closes : s.Closes) (closing : s'.closing = s.closing)
    (isOpen : s'.fanout.isOpen = s.fanout.isOpen)
    (due : s.tasks.IsDue .closer → s'.tasks.IsDue .closer)
    (gone : ∀ j : Nat, s'.fanout.gone[j]? = some false → s.fanout.gone[j]? = some false)
    (stays : ∀ i, s.closing = some (.awaiting i) → s.fanout.gone[i]? = some false →
      s'.tasks.IsDue .closer ∨ s'.fanout.gone[i]? = some false) : s'.Closes := by
  refine ⟨fun begun => ?_, fun now => ?_, fun i awaiting => ?_, fun i awaiting j lt => ?_,
    fun finished j => ?_⟩
  · rw [closing] at begun
    exact due (closes.begun begun)
  · rw [isOpen] at now
    rw [closing]
    exact closes.isOpen now
  · rw [closing] at awaiting
    rcases closes.awaits i awaiting with now | waits
    · exact Or.inl (due now)
    · exact stays i awaiting waits
  · rw [closing] at awaiting
    exact mt (gone j) (closes.passed i awaiting j lt)
  · rw [closing] at finished
    exact mt (gone j) (closes.finished finished j)

/-- Where the same workers are gone, the closing is kept. -/
theorem Closes.same (closes : s.Closes) (closing : s'.closing = s.closing)
    (isOpen : s'.fanout.isOpen = s.fanout.isOpen)
    (due : s.tasks.IsDue .closer → s'.tasks.IsDue .closer)
    (gone : s'.fanout.gone = s.fanout.gone) : s'.Closes :=
  closes.kept closing isOpen due (fun _ waits => gone ▸ waits)
    fun _ _ waits => Or.inr (gone.symm ▸ waits)

theorem Closes.release (closes : s.Closes) (j times : Nat) :
    (s.move (.release j times)).Closes := by
  refine closes.same rfl rfl (fun due => ?_) (s.fanout.gone_release j times)
  show Scheduler.IsDue (if _ then _ else _) _
  split
  · exact Scheduler.isDue_wake.mpr (Or.inl due)
  · exact due

theorem Closes.beginClosing (s : Session) :
    Closes { s with closing := some .begun, tasks := s.tasks.wake .closer } :=
  ⟨fun _ => Scheduler.isDue_wake.mpr (Or.inr rfl), fun _ => Or.inr rfl, nofun, nofun, nofun⟩

/-- The one who closes the set awaits the workers from the one it waited for on. -/
theorem Closes.close (closes : s.Closes) (turn : s.tasks.running = some .closer) :
    s.close.Closes := by
  unfold Session.close
  split
  · have due : (s.tasks.wakeAll (s.fanout.wokenByClose.map .worker)).IsDue .closer :=
      Scheduler.isDue_wakeAll.mpr (Or.inl (Or.inl turn))
    refine ⟨nofun, nofun, fun _ _ => Or.inl due, fun i awaiting j lt => ?_, nofun⟩
    cases awaiting
    exact absurd lt (Nat.not_lt_zero j)
  · rename_i i awaiting
    have closed : s.fanout.isOpen ≠ true := by
      intro now
      rcases closes.isOpen now with closing | closing <;> cases awaiting.symm.trans closing
    rcases s.fanout.awaitFrom_cases i with ⟨j, next, waits, between⟩ | ⟨next, all⟩
    · rw [next]
      refine ⟨nofun, fun now => absurd now closed, fun k awaiting => ?_, fun k awaits' l lt => ?_,
        nofun⟩
      · cases awaiting
        exact Or.inr waits
      · cases awaits'
        rcases Nat.lt_or_ge l i with before | from'
        · exact closes.passed i awaiting l before
        · exact between l from' lt
    · rw [next]
      refine ⟨nofun, fun now => absurd now closed, nofun, nofun, fun _ l => ?_⟩
      rcases Nat.lt_or_ge l i with before | from'
      · exact closes.passed i awaiting l before
      · exact all l from'
  · rename_i begun awaiting
    refine ⟨fun now => absurd now begun, closes.isOpen, fun i now => absurd now (awaiting i),
      fun i now => absurd now (awaiting i), closes.finished⟩

/-- A worker that is awaited wakes the one who closes the set when it goes. -/
theorem isDue_closer_work (awaiting : s.closing = some (.awaiting i))
    (gone : (s.fanout.work i).2.2 = .over) : (s.work i).tasks.IsDue .closer := by
  unfold work
  dsimp only
  rw [gone]
  unfold workerGone
  dsimp only
  rw [if_pos awaiting]
  exact Or.inr (Scheduler.mem_ready_wake.mpr (Or.inr rfl))

theorem Closes.work (closes : s.Closes) (turn : s.tasks.running = some (.worker i)) :
    (s.work i).Closes := by
  have gone := s.fanout.gone_work i
  refine closes.kept (closing_work s i) ?_ (fun due => ?_) (fun j waits => ?_)
    fun j awaiting waits => ?_
  · rw [fanout_work, Fanout.work_isOpen]
  · exact Or.inr ((tasks_work s i).1 _ (due.inLine turn (by simp)))
  · rw [fanout_work, gone] at waits
    split at waits
    · rw [List.getElem?_set] at waits
      split at waits
      · split at waits <;> cases waits
      · exact waits
    · exact waits
  · rw [fanout_work, gone]
    split
    · rename_i «over»
      by_cases own : i = j
      · subst own
        exact Or.inl (isDue_closer_work awaiting «over»)
      · exact Or.inr ((List.getElem?_set_ne own).trans waits)
    · exact Or.inr waits

theorem Closes.move (closes : s.Closes) (mv : Move) : (s.move mv).Closes := by
  have moves := s.moves mv
  generalize s.move mv = s' at moves ⊢
  cases moves with
  | offered e =>
      exact closes.same rfl rfl (fun due => Scheduler.isDue_wakeAll.mpr (Or.inl due))
        (s.fanout.gone_offer e)
  | released i times => exact closes.release i times
  | begun => exact .beginClosing s
  | looked => exact closes.same rfl rfl id s.fanout.gone_look
  | worked i turn => exact closes.work turn
  | closed turn => exact closes.close turn
  | taken idle tasks next =>
      exact closes.same rfl rfl (Scheduler.isDue_of_next? next idle).mpr rfl
  | unoffered | unbegun | rested => exact closes

/-- What is true at every point of every run: the workers are due wherever something is left for
them to do, and so is the one who closes the set. -/
structure Orderly (s : Session) : Prop where
  tended : s.Tended
  closes : s.Closes

theorem Orderly.play (orderly : s.Orderly) (ms : List Move) : (s.play ms).Orderly := by
  induction ms generalizing s with
  | nil => exact orderly
  | cons mv ms ih => exact ih ⟨orderly.tended.move mv, orderly.closes.move mv⟩

theorem orderly_raw (subscribers : List Subscriber) (busCapacity : Nat) :
    (raw subscribers busCapacity).Orderly :=
  ⟨tended_play subscribers busCapacity [], nofun, fun _ => Or.inl rfl, nofun, nofun, nofun⟩

/-- A set just made, before its workers first ran or after that. -/
def made (ran : Bool) (subscribers : List Subscriber) (busCapacity : Nat) : Session :=
  if ran then start subscribers busCapacity else raw subscribers busCapacity

theorem orderly_made (ran : Bool) (subscribers : List Subscriber) (busCapacity : Nat) :
    (made ran subscribers busCapacity).Orderly := by
  have fresh := orderly_raw subscribers busCapacity
  unfold made
  split
  · rw [start_eq_play]
    exact fresh.play _
  · exact fresh

theorem Orderly.observe (orderly : s.Orderly) (c : Command) : (s.observe c).1.Orderly := by
  rw [observe_eq_play]
  exact orderly.play _

theorem isSettled_settle (s : Session) : s.settle.tasks.isSettled = true :=
  settles_in_time (Nat.le_refl _)

/-- Where no task can go on and somebody closes the set, that is over exactly when every worker is
gone. -/
theorem Closes.finished_iff (closes : s.Closes) (settled : s.tasks.isSettled = true)
    (closing : s.closing.isSome = true) :
    s.closing = some .finished ↔ ∀ i : Nat, s.fanout.gone[i]? ≠ some false := by
  have notDue := Scheduler.not_isDue_of_isSettled settled (t := Task.closer)
  refine ⟨closes.finished, fun all => ?_⟩
  obtain ⟨c, eq⟩ := Option.isSome_iff_exists.mp closing
  cases c with
  | begun => exact absurd (closes.begun eq) notDue
  | awaiting i =>
      rcases closes.awaits i eq with due | waits
      · exact absurd due notDue
      · exact absurd waits (all i)
  | finished => exact eq

end Session

end Fanout

end Flotilla
