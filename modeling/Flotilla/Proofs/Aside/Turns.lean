import Flotilla.Proofs.Aside
import Flotilla.Proofs.Feeds

/-!
# Turns that are left out

Two fleets that differ in what is left out have different turns: one may have a turn that the other
has not, and what they have in common they have at different times. As long as every turn that is
left out makes no difference, and every other turn is the same on both sides (`Fleet.Meets`), both
are the same again once nothing can go on (`Fleet.Meets.rest`), whatever number of turns it took
each of them.
-/

namespace Flotilla

namespace Scheduler

variable {τ : Type} {hidden : τ → Bool} {s s' : Scheduler τ} {t : τ}

theorem shown_next_of_hidden (idle : s.running = none) (first : s.ready = t :: s'.ready)
    (turn : s'.running = some t) (is : hidden t = true) : s'.shown hidden = s.shown hidden := by
  simp [shown, idle, first, turn, is]

theorem shown_of_first (idle : s.running = none) (first : s.ready = t :: s'.ready)
    (isnt : hidden t = false) :
    s.shown hidden = (t :: s'.ready.filter fun t => !hidden t, none) := by
  simp [shown, idle, first, isnt]

theorem shown_of_hidden (turn : s.running = some t) (is : hidden t = true) :
    (s.shown hidden).2 = none := by
  simp [shown, turn, is]

theorem shown_of_turn (turn : s.running = some t) (isnt : hidden t = false) :
    s.shown hidden = (s.ready.filter fun t => !hidden t, some t) := by
  simp [shown, turn, isnt]

end Scheduler

namespace Fleet

variable {a : Aside} {R : Fleet → Fleet → Prop} {hides : Fleet → Task → Bool} {f g : Fleet}
  {m i : Nat} {t : Task}

/-! ## Listeners and workers -/

namespace SameBut

theorem idle_of_hidden (same : SameBut a f g) (turn : g.tasks.running = some t)
    (is : a.hides t = true) : (f.tasks.shown a.hides).2 = none := by
  rw [← same.tasks]
  exact Scheduler.shown_of_hidden turn is

variable (same : SameBut a f g) (turn : (f.tasks.shown a.hides).2 = none)

include same turn

theorem stepListener_right (m : Nat) : SameBut a f (g.stepListener m) := by
  have changed := fun h => same.modifyRelay_right m h
  unfold Fleet.stepListener
  split
  · exact same.park_right turn
  · dsimp only
    split
    · split
      · refine (((changed _).modifyRelay_right m _).wakeAll_worker_right m _).publishAll_right
          (fun e mem => ?_) m
        simp [Aside.hears, Fanout.kind_overflows mem, EventKind.isDiagnostic]
      · exact (changed _).say_right _ _ _ _
      · unfold listenerRests
        split
        · exact ((changed _).modifyRelay_right m _).park_right turn
        · exact (changed _).modifyRelay_right m _
    · exact (changed _).wakeAll_worker_right m _
    · exact (changed _).park_right turn
    · exact same.park_right turn
    · exact same.park_right turn

theorem stepWorker_right (m i : Nat) : SameBut a f (g.stepWorker m i) := by
  unfold Fleet.stepWorker
  split
  · exact same.park_right turn
  · rename_i relay _
    have quiet : ∀ e ∈ (relay.fanout.work i).2.1.toList, a.hears e = false := fun e mem => by
      simp [Aside.hears, Fanout.kind_report mem, EventKind.isDiagnostic]
    generalize relay.fanout.work i = worked at quiet ⊢
    obtain ⟨fanout, report, pace⟩ := worked
    have told := (same.modifyRelay_right m fun r => { r with fanout }).publishAll_right quiet m
    cases pace with
    | again => exact told
    | waits => exact told.park_right turn
    | «over» =>
        refine park_right ?_ turn
        unfold workerGone
        split
        · exact told.wake_right rfl
        · exact told

/-- A turn of a listener or a worker makes no difference. -/
theorem stepTask_right (relay : t.isRelay = true) : SameBut a f (g.stepTask t) := by
  cases t with
  | listener m => exact same.stepListener_right turn m
  | worker m i => exact same.stepWorker_right turn m i
  | bot | wait | dismissal => cases relay

end SameBut

/-! ## The owner -/

theorem SameBut.releaseSubscriber_right (same : SameBut a f g) (m i times : Nat) :
    SameBut a f (g.releaseSubscriber m i times) := by
  unfold Fleet.releaseSubscriber
  split
  · exact same
  · dsimp only
    split
    · exact (same.modifyRelay_right m _).wake_right rfl
    · exact same.modifyRelay_right m _

theorem SameBut.look_right (same : SameBut a f g) : SameBut a f (g.move .look) := by
  refine { same with managers := fun m => ?_, told := fun m => ?_, count := ?_ }
  · rw [manager_look]
    rw [same.managers m]
    rfl
  · rw [manager_look]
    exact same.told m
  · simp [Fleet.move, same.count]

/-! ## Until nothing can go on -/

/-- The first in line gets its turn, or the line is as it was. -/
def CallsUp (f : Fleet) (tasks : Scheduler Task) : Prop :=
  tasks = f.tasks ∨ f.tasks.running = none ∧ f.tasks.next? = some tasks

/-- A relation that is kept in every turn, where some tasks are hidden: what these do on one side
makes no difference, and the others have their turns in the same order on both sides. -/
structure Meets (hides : Fleet → Task → Bool) (R : Fleet → Fleet → Prop) : Prop where
  symm : ∀ {f g}, R f g → R g f
  hidden : ∀ {f g}, R f g → hides g = hides f
  shown : ∀ {f g}, R f g → g.tasks.shown (hides f) = f.tasks.shown (hides f)
  apart : ∀ {f g t}, R f g → g.tasks.running = some t → hides f t = true → R f (g.stepTask t)
  together : ∀ {f g t}, R f g → f.tasks.running = some t → g.tasks.running = some t →
    hides f t = false → R (f.stepTask t) (g.stepTask t)
  turn : ∀ {f g x y}, R f g → f.CallsUp x → g.CallsUp y → y.shown (hides f) = x.shown (hides f) →
    R { f with tasks := x } { g with tasks := y }

theorem step?_of_running (turn : f.tasks.running = some t) : f.step? = some (f.stepTask t) := by
  rw [step?, turn]

theorem step?_of_next {tasks : Scheduler Task} (idle : f.tasks.running = none)
    (next : f.tasks.next? = some tasks) : f.step? = some { f with tasks } := by
  rw [step?, idle, next]
  rfl

theorem step?_of_settled (settled : f.tasks.isSettled = true) : f.step? = none := by
  obtain ⟨ready, running⟩ := Bool.and_eq_true_iff.mp settled
  rw [step?, Option.isNone_iff_eq_none.mp running]
  dsimp only
  rw [Scheduler.next?_eq_none_iff.mpr (List.isEmpty_iff.mp ready)]
  rfl

/-- A settling that ends makes every step there is. -/
theorem runToRest_of_step {n : Nat} (settled : (runToRest step? n f).tasks.isSettled = true)
    (on : f.step? = some g) : ∃ n₀, n = n₀ + 1 ∧ runToRest step? n f = runToRest step? n₀ g := by
  cases n with
  | zero =>
      rw [runToRest] at settled
      cases (step?_of_settled settled).symm.trans on
  | succ n => exact ⟨n, rfl, by rw [runToRest, on]⟩

/-- What comes next in a fleet, if it is no turn that is hidden. -/
inductive Ahead (hidden : Task → Bool) (f : Fleet) : Prop
  | rests (last : f.step? = none) (shown : f.tasks.shown hidden = ([], none))
  | runs {t : Task} (turn : f.tasks.running = some t) (isnt : hidden t = false)
    (shown : f.tasks.shown hidden = (f.tasks.ready.filter fun t => !hidden t, some t))
  | calls {t : Task} {tasks : Scheduler Task} (idle : f.tasks.running = none)
    (next : f.tasks.next? = some tasks)
    (shown : f.tasks.shown hidden = (t :: tasks.ready.filter fun t => !hidden t, none))
    (shown' : tasks.shown hidden = (tasks.ready.filter fun t => !hidden t, some t))

namespace Meets

variable (meets : Meets hides R)

include meets

/-- A turn that is hidden makes no difference. -/
theorem stepApart (same : R f g) :
    (∃ g', g.step? = some g' ∧ R f g') ∨ g.Ahead (hides f) := by
  cases turn : g.tasks.running with
  | some t =>
      cases is : hides f t with
      | true => exact Or.inl ⟨_, step?_of_running turn, meets.apart same turn is⟩
      | false => exact Or.inr (.runs turn is (Scheduler.shown_of_turn turn is))
  | none =>
      cases next : g.tasks.next? with
      | none =>
          refine Or.inr (.rests (by rw [step?, turn, next]; rfl) ?_)
          simp [Scheduler.shown, turn, Scheduler.next?_eq_none_iff.mp next]
      | some tasks =>
          obtain ⟨t, first, turn'⟩ := Scheduler.exists_of_next? next
          cases is : hides f t with
          | true =>
              refine Or.inl ⟨_, step?_of_next turn next,
                meets.turn same (Or.inl rfl) (Or.inr ⟨turn, next⟩) ?_⟩
              exact (Scheduler.shown_next_of_hidden turn first turn' is).trans (meets.shown same)
          | false =>
              exact Or.inr (.calls turn next (Scheduler.shown_of_first turn first is)
                (Scheduler.shown_of_turn turn' is))

/-- One side has a turn that is hidden, or both have the same turn, or nothing can go on. -/
theorem step (same : R f g) : (f.step? = none ∧ g.step? = none) ∨
    (∃ f', f.step? = some f' ∧ R f' g) ∨ (∃ g', g.step? = some g' ∧ R f g') ∨
      ∃ f' g', f.step? = some f' ∧ g.step? = some g' ∧ R f' g' := by
  rcases meets.stepApart (meets.symm same) with ⟨f', on, back⟩ | ahead
  · exact Or.inr (Or.inl ⟨f', on, meets.symm back⟩)
  rcases meets.stepApart same with on | ahead'
  · exact Or.inr (Or.inr (Or.inl on))
  rw [meets.hidden same] at ahead
  -- What comes next is seen in the line without those that are hidden.
  have shown := meets.shown same
  cases ahead with
  | rests last seen =>
      rw [seen] at shown
      cases ahead' with
      | rests last' _ => exact Or.inl ⟨last, last'⟩
      | runs _ _ seen' => exact nomatch congrArg Prod.snd (seen'.symm.trans shown)
      | calls _ _ seen' _ => cases seen'.symm.trans shown
  | @runs t turn isnt seen =>
      rw [seen] at shown
      cases ahead' with
      | rests _ seen' => exact nomatch congrArg Prod.snd (seen'.symm.trans shown)
      | @runs u turn' isnt' seen' =>
          obtain rfl : u = t := Option.some.inj (congrArg Prod.snd (seen'.symm.trans shown))
          exact Or.inr (Or.inr (Or.inr ⟨_, _, step?_of_running turn, step?_of_running turn',
            meets.together same turn turn' isnt⟩))
      | calls _ _ seen' _ => exact nomatch congrArg Prod.snd (seen'.symm.trans shown)
  | @calls t tasks idle next seen seenNext =>
      rw [seen] at shown
      cases ahead' with
      | rests _ seen' => cases seen'.symm.trans shown
      | runs _ _ seen' => exact nomatch congrArg Prod.snd (seen'.symm.trans shown)
      | @calls u tasks' idle' next' seen' seenNext' =>
          obtain ⟨rfl, rest⟩ := List.cons.inj (congrArg Prod.fst (seen'.symm.trans shown))
          refine Or.inr (Or.inr (Or.inr ⟨_, _, step?_of_next idle next, step?_of_next idle' next',
            meets.turn same (Or.inr ⟨idle, next⟩) (Or.inr ⟨idle', next'⟩) ?_⟩))
          rw [seenNext, seenNext', rest]

/-- When nothing can go on any more, the two sides are the same again. -/
theorem rest (same : R f g) {n n' : Nat} (settled : (runToRest step? n f).tasks.isSettled = true)
    (settled' : (runToRest step? n' g).tasks.isSettled = true) :
    R (runToRest step? n f) (runToRest step? n' g) := by
  induction steps : n + n' using Nat.strongRecOn generalizing f g n n' with
  | ind k ih =>
    rcases meets.step same with ⟨last, last'⟩ | ⟨f', on, same⟩ | ⟨g', on, same⟩ |
      ⟨f', g', on, on', same⟩
    · rw [runToRest_of_none last, runToRest_of_none last']
      exact same
    · obtain ⟨n₀, rfl, eq⟩ := runToRest_of_step settled on
      rw [eq] at settled ⊢
      exact ih _ (by omega) same settled settled' rfl
    · obtain ⟨n₀, rfl, eq⟩ := runToRest_of_step settled' on
      rw [eq] at settled' ⊢
      exact ih _ (by omega) same settled settled' rfl
    · obtain ⟨n₀, rfl, eq⟩ := runToRest_of_step settled on
      obtain ⟨n₁, rfl, eq'⟩ := runToRest_of_step settled' on'
      rw [eq] at settled ⊢
      rw [eq'] at settled' ⊢
      exact ih _ (by omega) same settled settled' rfl

end Meets

end Fleet

end Flotilla
