import Flotilla.Proofs.Reach

/-!
# The course of a manager

`Step.course` sorts what a step may do to the phase of a manager, its start queue and its pool.
From it follows `View.Orderly`, which ties the three to the registry: the start queue is empty
once the manager was started, the pool is closed from the stop on, a manager that stops has
bots registered, and one that is done has none.
-/

namespace Flotilla

/-- What a step may do to the phase, the start queue and the pool of a manager. -/
inductive Course (L : Licence) (m : Nat) (v v' : View) : Prop
  | still (phase : v'.mgr.phase = v.mgr.phase) (closed : v'.mgr.closed = v.mgr.closed)
    (queue : v'.mgr.queue = v.mgr.queue ∨ v.mgr.phase = .new)
    (held : v.mgr.phase = .stopping → v.mgr.registry ≠ [] → v'.mgr.registry ≠ [])
  | begin (before : v.mgr.phase = .new) (after : v'.mgr.phase = .starting)
    (closed : v'.mgr.closed = v.mgr.closed) (queue : v'.mgr.queue = [])
  | run (before : v.mgr.phase = .starting) (after : v'.mgr.phase = .running)
    (closed : v'.mgr.closed = v.mgr.closed) (queue : v'.mgr.queue = v.mgr.queue)
  | stop (licensed : L.stops m) (before : v.mgr.phase = .running)
    (after : v'.mgr.phase = .stopping ∧ v'.mgr.registry ≠ [] ∨
      v'.mgr.phase = .terminated ∧ v'.mgr.registry = [])
    (closed : v'.mgr.closed = true) (queue : v'.mgr.queue = v.mgr.queue)
    (woken : ∀ id ∈ v.mgr.slotWaiters, Task.bot ⟨m, id⟩ ∈ v'.line)
  | finish (before : v.mgr.phase = .stopping) (after : v'.mgr.phase = .terminated)
    (closed : v'.mgr.closed = v.mgr.closed) (queue : v'.mgr.queue = v.mgr.queue)
    (empty : v'.mgr.registry = [])
    (left : ∃ id l l', v.launch? id = some l ∧ l.registered = true ∧
      v'.launch? id = some l' ∧ l'.registered = false)

variable {L : Licence} {m : Nat} {v v' : View}

/-! ## Registered launches -/

namespace View

theorem registry_ne_nil_iff :
    v.mgr.registry ≠ [] ↔ ∃ id l, v.launch? id = some l ∧ l.registered = true := by
  rw [Ne, registry_eq_nil_iff]
  push Not
  simp

/-- The registry as far as it is empty or not depends on who is registered only. -/
theorem registry_ne_nil_of_map {g : Nat → Launch → Launch}
    (same : ∀ id, v'.launch? id = (v.launch? id).map (g id))
    (kept : ∀ id l, (g id l).registered = l.registered) (held : v.mgr.registry ≠ []) :
    v'.mgr.registry ≠ [] := by
  obtain ⟨id, l, found, registered⟩ := registry_ne_nil_iff.mp held
  exact registry_ne_nil_iff.mpr
    ⟨id, g id l, by rw [same, found, Option.map_some], (kept id l).trans registered⟩

end View

theorem Course.of_mgr (same : v'.mgr = v.mgr) : Course L m v v' :=
  .still (by rw [same]) (by rw [same]) (Or.inl (by rw [same])) fun _ => by rw [same]; exact id

/-- What a step may do to the phase, the start queue and the pool is sorted. -/
theorem Step.course (h : Step L m v v') : Course L m v v' := by
  cases h with
  | tell | report => exact .still rfl rfl (Or.inl rfl) fun _ => id
  | enqueue licensed isNew => exact .still rfl rfl (Or.inr isNew) fun _ => id
  | begin licensed isNew => exact .begin isNew rfl rfl rfl
  | launch licensed launching isOpen mute =>
      refine .still ?_ ?_ (Or.inl ?_) fun stopping => ?_
      · rw [View.launch_mgr]
      · rw [View.launch_mgr]
      · rw [View.launch_mgr]
      · rw [stopping] at launching
        simp at launching
  | launchLate licensed launching isClosed =>
      refine .still rfl rfl (Or.inl rfl) fun stopping => ?_
      rw [stopping] at launching
      simp at launching
  | run licensed isStarting named => exact .run isStarting rfl rfl rfl
  | @stop asked licensed isRunning sorted registered =>
      have registry : (v.stop m asked).mgr.registry = v.mgr.registry := by
        rw [View.stop_mgr]
        rfl
      obtain ⟨empty, held⟩ := View.stop_phase v m asked
      refine .stop licensed isRunning ?_ ?_ ?_ fun id mem => View.mem_line_stop mem m asked
      · rw [registry]
        by_cases none : v.mgr.registry = []
        · exact Or.inr ⟨empty none, none⟩
        · exact Or.inl ⟨held none, none⟩
      · rw [View.stop_mgr]
      · rw [View.stop_mgr]
  | nudge | nudgeWait | spawn | mark | signal => exact .of_mgr (View.wake_mgr _ _)
  | next | elsewhere | park | listen | poll | settle => exact .of_mgr rfl
  | @permit id l heeds found waits =>
      refine .still ?_ ?_ (Or.inl ?_) fun _ held => ?_
      · rw [View.wake_mgr]
        rfl
      · rw [View.wake_mgr]
        rfl
      · rw [View.wake_mgr]
        rfl
      · rw [View.wake_mgr]
        refine View.registry_ne_nil_of_map (View.launch?_setStage v id · _) (fun j l => ?_) held
        split <;> rfl
  | @lineUp id l p acts turn found first isOpen slots full =>
      refine .still rfl rfl (Or.inl rfl) fun _ held => ?_
      refine View.registry_ne_nil_of_map (View.launch?_setStage (v.setSlots _) id · _)
        (fun j l => ?_) held
      split <;> rfl
  | @enter id l calls acts licensed turn found can =>
      obtain ⟨slots, taken⟩ := v.exists_takeSlot id
      rw [taken]
      refine .still rfl rfl (Or.inl rfl) fun _ held => ?_
      have marked : ((v.setSlots slots).markAdmitted id).mgr.registry ≠ [] := by
        refine View.registry_ne_nil_of_map (View.launch?_modifyLaunch (v.setSlots slots) id · _)
          (fun j l => ?_) held
        split <;> rfl
      refine View.registry_ne_nil_of_map (View.launch?_setStage _ id · _) (fun j l => ?_) marked
      split <;> rfl
  | @proceed id l stage acts turn found inRun goal =>
      refine .still rfl rfl (Or.inl rfl) fun _ held => ?_
      refine View.registry_ne_nil_of_map (View.launch?_setStage v id · _) (fun j l => ?_) held
      split <;> rfl
  | @leave id l ran outcome acts turn found mute ends why =>
      have closed : (v.leave m id ran outcome).mgr.closed = v.mgr.closed := by rw [View.leave_mgr]
      have queue : (v.leave m id ran outcome).mgr.queue = v.mgr.queue := by rw [View.leave_mgr]
      obtain ⟨ends, goesOn⟩ := View.leave_phase v m id ran outcome
      rw [View.getD_launches found] at ends goesOn
      have launches := View.launch?_leave v m id ran outcome
      by_cases last : outcome.isSome = true ∧ l.registered = true ∧ v.mgr.phase = .stopping ∧
          (v.leave m id ran outcome).mgr.registry = []
      · refine .finish last.2.2.1 (ends last) closed queue last.2.2.2
          ⟨id, l, _, found, last.2.1, by rw [launches, found, Option.map_some, if_pos rfl], ?_⟩
        simp [Option.isNone_eq_false_iff.mpr last.1]
      · refine .still (goesOn last) closed (Or.inl queue) fun stopping held => ?_
        by_cases left : outcome.isSome = true ∧ l.registered = true
        · exact fun empty => last ⟨left.1, left.2, stopping, empty⟩
        · obtain ⟨j, l', found', registered⟩ := View.registry_ne_nil_iff.mp held
          refine View.registry_ne_nil_iff.mpr ⟨j, _, by rw [launches, found', Option.map_some], ?_⟩
          by_cases same : j = id
          · subst same
            cases found.symm.trans found'
            rw [if_pos rfl]
            cases outcome with
            | none => simpa using registered
            | some outcome => exact absurd ⟨rfl, registered⟩ left
          · rw [if_neg same]
            split <;> exact registered

/-! ## Order -/

namespace View

/-- Phase, start queue, pool and registry of a manager fit together. -/
structure Orderly (v : View) : Prop where
  queue : v.mgr.queue = [] ∨ v.mgr.phase = .new
  closed : v.mgr.closed = true ↔ v.mgr.phase = .stopping ∨ v.mgr.phase = .terminated
  fresh : v.mgr.phase = .new → v.mgr.registry = []
  held : v.mgr.phase = .stopping → v.mgr.registry ≠ []
  empty : v.mgr.phase = .terminated → v.mgr.registry = []

/-- The pool of a manager that registers bots is open. -/
theorem Orderly.isOpen (orderly : v.Orderly)
    (goesOn : v.mgr.phase = .new ∨ v.mgr.phase = .running) : v.mgr.closed = false := by
  rw [← Bool.not_eq_true]
  refine mt orderly.closed.mp ?_
  rcases goesOn with isNew | isRunning
  · rw [isNew]
    nofun
  · rw [isRunning]
    nofun

end View

/-- While a manager is new or done nobody comes into its registry. -/
theorem Step.registry_of_idle (h : Step L m v v')
    (idle : v.mgr.phase = .new ∨ v.mgr.phase = .terminated) (empty : v.mgr.registry = []) :
    v'.mgr.registry = [] := by
  rw [View.registry_eq_nil_iff] at empty ⊢
  intro id l' found'
  rcases h.origin found' with ⟨l, found, change⟩ | ⟨-, fresh⟩
  · cases registered : l'.registered with
    | false => rfl
    | true =>
        have was := change.registered registered
        rw [empty id l found] at was
        cases was
  · cases fresh with
    | launched launching | late launching =>
        rcases idle with idle | idle <;> rw [idle] at launching <;> simp at launching

theorem Step.orderly (h : Step L m v v') (orderly : v.Orderly) : v'.Orderly := by
  cases h.course with
  | still phase closed queue held =>
      refine ⟨?_, by rw [phase, closed]; exact orderly.closed, fun isNew => ?_, fun stops => ?_,
        fun done => ?_⟩
      · rw [phase]
        rcases queue with same | isNew
        · rw [same]
          exact orderly.queue
        · exact Or.inr isNew
      · rw [phase] at isNew
        exact h.registry_of_idle (Or.inl isNew) (orderly.fresh isNew)
      · rw [phase] at stops
        exact held stops (orderly.held stops)
      · rw [phase] at done
        exact h.registry_of_idle (Or.inr done) (orderly.empty done)
  | begin before after closed queue =>
      have isOpen := mt orderly.closed.mp (by rw [before]; simp)
      refine ⟨Or.inl queue, ?_, ?_, ?_, ?_⟩
      · rw [closed, after]
        simp [isOpen]
      all_goals
        rw [after]
        nofun
  | run before after closed queue =>
      have isOpen := mt orderly.closed.mp (by rw [before]; simp)
      refine ⟨?_, ?_, ?_, ?_, ?_⟩
      · rw [queue, after]
        exact orderly.queue.imp_right fun isNew => by rw [before] at isNew; cases isNew
      · rw [closed, after]
        simp [isOpen]
      all_goals
        rw [after]
        nofun
  | stop licensed before after closed queue woken =>
      have taken : v'.mgr.queue = [] := by
        rw [queue]
        apply orderly.queue.resolve_right
        rw [before]
        nofun
      rcases after with ⟨after, held⟩ | ⟨after, empty⟩
      · exact ⟨Or.inl taken, by rw [closed, after]; simp, by rw [after]; nofun, fun _ => held,
          by rw [after]; nofun⟩
      · exact ⟨Or.inl taken, by rw [closed, after]; simp, by rw [after]; nofun,
          by rw [after]; nofun, fun _ => empty⟩
  | finish before after closed queue empty left =>
      have isClosed := orderly.closed.mpr (Or.inl before)
      refine ⟨Or.inl ?_, by rw [closed, after]; simp [isClosed], by rw [after]; nofun,
        by rw [after]; nofun, fun _ => empty⟩
      rw [queue]
      apply orderly.queue.resolve_right
      rw [before]
      nofun

/-- Phases only go forward. -/
theorem Step.phase_le (h : Step L m v v') : v.mgr.phase.rank ≤ v'.mgr.phase.rank := by
  cases h.course with
  | still phase => exact Nat.le_of_eq (congrArg Phase.rank phase).symm
  | begin before after | run before after | finish before after =>
      rw [before, after]
      decide
  | stop _ before after =>
      rw [before]
      rcases after with ⟨after, -⟩ | ⟨after, -⟩ <;> (rw [after]; decide)

/-! ## The pool -/

/-- A pool that is closed stays closed. -/
theorem Step.closed (h : Step L m v v') (isClosed : v.mgr.closed = true) :
    v'.mgr.closed = true := by
  cases h.course with
  | still phase closed | begin before after closed | run before after closed
  | finish before after closed => rw [closed, isClosed]
  | stop licensed before after closed => exact closed

/-- When the pool is closed the launches that wait for a slot are woken. -/
theorem Step.closes (h : Step L m v v') :
    v'.mgr.closed = v.mgr.closed ∨
      ∀ id ∈ v.mgr.slotWaiters, Task.bot ⟨m, id⟩ ∈ v'.line := by
  cases h.course with
  | still phase closed | begin before after closed | run before after closed
  | finish before after closed => exact Or.inl closed
  | stop licensed before after closed queue woken => exact Or.inr woken

/-! ## Many steps -/

/-- Where nothing is stopped a pool that is open stays open. -/
theorem Steps.stops_of_closes {v v' : View} (h : Steps L m v v') (isOpen : v.mgr.closed = false)
    (closed : v'.mgr.closed = true) : L.stops m := by
  induction h with
  | refl =>
      rw [isOpen] at closed
      cases closed
  | @tail x y _ step ih =>
      cases was : x.mgr.closed with
      | true => exact ih was
      | false =>
          cases step.course with
          | still phase same | begin before after same | run before after same
          | finish before after same =>
              rw [same, was] at closed
              cases closed
          | stop licensed => exact licensed

theorem Steps.closed {v v' : View} (h : Steps L m v v') (isClosed : v.mgr.closed = true) :
    v'.mgr.closed = true :=
  h.invariant Step.closed isClosed

theorem Steps.phase_le (h : Steps L m v v') : v.mgr.phase.rank ≤ v'.mgr.phase.rank := by
  induction h with
  | refl => exact Nat.le_refl _
  | tail _ step ih => exact Nat.le_trans ih step.phase_le

/-- Whoever is registered once a pool was closed was registered when it was closed. -/
theorem Steps.registered_of_closed (h : Steps L m v v') (isClosed : v.mgr.closed = true)
    {id : Nat} {l' : Launch} (found' : v'.launch? id = some l')
    (registered : l'.registered = true) :
    ∃ l, v.launch? id = some l ∧ l.registered = true := by
  induction h generalizing l' with
  | refl => exact ⟨l', found', registered⟩
  | tail before step ih =>
      rcases step.origin found' with ⟨l, found, change⟩ | ⟨-, fresh⟩
      · exact ih found (change.registered registered)
      · cases fresh with
        | launched launching isOpen mute =>
            rw [Steps.closed before isClosed] at isOpen
            cases isOpen
        | late launching => cases registered

/-- A manager that stops comes to its end when a registered bot leaves. -/
theorem Steps.finishes (h : Steps L m v v') (orderly : v.Orderly)
    (before : v.mgr.phase = .stopping) (after : v'.mgr.phase = .terminated) :
    ∃ id l l', v.launch? id = some l ∧ l.registered = true ∧
      v'.launch? id = some l' ∧ l'.registered = false := by
  induction h with
  | refl =>
      rw [before] at after
      cases after
  | @tail x y steps step ih =>
      by_cases was : x.mgr.phase = .terminated
      · obtain ⟨id, l, l', found, registered, found', left⟩ := ih was
        obtain ⟨l'', found'', change⟩ := step.change found'
        refine ⟨id, l, l'', found, registered, found'', ?_⟩
        cases back : l''.registered with
        | false => rfl
        | true =>
            rw [change.registered back] at left
            cases left
      · have isClosed := orderly.closed.mpr (Or.inl before)
        have closed := (Steps.invariant steps Step.orderly orderly).closed.mp
          (Steps.closed steps isClosed)
        have stops : x.mgr.phase = .stopping := closed.resolve_right was
        cases step.course with
        | still phase => exact absurd (phase.symm.trans after) was
        | begin first | run first | stop _ first =>
            rw [stops] at first
            cases first
        | finish first _ closed queue empty left =>
            obtain ⟨id, l, l', found, registered, found', out⟩ := left
            obtain ⟨l₀, found₀, registered₀⟩ :=
              Steps.registered_of_closed steps isClosed found registered
            exact ⟨id, l₀, l', found₀, registered₀, found', out⟩

end Flotilla
