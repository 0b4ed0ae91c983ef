import Flotilla.Proofs.ViewFields

/-!
# What a step does to one launch

`Step.change` sorts what a step may do to a launch that exists before it. Whatever is said of a
single launch over a whole run (its bot stays the same, a task that is over stays over, a
launch that is not admitted before the pool is closed never is) follows from it.
-/

namespace Flotilla

namespace Stage

/-- Whether a launch of this stage was never given a slot. -/
def isWaitingForSlot : Stage → Bool
  | .submitted | .queued => true
  | _ => false

end Stage

/-- What a step may do to a launch. -/
inductive Change (L : Licence) (m : Nat) (v : View) (id : Nat) (l : Launch) : Launch → Prop
  | same : Change L m v id l l
  | permit {heeds : Bool} (waits : l.stage = .waiting heeds) :
    Change L m v id l { l with stage := .permitted heeds }
  | lineUp (acts : L.acts) (turn : v.running = some (.bot ⟨m, id⟩))
    (first : l.stage = .submitted) : Change L m v id l { l with stage := .queued }
  | offer (acts : L.acts) (first : v.offeree = some id) :
    Change L m v id l { l with stage := .offered }
  | enter {calls : List Call} (acts : L.acts) (licensed : L.runs ⟨m, id⟩)
    (turn : v.running = some (.bot ⟨m, id⟩)) (can : v.CanEnter l) :
    Change L m v id l { l with stage := .calling calls, admitted := true }
  | proceed {stage : Stage} (acts : L.acts) (turn : v.running = some (.bot ⟨m, id⟩))
    (inRun : l.stage.isInRun = true) (goal : stage.isInRun = true) :
    Change L m v id l { l with stage }
  | leave {ran : Bool} {outcome : Option RunOutcome} (acts : L.acts)
    (turn : v.running = some (.bot ⟨m, id⟩)) (mute : outcome = none → L.panics l.bot)
    (why : v.MayLeave l ran outcome (L.runs ⟨m, id⟩)) :
    Change L m v id l
      { l with
        stage := .over
        admitted := l.admitted || ran
        registered := l.registered && outcome.isNone }

variable {L : Licence} {m : Nat} {v v' : View} {id : Nat} {l : Launch}

theorem View.lt_of_launch? (found : v.launch? id = some l) : id < v.mgr.launches.length :=
  (List.getElem?_eq_some_iff.mp found).1

theorem View.getD_launches (found : v.launch? id = some l) :
    v.mgr.launches.getD id default = l := by
  rw [List.getD_eq_getElem?_getD]
  exact congrArg (·.getD default) found

/-- Every launch is still there after a step, and what happened to it is sorted. -/
theorem Step.change (h : Step L m v v') (found : v.launch? id = some l) :
    ∃ l', v'.launch? id = some l' ∧ Change L m v id l l' := by
  have kept {x : View} (eq : x.launch? id = v.launch? id) :
      ∃ l', x.launch? id = some l' ∧ Change L m v id l l' := ⟨l, eq.trans found, .same⟩
  cases h with
  | tell aside => exact kept rfl
  | report held => exact kept rfl
  | enqueue licensed isNew => exact kept rfl
  | begin licensed isNew => exact kept rfl
  | launch licensed launching isOpen mute =>
      apply kept
      rw [View.launch?_launch, if_neg (Nat.ne_of_lt (View.lt_of_launch? found))]
  | launchLate licensed launching isClosed =>
      exact kept (List.getElem?_append_left (View.lt_of_launch? found))
  | run licensed isStarting named => exact kept rfl
  | stop licensed isRunning sorted registered =>
      exact kept (View.launch?_stop _ _ _ _)
  | nudge found' begun => exact kept (View.launch?_wake _ _ _)
  | nudgeWait w => exact kept (View.launch?_wake _ _ _)
  | @permit id' l' heeds found' waits =>
      rw [View.launch?_wake, View.launch?_setStage, found, Option.map_some]
      by_cases eq : id' = id
      · subst eq
        rw [if_pos rfl]
        cases found.symm.trans found'
        exact ⟨_, rfl, .permit waits⟩
      · exact ⟨l, by rw [if_neg eq], .same⟩
  | next acts idle first => exact kept rfl
  | elsewhere acts idle away => exact kept rfl
  | park acts may => exact kept rfl
  | @lineUp id' l' p acts turn found' first isOpen slots full =>
      rw [View.launch?_setStage, View.launch?_setSlots, found, Option.map_some]
      by_cases eq : id' = id
      · subst eq
        rw [if_pos rfl]
        cases found.symm.trans found'
        exact ⟨_, rfl, .lineUp acts turn first⟩
      · exact ⟨l, by rw [if_neg eq], .same⟩
  | @enter id' l' calls acts licensed turn found' can =>
      rw [View.launch?_setStage, View.markAdmitted, View.launch?_modifyLaunch,
        View.launch?_takeSlot, found, Option.map_some, Option.map_some]
      by_cases eq : id' = id
      · subst eq
        cases found.symm.trans found'
        exact ⟨_, rfl, by simpa using Change.enter acts licensed turn can⟩
      · exact ⟨l, by simp [eq], .same⟩
  | @proceed id' l' stage acts turn found' inRun goal =>
      rw [View.launch?_setStage, found, Option.map_some]
      by_cases eq : id' = id
      · subst eq
        rw [if_pos rfl]
        cases found.symm.trans found'
        refine ⟨_, rfl, .proceed acts turn inRun ?_⟩
        rcases goal with ⟨calls, rfl⟩ | ⟨heeds, rfl⟩ <;> rfl
      · exact ⟨l, by rw [if_neg eq], .same⟩
  | @leave id' l' ran outcome acts turn found' mute ends why =>
      rw [View.launch?_leave, found, Option.map_some]
      by_cases eq : id = id'
      · subst eq
        rw [if_pos rfl]
        cases found.symm.trans found'
        exact ⟨_, rfl, .leave acts turn mute why⟩
      · rw [if_neg eq]
        by_cases next : v.successor id' = some id
        · rw [if_pos next]
          refine ⟨_, rfl, .offer acts ?_⟩
          unfold View.successor at next
          split at next
          · cases next
          · cases next
          · exact next
        · exact ⟨l, by rw [if_neg next], .same⟩
  | spawn acts fresh clamped => exact kept (View.launch?_wake _ _ _)
  | mark acts stage manager poll => exact kept (View.launch?_wake _ _ _)
  | listen acts turn found' first => exact kept rfl
  | signal acts found' listens => exact kept (View.launch?_wake _ _ _)
  | poll acts turn found' stopped => exact kept rfl
  | settle acts turn found' drained => exact kept rfl

/-! ## Where launches come from -/

/-- What a launch is like that came by a step. -/
inductive Fresh (L : Licence) (v : View) : Launch → Prop
  | launched {b : Nat} {named : Bool}
    (launching : v.mgr.phase = .starting ∨ v.mgr.phase = .running)
    (isOpen : v.mgr.closed = false)
    (mute : named = false → L.panics b ∧ v.mgr.phase = .starting) :
    Fresh L v { bot := b, registered := named }
  | late {b : Nat} (launching : v.mgr.phase = .starting ∨ v.mgr.phase = .running)
    (isClosed : v.mgr.closed = true) : Fresh L v { bot := b, stage := .over }

/-- A launch after a step was there before, or it is the one that came by the step. -/
theorem Step.origin {l' : Launch} (h : Step L m v v') (found' : v'.launch? id = some l') :
    (∃ l, v.launch? id = some l ∧ Change L m v id l l') ∨
      id = v.mgr.launches.length ∧ Fresh L v l' := by
  have known {l : Launch} (found : v.launch? id = some l) :
      (∃ l, v.launch? id = some l ∧ Change L m v id l l') ∨
        id = v.mgr.launches.length ∧ Fresh L v l' := by
    obtain ⟨l'', found'', change⟩ := h.change found
    cases found''.symm.trans found'
    exact Or.inl ⟨l, found, change⟩
  have kept (eq : v'.launch? id = v.launch? id) := known (eq.symm.trans found')
  have mapped {g : Launch → Launch} (eq : v'.launch? id = (v.launch? id).map g) :
      (∃ l, v.launch? id = some l ∧ Change L m v id l l') ∨
        id = v.mgr.launches.length ∧ Fresh L v l' := by
    obtain ⟨l, found, -⟩ := Option.map_eq_some_iff.mp (eq.symm.trans found')
    exact known found
  cases h with
  | launch licensed launching isOpen mute =>
      rw [View.launch?_launch] at found'
      split at found'
      · rename_i eq
        cases found'
        exact Or.inr ⟨eq, .launched launching isOpen mute⟩
      · exact known found'
  | @launchLate b licensed launching isClosed =>
      have pushed : (v.mgr.launches ++ [{ bot := b, stage := .over }])[id]? = some l' := found'
      rw [List.getElem?_append] at pushed
      split at pushed
      · exact known pushed
      · obtain ⟨inside, rfl⟩ := List.getElem?_eq_some_iff.mp pushed
        rw [List.length_singleton] at inside
        refine Or.inr ⟨by omega, ?_⟩
        rw [List.getElem_singleton]
        exact .late launching isClosed
  | stop licensed isRunning sorted registered => exact kept (View.launch?_stop _ _ _ _)
  | nudge | nudgeWait | spawn | mark | signal => exact kept (View.launch?_wake _ _ _)
  | permit found waits =>
      exact mapped ((View.launch?_wake _ _ _).trans (View.launch?_setStage _ _ _ _))
  | lineUp => exact mapped (View.launch?_setStage _ _ _ _)
  | @enter id' l' calls =>
      refine mapped (g := fun l =>
        if id' = id then { l with stage := .calling calls, admitted := true } else l) ?_
      rw [View.launch?_setStage, View.markAdmitted, View.launch?_modifyLaunch,
        View.launch?_takeSlot, Option.map_map]
      congr 1
      funext l
      simp only [Function.comp_apply]
      split <;> rfl
  | proceed => exact mapped (View.launch?_setStage _ _ _ _)
  | leave => exact mapped (View.launch?_leave _ _ _ _ _ _)
  | _ => exact kept rfl

/-! ## Before the start -/

/-- A manager that is new after a step was new before it. -/
theorem Step.isNew (h : Step L m v v') (isNew : v'.mgr.phase = .new) : v.mgr.phase = .new := by
  cases h with
  | launch licensed launching isOpen mute =>
      rw [View.launch_mgr] at isNew
      exact isNew
  | @stop asked licensed isRunning sorted registered =>
      obtain ⟨ends, goesOn⟩ := View.stop_phase v m asked
      by_cases empty : v.mgr.registry = []
      · cases (ends empty).symm.trans isNew
      · cases (goesOn empty).symm.trans isNew
  | @leave id l ran outcome =>
      obtain ⟨ends, goesOn⟩ := View.leave_phase v m id ran outcome
      by_cases last : outcome.isSome = true ∧ (v.mgr.launches.getD id default).registered = true ∧
          v.mgr.phase = .stopping ∧ (v.leave m id ran outcome).mgr.registry = []
      · cases (ends last).symm.trans isNew
      · exact (goesOn last).symm.trans isNew
  | nudge | nudgeWait | permit | spawn | mark | signal =>
      rw [View.wake_mgr] at isNew
      exact isNew
  | @enter id =>
      obtain ⟨slots, taken⟩ := v.exists_takeSlot id
      rw [taken] at isNew
      exact isNew
  | begin | run => cases isNew
  | _ => exact isNew

/-- Nobody is launched by a manager that is new. -/
theorem Step.unlaunched (h : Step L m v v') (before : v.mgr.phase = .new → v.mgr.launches = [])
    (isNew : v'.mgr.phase = .new) : v'.mgr.launches = [] := by
  have wasNew := h.isNew isNew
  apply List.eq_nil_iff_forall_not_mem.mpr
  intro l' mem
  obtain ⟨id, found'⟩ := List.mem_iff_getElem?.mp mem
  rcases h.origin found' with ⟨l, found, -⟩ | ⟨-, fresh⟩
  · rw [View.launch?, before wasNew] at found
    cases found
  · cases fresh with
    | launched launching | late launching =>
        rw [wasNew] at launching
        rcases launching with launching | launching <;> cases launching

/-! ## One launch over many steps -/

theorem Change.bot {l' : Launch} (h : Change L m v id l l') : l'.bot = l.bot := by
  cases h <;> rfl

/-- A launch whose task had its first turn does not get it again. -/
theorem Change.begun {l' : Launch} (h : Change L m v id l l') (begun : l.stage ≠ .submitted) :
    l'.stage ≠ .submitted := by
  cases h with
  | same => exact begun
  | permit waits => nofun
  | lineUp acts turn first => nofun
  | offer acts first => nofun
  | enter acts licensed turn can => nofun
  | proceed acts turn inRun goal =>
      intro same
      subst same
      cases goal
  | leave acts turn mute why => nofun

theorem Change.admitted {l' : Launch} (h : Change L m v id l l') (was : l.admitted = true) :
    l'.admitted = true := by
  cases h with
  | enter acts licensed turn can => rfl
  | leave acts turn mute why => simp [was]
  | _ => exact was

/-- A launch that leaves the registry does not come back. -/
theorem Change.registered {l' : Launch} (h : Change L m v id l l')
    (isRegistered : l'.registered = true) : l.registered = true := by
  cases h with
  | leave acts turn mute why => exact (Bool.and_eq_true_iff.mp isRegistered).1
  | _ => exact isRegistered

/-- Only a licensed launch is admitted, unless its bot panics. -/
theorem Change.runs {l' : Launch} (h : Change L m v id l l') (was : l.admitted = false)
    (now : l'.admitted = true) : L.runs ⟨m, id⟩ ∨ L.panics l.bot := by
  cases h with
  | enter acts licensed turn can => exact Or.inl licensed
  | leave acts turn mute why =>
      rw [was, Bool.false_or] at now
      rcases why with ⟨ran, -⟩ | ⟨-, -, -, none | licensed⟩ | ⟨ran, -⟩
      · rw [ran] at now
        cases now
      · exact Or.inr (mute none)
      · exact Or.inl licensed
      · rw [ran] at now
        cases now
  | _ => rw [was] at now; cases now

/-- Where no launch may go on, one that is in its run stays in it. -/
theorem Change.inRun {l' : Launch} (h : Change L m v id l l') (rest : ¬ L.acts)
    (inRun : l.stage.isInRun = true) : l'.stage.isInRun = true := by
  cases h with
  | same => exact inRun
  | permit waits => rfl
  | lineUp acts | offer acts | enter acts | proceed acts | leave acts => exact absurd acts rest

/-- Whatever a step does not undo is not undone by many steps. -/
theorem Steps.launch {P : Launch → Prop} (h : Steps L m v v')
    (kept : ∀ {x : View} {l l' : Launch}, Change L m x id l l' → P l → P l')
    (found : v.launch? id = some l) (holds : P l) : ∃ l', v'.launch? id = some l' ∧ P l' := by
  induction h with
  | refl => exact ⟨l, found, holds⟩
  | tail _ step ih =>
      obtain ⟨l', found', holds'⟩ := ih
      obtain ⟨l'', found'', change⟩ := step.change found'
      exact ⟨l'', found'', kept change holds'⟩

/-- Nobody is launched by a manager as long as it is new. -/
theorem Steps.unlaunched (h : Steps L m v v')
    (before : v.mgr.phase = .new → v.mgr.launches = []) :
    v'.mgr.phase = .new → v'.mgr.launches = [] := by
  induction h with
  | refl => exact before
  | tail _ step ih => exact step.unlaunched ih

/-- A launch whose bot does not panic is admitted only if its run is licensed. -/
theorem Steps.runs_of_admitted {v v' : View} (h : Steps L m v v') {id : Nat} {l' : Launch}
    (found' : v'.launch? id = some l') (calm : ¬ L.panics l'.bot)
    (admitted : l'.admitted = true) :
    L.runs ⟨m, id⟩ ∨ ∃ l, v.launch? id = some l ∧ l.bot = l'.bot ∧ l.admitted = true := by
  induction h generalizing l' with
  | refl => exact Or.inr ⟨l', found', rfl, admitted⟩
  | tail _ step ih =>
      rcases step.origin found' with ⟨l, found, change⟩ | ⟨-, fresh⟩
      · rw [change.bot] at calm ⊢
        cases was : l.admitted with
        | true => exact ih found calm was
        | false => exact Or.inl ((change.runs was admitted).resolve_right calm)
      · cases fresh <;> cases admitted

/-! ## Bots that do not panic -/

/-- No bot that was launched may panic when it is asked its name. -/
def View.Calm (L : Licence) (v : View) : Prop :=
  ∀ id l, v.launch? id = some l → ¬ L.panics l.bot

theorem View.Calm.of_launches (calm : v.Calm L) (same : v'.mgr.launches = v.mgr.launches) :
    v'.Calm L := by
  intro id l found
  refine calm id l ?_
  rw [View.launch?, ← same]
  exact found

/-- Of the bots launched by the end none may panic, so none launched before may. -/
theorem Step.calm (h : Step L m v v') (calm : v'.Calm L) : v.Calm L := by
  intro id l found
  obtain ⟨l', found', change⟩ := h.change found
  rw [← change.bot]
  exact calm id l' found'

/-! ## What a call leaves alone -/

/-- A call changes the manager and the line, and nothing else. -/
theorem Step.local_of_rest (h : Step L m v v') (rest : ¬ L.acts) : v.Local v' := by
  cases h with
  | next acts | elsewhere acts | park acts | lineUp acts | enter acts | proceed acts
  | leave acts | spawn acts | mark acts | listen acts | signal acts | poll acts
  | settle acts => exact absurd acts rest
  | launch licensed launching isOpen mute => exact View.local_launch _ _ _ _
  | stop licensed isRunning sorted registered => exact View.local_stop _ _ _
  | nudge | nudgeWait => exact View.local_wake _ _
  | permit found waits => exact (View.local_modifyLaunch _ _ _).trans (View.local_wake _ _)
  | _ => exact ⟨rfl, rfl, rfl, rfl⟩

theorem Steps.local_of_rest (h : Steps L m v v') (rest : ¬ L.acts) : v.Local v' := by
  induction h with
  | refl => exact .refl v
  | tail _ step ih => exact ih.trans (step.local_of_rest rest)

end Flotilla
