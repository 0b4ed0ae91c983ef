import Flotilla.Proofs.Occurrence

/-!
# The order of runs where slots are not limited

A manager without a limit has no slots to wait for (`View.Unlimited`), so a launch is run in its
first turn. Launches have their first turns in the order in which they were launched, and so
their runs are called in that order (`Fleet.runs_ascending`).
-/

namespace Flotilla

namespace View

/-- Slots are not limited: nobody waits for one, and nobody is handed one. -/
structure Unlimited (v : View) : Prop where
  slots : v.mgr.slots = none
  queued : ∀ id : Nat, v.stages[id]? ≠ some .queued
  offered : ∀ id : Nat, v.stages[id]? ≠ some .offered

variable {L : Licence} {m : Nat} {v v' : View} {id : Nat} {l : Launch}

theorem Unlimited.slotWaiters (unlimited : v.Unlimited) : v.mgr.slotWaiters = [] := by
  unfold Manager.slotWaiters
  rw [unlimited.slots]

/-- A launch that neither waits for a slot nor is handed one may change to such a stage. -/
theorem Unlimited.set {a b : Stage} (unlimited : v.Unlimited) (was : v.stages[id]? = some a)
    (stages : v'.stages = v.stages.set id b) (slots : v'.mgr.slots = none) (queued : b ≠ .queued)
    (offered : b ≠ .offered) : v'.Unlimited := by
  refine ⟨slots, fun j found => ?_, fun j found => ?_⟩
  · rcases stage_of_set was stages found with ⟨-, new⟩ | old
    · exact queued new.symm
    · exact unlimited.queued j old
  · rcases stage_of_set was stages found with ⟨-, new⟩ | old
    · exact offered new.symm
    · exact unlimited.offered j old

theorem CanEnter.first (can : v.CanEnter l) (unlimited : v.Unlimited)
    (found : v.launch? id = some l) : v.stages[id]? = some .submitted := by
  have stage := stages_of_launch? found
  rcases can.seat with offered | ⟨first, -⟩
  · rw [offered] at stage
    exact absurd stage (unlimited.offered id)
  · rw [stage, first]

end View

variable {L : Licence} {m : Nat} {v v' : View} {id id' : Nat} {l : Launch}

theorem Step.unlimited (h : Step L m v v') (unlimited : v.Unlimited) : v'.Unlimited := by
  have none (g : Permits Nat → Permits Nat) (slots : v'.mgr.slots = v.mgr.slots.map g) :
      v'.mgr.slots = none := by
    rw [slots, unlimited.slots]
    rfl
  cases h.shift with
  | still stages slots =>
      exact ⟨slots.trans unlimited.slots, by rw [stages]; exact unlimited.queued,
        by rw [stages]; exact unlimited.offered⟩
  | @came stage stages slots kind =>
      have other : stage ≠ .queued ∧ stage ≠ .offered := by
        rcases kind with ⟨rfl, -⟩ | ⟨rfl, -⟩ <;> exact ⟨nofun, nofun⟩
      have kept {a : Stage} (ne : stage ≠ a) (j : Nat) (before : v.stages[j]? ≠ some a) :
          v'.stages[j]? ≠ some a := by
        rw [stages, List.getElem?_append]
        split
        · exact before
        · rw [List.getElem?_singleton]
          split
          · exact fun same => ne (Option.some.inj same)
          · nofun
      exact ⟨slots.trans unlimited.slots, fun j => kept other.1 j (unlimited.queued j),
        fun j => kept other.2 j (unlimited.offered j)⟩
  | switch was before after stages slots due =>
      refine unlimited.set was stages (slots.trans unlimited.slots) ?_ ?_ <;>
        · intro same
          subst same
          cases after
  | lineUp turn was isOpen slots => cases unlimited.slots.symm.trans slots
  | take turn was room stages slots => exact unlimited.set was stages (none _ slots) nofun nofun
  | pass turn was why stages slots told =>
      exact unlimited.set was stages (slots.trans unlimited.slots) nofun nofun
  | giveUp was isClosed stages slots told => exact absurd was (unlimited.queued _)
  | free was seated nobody stages slots told =>
      exact unlimited.set was stages (none _ slots) nofun nofun
  | handOn was seated first =>
      rw [unlimited.slotWaiters] at first
      cases first

/-- Of the launches up to the one whose run is called in its first turn, none has its first turn
later. -/
theorem Steps.first_turns (h : Steps L m v v') (regular' : v'.Regular m)
    (others : ∀ j l, j < id → v.launch? j = some l → l.stage ≠ .submitted)
    (found : v.launch? id = some l) (admitted : l.admitted = true)
    (first : v'.stages[id']? = some .submitted) : id < id' := by
  apply Classical.byContradiction
  intro notLater
  obtain ⟨l', found', stage⟩ := View.exists_launch? first
  rcases Nat.lt_or_eq_of_le (Nat.le_of_not_lt notLater) with earlier | same
  · have inside := Nat.lt_trans earlier (View.lt_of_launch? found)
    obtain ⟨l'', found'', begun⟩ := h.launch Change.begun (List.getElem?_eq_getElem inside)
      (others id' _ earlier (List.getElem?_eq_getElem inside))
    cases found'.symm.trans found''
    exact begun stage
  · subst same
    obtain ⟨l'', found'', admitted'⟩ := h.launch Change.admitted found admitted
    cases found'.symm.trans found''
    have pending := regular'.tidy.pending id' l' found' (by rw [stage]; rfl)
    cases pending.symm.trans admitted'

namespace Fleet

variable {managers : List ManagerPlan} {bots : List BotPlan} {pre mid : List Move} {mv mv' : Move}

/-- A manager built without a limit never has slots to wait for. -/
theorem unlimited_play (has : m < managers.length)
    (unlimited : managers[m].settings.maxConcurrent = 0) (bots : List BotPlan) (ms : List Move) :
    (((raw managers bots).play ms).view m).Unlimited := by
  refine invariant has Step.unlimited ⟨?_, fun id => (untouched_raw has bots).stage?,
    fun id => (untouched_raw has bots).stage?⟩
  rw [view_raw has]
  show managers[m].settings.limit.map _ = none
  rw [(Settings.limit_eq_none_iff _).mpr unlimited]
  rfl

/-- Where slots are not limited the runs of a manager's launches are called in ascending order
of the ids. -/
theorem runs_ascending (has : m < managers.length)
    (unlimited : managers[m].settings.maxConcurrent = 0)
    (call : ((raw managers bots).play pre).RunCall mv ⟨m, id⟩)
    (call' : ((raw managers bots).play (pre ++ mv :: mid)).RunCall mv' ⟨m, id'⟩) : id < id' := by
  have first := call.can.first (unlimited_play has unlimited bots pre) call.found
  have first' := call'.can.first (unlimited_play has unlimited bots (pre ++ mv :: mid)) call'.found
  obtain ⟨l, found, admitted⟩ := call.admitted
  have steps := steps_snoc has bots pre mv
  have eq : (raw managers bots).play (pre ++ mv :: mid) =
      (((raw managers bots).play (pre ++ [mv])).play mid) := by
    rw [← play_append, List.append_assoc]
    rfl
  have rest := (steps_play_any (sound_play managers bots (pre ++ [mv])) mid).2.2 m
    (has_play.mpr has)
  rw [← eq] at rest
  refine rest.first_turns (regular_play has bots _) (fun j l' earlier found' => ?_)
    (by rw [play_append]; exact found) admitted first'
  have lined := (regular_play has bots pre).lined
  have inside := Nat.lt_trans earlier (View.lt_of_launch? call.found)
  have before := List.getElem?_eq_getElem inside
  obtain ⟨l'', found'', begun⟩ := steps.launch Change.begun before fun stage => by
    refine lined.first call.turn first earlier ?_
    rw [View.stages_of_launch? before, stage]
  cases found'.symm.trans found''
  exact begun

end Fleet

end Flotilla
