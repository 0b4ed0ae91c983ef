import Flotilla.Proofs.Invariants

/-!
# Launches that were not run in time

A launch that was not run when its pool was closed is never run: `View.PassedOver`, kept by
every step. Nothing is said about it until it comes to its end, and then that its bot finished
and that it left the registry.
-/

namespace Flotilla

/-- Whether an event is about a bot of this id. -/
def Event.isAbout (id : Nat) (e : Event) : Bool := e.bot == some id

/-- A launch that was not run, of which nothing is said since this past, or just its end. -/
structure View.PassedOver (id : Nat) (past : List Event) (v : View) (l : Launch) : Prop where
  found : v.launch? id = some l
  unrun : l.stage.isInRun = false
  unadmitted : l.admitted = false
  said : ∃ later, v.mgr.history = past ++ later ∧
    (l.stage.isOver = false ∧ later.filter (Event.isAbout id) = [] ∨
      l.stage.isOver = true ∧ ∃ name,
        later.filter (Event.isAbout id) = [.botFinished id name, .botRemoved id name])

variable {L : Licence} {m : Nat} {v v' : View} {id : Nat} {l l' : Launch}

/-- Once the pool is closed a launch that was not run comes to its end without a run. -/
theorem Change.passedOver (h : Change L m v id l l') (isClosed : v.mgr.closed = true)
    (unrun : l.stage.isInRun = false) (was : l.admitted = false) :
    l'.stage.isInRun = false ∧ l'.admitted = false := by
  cases h with
  | same => exact ⟨unrun, was⟩
  | permit waits =>
      rw [waits] at unrun
      cases unrun
  | lineUp acts turn first => exact ⟨rfl, was⟩
  | offer acts first => exact ⟨rfl, was⟩
  | enter acts licensed turn can => exact absurd (can.isOpen.symm.trans isClosed) nofun
  | proceed acts turn inRun goal => exact absurd (inRun.symm.trans unrun) nofun
  | @leave ran outcome acts turn mute why =>
      refine ⟨rfl, ?_⟩
      rcases why with ⟨out, -⟩ | ⟨-, can, -⟩ | ⟨out, -⟩
      · simp [was, out]
      · exact absurd (can.isOpen.symm.trans isClosed) nofun
      · simp [was, out]

/-- A launch that was not run in time comes to its end as one that was not started. -/
theorem View.MayLeave.notStarted {ran : Bool} {outcome : RunOutcome} {licensed : Prop}
    (why : v.MayLeave l ran (some outcome) licensed) (isClosed : v.mgr.closed = true)
    (unrun : l.stage.isInRun = false) : outcome = .notStarted := by
  rcases why with ⟨-, inRun, -⟩ | ⟨-, can, -⟩ | ⟨-, -, none | is⟩
  · exact absurd (inRun.symm.trans unrun) nofun
  · exact absurd (can.isOpen.symm.trans isClosed) nofun
  · cases none
  · exact Option.some.inj is

theorem filter_isAbout_eq_nil {es : List Event} (other : ∀ e ∈ es, e.bot ≠ some id) :
    es.filter (Event.isAbout id) = [] := by
  refine List.filter_eq_nil_iff.mpr fun e mem about => other e mem ?_
  exact eq_of_beq about

theorem Step.passedOver {past : List Event} (h : Step L m v v') (calm : v'.Calm L)
    (regular : v.Regular m) (clear : v.Clear) (isClosed : v.mgr.closed = true)
    (passed : v.PassedOver id past l) : ∃ l', v'.PassedOver id past l' := by
  obtain ⟨found, unrun, unadmitted, later, history, so⟩ := passed
  obtain ⟨l', found', change⟩ := h.change found
  obtain ⟨es, telling⟩ := h.telling
  obtain ⟨unrun', unadmitted'⟩ := change.passedOver isClosed unrun unadmitted
  have accounted := clear.accounted id l found
  have accounted' := h.accounted calm regular.queueing clear.accounted id l' found'
  have extended : v'.mgr.history = past ++ (later ++ es) := by
    rw [telling.history, history, List.append_assoc]
  -- Where nothing is said about the launch its registration does not change.
  have silent (registered : l'.registered = l.registered) (other : ∀ e ∈ es, e.bot ≠ some id) :
      ∃ l', v'.PassedOver id past l' := by
    have same : l'.stage.isOver = l.stage.isOver := by
      rw [accounted, accounted'] at registered
      exact Bool.not_inj registered
    refine ⟨l', found', unrun', unadmitted', later ++ es, extended, ?_⟩
    rw [List.filter_append, filter_isAbout_eq_nil other, List.append_nil, same]
    exact so
  cases telling.saying clear.accounted with
  | quiet registered about =>
      refine silent (registered id l l' found found') fun e mem bot => ?_
      rcases about e mem id bot with ⟨-, isRunning, -⟩ | ⟨-, new, -⟩
      · have stops := regular.orderly.closed.mp isClosed
        rw [isRunning] at stops
        simp at stops
      · rw [View.length_stages] at new
        exact Nat.ne_of_lt (View.lt_of_launch? found) new
  | @left id' l₀ ran outcome licensed last found₀ registered why eq said about =>
      have launches := View.launch?_leave v m id' ran (some outcome) id
      rw [← eq, found, found', Option.map_some, Option.some.injEq] at launches
      by_cases same : id = id'
      · subst same
        cases found.symm.trans found₀
        have none : later.filter (Event.isAbout id) = [] := by
          rcases so with ⟨-, none⟩ | ⟨ended, -⟩
          · exact none
          · rw [registered, ended] at accounted
            cases accounted
        have rest : last.filter (Event.isAbout id) = [] :=
          filter_isAbout_eq_nil fun e mem bot => by rw [about e mem] at bot; cases bot
        rw [if_pos rfl] at launches
        refine ⟨l', found', unrun', unadmitted', later ++ es, extended, Or.inr ⟨?_,
          v.nameOf l.bot, ?_⟩⟩
        · rw [launches]
          rfl
        · have finished : (Event.botFinished id (v.nameOf l.bot)).isAbout id = true :=
            beq_self_eq_true (some id)
          have removed : (Event.botRemoved id (v.nameOf l.bot)).isAbout id = true :=
            beq_self_eq_true (some id)
          rw [List.filter_append, none, List.nil_append, said, why.notStarted isClosed unrun,
            Fleet.outcomeEvent, List.filter_cons_of_pos finished, List.filter_cons_of_pos removed,
            rest]
      · rw [if_neg same] at launches
        refine silent ?_ fun e mem bot => ?_
        · rw [launches]
          split <;> rfl
        · rw [said] at mem
          rcases List.mem_cons.mp mem with rfl | mem
          · cases outcome <;> cases bot <;> exact same rfl
          · rcases List.mem_cons.mp mem with rfl | mem
            · cases bot
              exact same rfl
            · rw [about e mem] at bot
              cases bot

/-- A launch that was not run when its pool was closed stays passed over. -/
theorem Steps.passedOver {past : List Event} (h : Steps L m v v') (calm : v'.Calm L)
    (regular : v.Regular m) (clear : v.Clear) (isClosed : v.mgr.closed = true)
    (passed : v.PassedOver id past l) : ∃ l', v'.PassedOver id past l' := by
  induction h with
  | refl => exact ⟨l, passed⟩
  | tail steps step ih =>
      have before := step.calm calm
      obtain ⟨l', passed'⟩ := ih before
      exact step.passedOver calm (Steps.regular steps regular)
        (Steps.clear steps before regular clear) (Steps.closed steps isClosed) passed'

end Flotilla
