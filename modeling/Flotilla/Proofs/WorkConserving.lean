import Flotilla.Proofs.Occurrence

/-!
# The slots of a pool

A pool of limited size is never overrun, loses no slot and mints none, keeps no slot free while
a launch waits for one, and gives slots in the order of launching: `Fleet.keepsSlots_play`, for
every run. In a run in which every bot that the manager launches gives its name when it is asked, a
settled fleet whose pool is open has as many bots in their runs as there can be
(`Fleet.fillsSlots_play`). A bot that panics at that question keeps its place in the registry
without a run (`Fleet.not_fillsSlots_of_mute`).
-/

namespace Flotilla

namespace Stage

/-- Whether a launch of this stage was handed a slot and its turn has not come since. -/
def isOffered : Stage → Bool
  | .offered => true
  | _ => false

/-- Whether a launch of this stage waits for a slot. -/
def isQueued : Stage → Bool
  | .queued => true
  | _ => false

end Stage

namespace Manager

/-- The free slots. -/
def freeSlots (mgr : Manager) : Nat :=
  match mgr.slots with
  | some p => p.free
  | none => 0

/-- How many bots are in their run. -/
def inRun (mgr : Manager) : Nat := mgr.launches.countP fun l => l.stage.isInRun

/-- How many slots were handed to launches whose turn has not come since. -/
def offered (mgr : Manager) : Nat := mgr.launches.countP fun l => l.stage.isOffered

end Manager

namespace Fleet

/-- The slots of a pool of this size are conserved, never exceeded, never free while a launch
waits for one, and given in the order of launching. -/
structure KeepsSlots (f : Fleet) (m size : Nat) : Prop where
  conserved : (f.manager m).freeSlots + (f.manager m).inRun + (f.manager m).offered = size
  bounded : (f.manager m).inRun ≤ size
  busy : (f.manager m).closed = false →
    (∃ l ∈ (f.manager m).launches, l.stage.isQueued = true) → (f.manager m).freeSlots = 0
  ordered : (f.manager m).closed = false → ∀ (id id' : Nat) (l l' : Launch),
    (f.manager m).launches[id]? = some l → l.registered = true →
    l.stage.isWaitingForSlot = true → (f.manager m).launches[id']? = some l' →
    l'.stage.isWaitingForSlot = false → id' < id

/-- Once nothing can go on, as many bots are in their runs as the size of the pool allows. -/
def FillsSlots (f : Fleet) (m size : Nat) : Prop :=
  f.tasks.isSettled = true → (f.manager m).closed = false →
    (f.manager m).inRun = min size (f.manager m).handles.length

end Fleet

variable {m : Nat} {v : View} {f : Fleet}

/-! ## Counting -/

theorem countP_add {p q r : Launch → Bool} {ls : List Launch}
    (split : ∀ l ∈ ls, (p l).toNat = (q l).toNat + (r l).toNat) :
    ls.countP p = ls.countP q + ls.countP r := by
  induction ls with
  | nil => rfl
  | cons l ls ih =>
      have here := split l List.mem_cons_self
      have rest := ih fun l' mem => split l' (List.mem_cons_of_mem l mem)
      rw [List.countP_cons, List.countP_cons, List.countP_cons, rest]
      cases hp : p l <;> cases hq : q l <;> cases hr : r l <;>
        simp only [hp, hq, hr, Bool.toNat_true, Bool.toNat_false] at here <;> simp <;> omega

theorem Stage.isSeated_split (stage : Stage) :
    stage.isSeated.toNat = stage.isInRun.toNat + stage.isOffered.toNat := by
  cases stage <;> rfl

theorem View.Conserved.split {size : Nat} (conserved : v.Conserved size) :
    v.mgr.freeSlots + v.mgr.inRun + v.mgr.offered = size := by
  obtain ⟨p, slots, total⟩ := conserved
  have seats : v.stages.countP Stage.isSeated = v.mgr.inRun + v.mgr.offered := by
    unfold View.stages
    rw [List.countP_map]
    exact countP_add fun l _ => l.stage.isSeated_split
  unfold Manager.freeSlots
  rw [slots]
  dsimp only
  omega

/-! ## The promises -/

theorem Stage.rank_of_isWaitingForSlot {stage : Stage} :
    (stage.isWaitingForSlot = true → 0 < stage.rank) ∧
      (stage.isWaitingForSlot = false → stage.rank = 0) := by
  cases stage <;> simp [isWaitingForSlot, rank]

/-- Whoever waits for a slot waits while none is free. -/
theorem View.Queueing.freeSlots_eq_zero (queueing : v.Queueing) {l : Launch}
    (mem : l ∈ v.mgr.launches) (queued : l.stage.isQueued = true) : v.mgr.freeSlots = 0 := by
  obtain ⟨id, found⟩ := List.mem_iff_getElem?.mp mem
  have waits : l.stage = .queued := by
    cases stage : l.stage <;> rw [stage] at queued <;> first | rfl | cases queued
  have inLine := (queueing.mem id).mpr (by rw [View.stages_of_launch? found, waits])
  unfold Manager.slotWaiters at inLine
  unfold Manager.freeSlots
  cases slots : v.mgr.slots with
  | none => rfl
  | some p =>
      rw [slots] at inLine
      exact Permits.free_eq_zero_of_mem inLine

namespace Fleet

variable {managers : List ManagerPlan} {bots : List BotPlan} {ms : List Move}

theorem limit_of_pos {settings : Settings} (pos : 0 < settings.maxConcurrent) :
    settings.limit = some settings.maxConcurrent := by
  unfold Settings.limit
  rw [if_neg (Nat.ne_of_gt pos)]

/-- However a run went, the slots of a pool add up to its size. -/
theorem slots_play (has : m < managers.length)
    (pos : 0 < managers[m].settings.maxConcurrent) (bots : List BotPlan) (ms : List Move) :
    (((raw managers bots).play ms).manager m).freeSlots +
      (((raw managers bots).play ms).manager m).inRun +
        (((raw managers bots).play ms).manager m).offered =
          managers[m].settings.maxConcurrent :=
  (conserved_play has (limit_of_pos pos) bots ms).split

theorem keepsSlots_play (has : m < managers.length)
    (pos : 0 < managers[m].settings.maxConcurrent) (bots : List BotPlan) (ms : List Move) :
    ((raw managers bots).play ms).KeepsSlots m managers[m].settings.maxConcurrent := by
  have regular := regular_play has bots ms
  have total := slots_play has pos bots ms
  refine ⟨total, by omega, fun _ waits => ?_,
    fun isOpen id id' l l' found _ waits found' given => ?_⟩
  · obtain ⟨l, mem, queued⟩ := waits
    exact regular.queueing.freeSlots_eq_zero mem queued
  · have graded := regular.ranked.graded isOpen
    apply Classical.byContradiction
    intro ge
    rcases Nat.lt_or_eq_of_le (Nat.le_of_not_lt ge) with lt | rfl
    · have le := graded id id' l.stage l'.stage lt (View.stages_of_launch? found)
        (View.stages_of_launch? found')
      have pos := Stage.rank_of_isWaitingForSlot.1 waits
      have zero := Stage.rank_of_isWaitingForSlot.2 given
      omega
    · cases found.symm.trans found'
      rw [waits] at given
      cases given

/-- What remains when nothing can go on: bots in their runs, and launches that wait for a slot
only if every slot is taken. -/
theorem fillsSlots_play (has : m < managers.length)
    (pos : 0 < managers[m].settings.maxConcurrent)
    (answers : (raw managers bots).Answering m ms) :
    ((raw managers bots).play ms).FillsSlots m managers[m].settings.maxConcurrent := by
  intro settled isOpen
  have regular := regular_play has bots ms
  have accounted := (clear_play has answers).accounted
  have total := slots_play has pos bots ms
  generalize (raw managers bots).play ms = f at *
  have stages {l : Launch} (mem : l ∈ (f.manager m).launches) : l.stage = .queued ∨
      (∃ heeds, l.stage = .waiting heeds) ∨ l.stage = .over := by
    obtain ⟨id, found⟩ := List.mem_iff_getElem?.mp mem
    exact (stage_of_settled settled regular.lined (View.stages_of_launch? found)).imp_left And.left
  have noOffer : (f.manager m).offered = 0 := by
    refine List.countP_eq_zero.mpr fun l mem => ?_
    rcases stages mem with stage | ⟨heeds, stage⟩ | stage <;> rw [stage] <;> nofun
  have inFlight : (f.manager m).inFlight =
      (f.manager m).inRun + (f.manager m).launches.countP fun l => l.stage.isQueued := by
    refine countP_add fun l mem => ?_
    rcases stages mem with stage | ⟨heeds, stage⟩ | stage <;> rw [stage] <;> rfl
  have handles : (f.manager m).handles.length = (f.manager m).inFlight := by
    rw [Manager.handles, List.length_map]
    exact accounted.inFlight_eq.symm
  rw [noOffer] at total
  rw [handles, inFlight]
  by_cases waits : ∃ l ∈ (f.manager m).launches, l.stage.isQueued = true
  · obtain ⟨l, mem, queued⟩ := waits
    have none : (f.manager m).freeSlots = 0 := regular.queueing.freeSlots_eq_zero mem queued
    omega
  · have nobody : ((f.manager m).launches.countP fun l => l.stage.isQueued) = 0 :=
      List.countP_eq_zero.mpr fun l mem queued => waits ⟨l, mem, queued⟩
    omega

/-- The slots of a limited pool, whatever happens to its manager: they add up to the size of the
pool, so at most as many bots are in their runs; while the pool is open, nobody waits for a slot
that is free, and nobody gets a slot before somebody launched earlier. In a run in which every
bot that the manager launches gives its name, as many bots as possible are in their runs once
nothing can go on. -/
theorem slots_shared (has : m < managers.length)
    (pos : 0 < managers[m].settings.maxConcurrent) (bots : List BotPlan) (ms : List Move) :
    ((raw managers bots).play ms).KeepsSlots m managers[m].settings.maxConcurrent ∧
      ((raw managers bots).Answering m ms →
        ((raw managers bots).play ms).FillsSlots m managers[m].settings.maxConcurrent) :=
  ⟨keepsSlots_play has pos bots ms, fillsSlots_play has pos⟩

/-- Two bots for one slot: one is in its run, and the other one waits. -/
theorem slots_shared_by_two :
    let f := (raw [Sample.oneSlot] [Sample.bot true]).play
      [.call (.start 0), .call (.add 0 0), .call (.add 0 0), .turn, .turn, .turn, .turn, .turn]
    f.tasks.isSettled = true ∧ (f.manager 0).closed = false ∧ (f.manager 0).handles.length = 2 ∧
      f.KeepsSlots 0 1 ∧ f.FillsSlots 0 1 ∧ (f.manager 0).inRun = 1 := by
  have shared := slots_shared (m := 0) (show 0 < [Sample.oneSlot].length by decide) (by decide)
    [Sample.bot true]
      [.call (.start 0), .call (.add 0 0), .call (.add 0 0), .turn, .turn, .turn, .turn, .turn]
  have filled := shared.2 (answering_of_unarmed _ _ (by simp))
  exact ⟨by decide, by decide, by decide, shared.1, filled, filled (by decide) (by decide)⟩

/-- The slot of a bot that panics when it is asked its name is given back, and the bot stays
registered: the pool is open, nothing can go on, one bot is registered and none is run. -/
theorem not_fillsSlots_of_mute :
    ¬ ((raw [Sample.oneSlot] [Sample.bot true]).play Sample.mute).FillsSlots 0 1 := by
  intro fills
  have runs := fills (by decide) (by decide)
  revert runs
  decide

end Fleet

end Flotilla
