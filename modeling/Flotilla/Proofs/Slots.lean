import Flotilla.Proofs.Line

/-!
# Slots

`View.Ranked`: while the pool is open slots are given in the order of launching, so a launch
never is further on its way to a slot than one launched before it. `View.Conserved`: the free
slots and those given to launches are as many as the pool was built with. Every step keeps
both, however the launch that gives back a slot came to its end.
-/

namespace Flotilla

/-- How far a launch of this stage is from getting a slot. -/
def Stage.rank : Stage → Nat
  | .submitted => 2
  | .queued => 1
  | _ => 0

/-- Nobody is further from a slot than somebody launched later. -/
def Graded (stages : List Stage) : Prop :=
  ∀ (i j : Nat) (a b : Stage), i < j → stages[i]? = some a → stages[j]? = some b → a.rank ≤ b.rank

namespace View

/-- Slots are given, and waited for, in the order of launching. -/
structure Ranked (v : View) : Prop where
  graded : v.mgr.closed = false → Graded v.stages
  sorted : v.mgr.slotWaiters.Pairwise (· < ·)

/-- The free slots and the ones that launches have make up the pool. -/
def Conserved (size : Nat) (v : View) : Prop :=
  ∃ p, v.mgr.slots = some p ∧ p.free + v.stages.countP Stage.isSeated = size

end View

variable {L : Licence} {m : Nat} {v v' : View} {id : Nat} {xs : List Stage} {a b : Stage}

/-! ## The order of launching -/

theorem Stage.rank_le (a : Stage) : a.rank ≤ 2 := by
  cases a <;> simp [rank]

theorem Stage.rank_of_isSeated (seated : a.isSeated = true) : a.rank = 0 := by
  cases a <;> first | rfl | cases seated

/-- A launch that comes closer to a slot may do so when those before it are as close. -/
theorem Graded.set (graded : Graded xs) (was : xs[id]? = some a) (closer : b.rank ≤ a.rank)
    (before : ∀ i c, i < id → xs[i]? = some c → c.rank ≤ b.rank) : Graded (xs.set id b) := by
  intro i j c d lt found found'
  rw [View.getElem?_set_of_was was] at found found'
  split at found
  · rename_i here
    subst here
    cases found
    rw [if_neg (Nat.ne_of_gt lt)] at found'
    exact Nat.le_trans closer (graded i j a d lt was found')
  · split at found'
    · rename_i here
      subst here
      cases found'
      exact before i c lt found
    · exact graded i j c d lt found found'

theorem Graded.append (graded : Graded xs) : Graded (xs ++ [.submitted]) := by
  intro i j c d lt found found'
  rw [List.getElem?_append] at found found'
  split at found'
  · rw [if_pos (by omega)] at found
    exact graded i j c d lt found found'
  · rw [List.getElem?_singleton] at found'
    split at found'
    · cases found'
      exact c.rank_le
    · cases found'

/-- Of the launches whose turn has not come, the one that is run was launched first. -/
theorem View.Lined.first (lined : v.Lined m) (turn : v.running = some (.bot ⟨m, id⟩))
    (was : v.stages[id]? = some .submitted) {i : Nat} (lt : i < id) :
    v.stages[i]? ≠ some .submitted := by
  intro waits
  have order := lined.order
  rw [turn] at order
  rcases lined.ready i .submitted waits rfl with is | mem
  · rw [turn] at is
    cases is
    exact Nat.lt_irrefl id lt
  · have ahead := (List.pairwise_cons.mp order).1 _ mem
    exact Nat.not_lt_of_le (ahead id i rfl rfl was waits) lt

/-- Whoever was launched before the new launch that is run waits for a slot or has one. -/
theorem View.Lined.rank_le_one (lined : v.Lined m) (turn : v.running = some (.bot ⟨m, id⟩))
    (was : v.stages[id]? = some .submitted) {i : Nat} {c : Stage} (lt : i < id)
    (found : v.stages[i]? = some c) : c.rank ≤ 1 := by
  cases c with
  | submitted => exact absurd found (lined.first turn was lt)
  | queued => exact Nat.le_refl 1
  | _ => exact Nat.zero_le 1

/-- Where a slot is free, whoever was launched before the new launch that is run got one. -/
theorem View.Lined.rank_eq_zero (lined : v.Lined m) (queueing : v.Queueing) (room : v.HasRoom)
    (turn : v.running = some (.bot ⟨m, id⟩)) (was : v.stages[id]? = some .submitted) {i : Nat}
    {c : Stage} (lt : i < id) (found : v.stages[i]? = some c) : c.rank ≤ 0 := by
  cases c with
  | submitted => exact absurd found (lined.first turn was lt)
  | queued =>
      have mem := (queueing.mem i).mpr found
      rw [View.slotWaiters_of_room room] at mem
      cases mem
  | _ => exact Nat.le_refl 0

theorem Shift.graded (h : Shift m v v') (queueing : v.Queueing) (lined : v.Lined m)
    (sorted : v.mgr.slotWaiters.Pairwise (· < ·)) (isOpen : v.mgr.closed = false)
    (graded : Graded v.stages) : Graded v'.stages := by
  cases h with
  | still stages slots => rwa [stages]
  | came stages slots kind =>
      rw [stages]
      rcases kind with ⟨rfl, -⟩ | ⟨-, isClosed⟩
      · exact graded.append
      · rw [isOpen] at isClosed
        cases isClosed
  | @switch id a b was before after stages slots due =>
      have rank := Stage.rank_of_isSeated (Stage.isSeated_of_isInRun after)
      have rank' := Stage.rank_of_isSeated before
      rw [stages]
      refine graded.set was (by omega) fun i c lt found => ?_
      rw [rank, ← rank']
      exact graded i id c a lt found was
  | lineUp turn was _ slots full stages joined =>
      rw [stages]
      exact graded.set was (by decide) fun i c lt found => lined.rank_le_one turn was lt found
  | take turn was room stages slots =>
      rw [stages]
      exact graded.set was (Nat.zero_le _) fun i c lt found =>
        lined.rank_eq_zero queueing room turn was lt found
  | pass turn was why stages slots told =>
      rw [stages]
      have room := why.resolve_left (by rw [isOpen]; nofun)
      exact graded.set was (Nat.zero_le _) fun i c lt found =>
        lined.rank_eq_zero queueing room turn was lt found
  | giveUp was isClosed stages slots told =>
      rw [isOpen] at isClosed
      cases isClosed
  | @free id a was seated nobody stages slots told =>
      have rank := Stage.rank_of_isSeated seated
      rw [stages]
      refine graded.set was (Nat.zero_le _) fun i c lt found => ?_
      exact Nat.le_trans (graded i id c a lt found was) (Nat.le_of_eq rank)
  | @handOn id next a rest was seated first stages slots woken told =>
      have rank := Stage.rank_of_isSeated seated
      rw [first] at sorted
      have waits := (queueing.mem next).mp (first ▸ List.mem_cons_self)
      -- Who waits longest for a slot is the first launched of those who wait.
      have offered : Graded (v.stages.set next .offered) := by
        refine graded.set waits (by decide) fun i c lt found => ?_
        have le := graded i next c .queued lt found waits
        cases c with
        | submitted => exact absurd le (by decide)
        | queued =>
            have mem := (queueing.mem i).mpr found
            rw [first] at mem
            rcases List.mem_cons.mp mem with rfl | mem
            · exact absurd lt (Nat.lt_irrefl i)
            · exact absurd ((List.pairwise_cons.mp sorted).1 i mem) (Nat.lt_asymm lt)
        | _ => exact Nat.le_refl 0
      have was' := View.stage_of_seated was seated waits
      rw [stages]
      refine offered.set was' (Nat.zero_le _) fun i c lt found => ?_
      exact Nat.le_trans (offered i id c a lt found was') (Nat.le_of_eq rank)

theorem Shift.sorted (h : Shift m v v') (queueing : v.Queueing)
    (graded : v.mgr.closed = false → Graded v.stages)
    (sorted : v.mgr.slotWaiters.Pairwise (· < ·)) : v'.mgr.slotWaiters.Pairwise (· < ·) := by
  have tail (slots : v'.mgr.slots = v.mgr.slots.map fun p => p.release.1) :
      v'.mgr.slotWaiters.Pairwise (· < ·) := by
    rw [View.slotWaiters_map (k := List.tail) slots Permits.release_waiting rfl]
    exact sorted.sublist (List.tail_sublist _)
  cases h with
  | still _ slots | came _ slots | switch _ _ _ _ slots | pass _ _ _ _ slots _ =>
      rwa [View.slotWaiters_of_slots slots]
  | @lineUp id p turn was isOpen slots full stages joined =>
      rw [View.slotWaiters_lineUp slots full joined, List.pairwise_append]
      refine ⟨sorted, List.pairwise_singleton _ _, fun i mem j mem' => ?_⟩
      rw [List.mem_singleton.mp mem']
      have waits := (queueing.mem i).mp mem
      apply Classical.byContradiction
      intro ge
      rcases Nat.lt_or_eq_of_le (Nat.le_of_not_lt ge) with lt | rfl
      · exact absurd (graded isOpen id i _ _ lt was waits) (by decide)
      · cases was.symm.trans waits
  | take turn was room stages slots =>
      rwa [View.slotWaiters_take room slots]
  | @giveUp id was isClosed stages slots told =>
      rw [View.slotWaiters_map (k := fun ids => ids.erase id) slots (fun _ => rfl) rfl]
      exact sorted.sublist List.erase_sublist
  | free was seated nobody stages slots told => exact tail slots
  | handOn was seated first stages slots woken told => exact tail slots

theorem Step.ranked (h : Step L m v v') (queueing : v.Queueing) (lined : v.Lined m)
    (ranked : v.Ranked) : v'.Ranked := by
  refine ⟨fun isOpen => ?_, h.shift.sorted queueing ranked.graded ranked.sorted⟩
  have wasOpen : v.mgr.closed = false := by
    cases was : v.mgr.closed with
    | false => rfl
    | true =>
        rw [h.closed was] at isOpen
        cases isOpen
  exact h.shift.graded queueing lined ranked.sorted wasOpen (ranked.graded wasOpen)

/-! ## Conservation -/

theorem countP_set_of_was {q : Stage → Bool} (was : xs[id]? = some a) (b : Stage) :
    (xs.set id b).countP q + (q a).toNat = xs.countP q + (q b).toNat := by
  obtain ⟨inside, rfl⟩ := List.getElem?_eq_some_iff.mp was
  have counted : (q xs[id]).toNat ≤ xs.countP q := by
    cases held : q xs[id] with
    | false => exact Nat.zero_le _
    | true => exact List.countP_pos_iff.mpr ⟨_, List.getElem_mem inside, held⟩
  have one (c : Bool) : (if c = true then 1 else 0) = c.toNat := by
    cases c <;> rfl
  rw [List.countP_set inside, one, one]
  omega

theorem Step.conserved {size : Nat} (h : Step L m v v') (queueing : v.Queueing)
    (conserved : v.Conserved size) : v'.Conserved size := by
  obtain ⟨p, pool, total⟩ := conserved
  cases h.shift with
  | still stages slots => exact ⟨p, slots.trans pool, by rwa [stages]⟩
  | came stages slots kind =>
      refine ⟨p, slots.trans pool, ?_⟩
      rw [stages, List.countP_append]
      rcases kind with ⟨rfl, -⟩ | ⟨rfl, -⟩ <;> exact total
  | @switch id a b was before after stages slots due =>
      refine ⟨p, slots.trans pool, ?_⟩
      have count := countP_set_of_was (q := Stage.isSeated) was b
      rw [before, Stage.isSeated_of_isInRun after, ← stages] at count
      omega
  | @lineUp id p' turn was isOpen slots full stages joined =>
      cases slots.symm.trans pool
      obtain ⟨-, free, -⟩ := Permits.acquire_of_zero full id
      refine ⟨_, joined, ?_⟩
      have count := countP_set_of_was (q := Stage.isSeated) was .queued
      rw [← stages] at count
      simp only [Stage.isSeated] at count
      omega
  | @take id calls turn was room stages slots =>
      have pos := room p pool
      obtain ⟨-, free, -⟩ := Permits.acquire_of_pos pos id
      refine ⟨(p.acquire id).1, by rw [slots, pool, Option.map_some], ?_⟩
      have count := countP_set_of_was (q := Stage.isSeated) was (.calling calls)
      rw [← stages] at count
      simp only [Stage.isSeated, Bool.toNat_true, Bool.toNat_false] at count
      omega
  | pass turn was why stages slots told =>
      refine ⟨p, slots.trans pool, ?_⟩
      have count := countP_set_of_was (q := Stage.isSeated) was .over
      rw [← stages] at count
      simp only [Stage.isSeated] at count
      omega
  | @giveUp id was isClosed stages slots told =>
      refine ⟨p.leave id, by rw [slots, pool, Option.map_some], ?_⟩
      have count := countP_set_of_was (q := Stage.isSeated) was .over
      rw [← stages] at count
      simp only [Stage.isSeated, Permits.leave] at count ⊢
      omega
  | @free id a was seated nobody stages slots told =>
      refine ⟨p.release.1, by rw [slots, pool, Option.map_some], ?_⟩
      have waiting : p.waiting = [] := by
        rw [← nobody]
        unfold Manager.slotWaiters
        rw [pool]
      have count := countP_set_of_was (q := Stage.isSeated) was .over
      rw [← stages, seated] at count
      simp only [Stage.isSeated, Bool.toNat_true, Bool.toNat_false] at count
      rw [Permits.release_free, if_pos waiting]
      omega
  | @handOn id next a rest was seated first stages slots woken told =>
      refine ⟨p.release.1, by rw [slots, pool, Option.map_some], ?_⟩
      have waiting : p.waiting ≠ [] := by
        unfold Manager.slotWaiters at first
        rw [pool] at first
        dsimp only at first
        rw [first]
        nofun
      have waits := (queueing.mem next).mp (first ▸ List.mem_cons_self)
      have was' := View.stage_of_seated was seated waits
      have offered := countP_set_of_was (q := Stage.isSeated) waits .offered
      have count := countP_set_of_was (q := Stage.isSeated) was' .over
      rw [← stages, seated] at count
      simp only [Stage.isSeated, Bool.toNat_true, Bool.toNat_false] at count offered
      rw [Permits.release_free, if_neg waiting]
      omega

end Flotilla
