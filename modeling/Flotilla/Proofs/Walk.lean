import Flotilla.Fleet.Manager
import Mathlib.Data.List.Sort

/-!
# Walks through the registered launches

A walk comes upon every registered launch once, in an order of its own (`Manager.walked_perm`).
What is gathered on the way and put in order of ids does not depend on it (`sortBy_eq_of_perm`).
-/

namespace Flotilla

variable {α : Type}

/-! ## Sorting -/

theorem sortBy_eq_insertionSort (key : α → Nat) (xs : List α) :
    sortBy key xs = xs.insertionSort fun x y => key x ≤ key y := by
  have insert (x : α) (ys : List α) :
      insertBy key x ys = ys.orderedInsert (fun x y => key x ≤ key y) x := by
    induction ys with
    | nil => rfl
    | cons y ys ih => rw [insertBy, List.orderedInsert_cons, ih]
  induction xs with
  | nil => rfl
  | cons x xs ih =>
      rw [List.insertionSort_cons, ← ih, ← insert]
      rfl

theorem sortBy_perm (key : α → Nat) (xs : List α) : (sortBy key xs).Perm xs := by
  rw [sortBy_eq_insertionSort]
  exact List.perm_insertionSort _ xs

theorem pairwise_sortBy (key : α → Nat) (xs : List α) :
    (sortBy key xs).Pairwise fun x y => key x ≤ key y := by
  rw [sortBy_eq_insertionSort]
  have total : Std.Total fun x y => key x ≤ key y := ⟨fun x y => Nat.le_total (key x) (key y)⟩
  have trans : IsTrans α fun x y => key x ≤ key y := ⟨fun _ _ _ => Nat.le_trans⟩
  exact List.pairwise_insertionSort _ xs

theorem pairwise_lt_sortBy {key : α → Nat} {xs : List α} (once : (xs.map key).Nodup) :
    ((sortBy key xs).map key).Pairwise (· < ·) := by
  have distinct := ((sortBy_perm key xs).map key).nodup_iff.mpr once
  have sorted := List.pairwise_map.mpr (pairwise_sortBy key xs)
  exact (List.pairwise_and_iff.mpr ⟨sorted, distinct⟩).imp fun both =>
    Nat.lt_of_le_of_ne both.1 both.2

/-- Sorting gives back what is in order, whatever order it was brought into. -/
theorem sortBy_eq_of_perm {key : α → Nat} {xs ys : List α} (perm : xs.Perm ys)
    (ascending : (ys.map key).Pairwise (· < ·)) : sortBy key xs = ys := by
  have sorted := (sortBy_perm key xs).trans perm
  have once : (ys.map key).Nodup := ascending.imp Nat.ne_of_lt
  refine List.Perm.eq_of_pairwise (fun x y mem mem' before after => ?_) (pairwise_sortBy key xs)
    ((List.pairwise_map.mp ascending).imp Nat.le_of_lt) sorted
  exact List.inj_on_of_nodup_map once (sorted.mem_iff.mp mem) mem' (Nat.le_antisymm before after)

namespace Manager

/-! ## The registry -/

theorem mem_registry {mgr : Manager} {id : Nat} {l : Launch} :
    (id, l) ∈ mgr.registry ↔ mgr.launches[id]? = some l ∧ l.registered = true := by
  unfold Manager.registry
  rw [List.mem_filterMap]
  constructor
  · intro mem
    rcases mem with ⟨⟨l', id'⟩, mem, eq⟩
    rw [List.mem_zipIdx_iff_getElem?] at mem
    dsimp only at eq mem
    split at eq
    · rename_i registered
      cases eq
      exact ⟨mem, registered⟩
    · cases eq
  · intro known
    rcases known with ⟨found, registered⟩
    refine ⟨(l, id), List.mem_zipIdx_iff_getElem?.mpr found, ?_⟩
    rw [if_pos registered]

theorem pairwise_registry (mgr : Manager) : (mgr.registry.map Prod.fst).Pairwise (· < ·) := by
  have places : mgr.registry.map Prod.fst =
      (mgr.launches.zipIdx.filter fun x => x.1.registered).map Prod.snd := by
    unfold Manager.registry
    generalize mgr.launches.zipIdx = xs
    induction xs with
    | nil => rfl
    | cons x xs ih =>
        cases registered : x.1.registered <;> simp [registered, ih]
  rw [places]
  have sorted : (mgr.launches.zipIdx.map Prod.snd).Pairwise (· < ·) := by
    rw [List.zipIdx_map_snd]
    exact List.pairwise_lt_range' _
  exact sorted.sublist (List.filter_sublist.map _)

/-! ## Walks -/

/-- A walk comes upon every registered launch once. -/
theorem walked_perm (mgr : Manager) : mgr.walked.Perm mgr.registry := by
  have perm := (mgr.walk.perm mgr.launches.length (mgr.registry.map Prod.fst)).map fun id =>
    (id, mgr.launches.getD id default)
  refine perm.trans (List.Perm.of_eq ?_)
  rw [List.map_map]
  refine (List.map_congr_left fun x mem => ?_).trans (List.map_id mgr.registry)
  obtain ⟨found, -⟩ := mem_registry.mp mem
  show (x.1, mgr.launches.getD x.1 default) = x
  rw [List.getD_eq_getElem?_getD, found]
  rfl

end Manager

end Flotilla
