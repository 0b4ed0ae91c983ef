/-!
# Permits

A pool of permits with a line of waiters. A permit that becomes free goes to the first in
line at that moment; it is counted as free only when nobody waits. So somebody waits only
while no permit is free, which the type keeps as `none_free`.
-/

namespace Flotilla

/-- Free permits, and those who wait for one, longest first. -/
structure Permits (α : Type) where
  free : Nat
  waiting : List α := []
  /-- Nobody waits while a permit is free. -/
  none_free : waiting = [] ∨ free = 0 := by simp

namespace Permits

variable {α : Type}

/-- Takes a free permit, or joins the line; tells which. -/
def acquire (p : Permits α) (a : α) : Permits α × Bool :=
  match h : p.free with
  | n + 1 =>
    ({ free := n, waiting := p.waiting,
       none_free := p.none_free.imp_right fun h' => by omega }, true)
  | 0 => ({ free := 0, waiting := p.waiting ++ [a], none_free := .inr rfl }, false)

/-- Adds a permit: to the first in line, who is named, or to the free ones. -/
def release (p : Permits α) : Permits α × Option α :=
  match h : p.waiting with
  | a :: rest =>
    ({ free := p.free, waiting := rest,
       none_free := p.none_free.imp_left fun h' => by simp [h] at h' }, some a)
  | [] => ({ free := p.free + 1, waiting := [], none_free := .inl rfl }, none)

/-- Leaves the line. -/
def leave [DecidableEq α] (p : Permits α) (a : α) : Permits α :=
  { free := p.free, waiting := p.waiting.erase a,
    none_free := p.none_free.imp_left fun h' => by simp [h'] }

theorem free_eq_zero_of_mem {p : Permits α} {a : α} (h : a ∈ p.waiting) : p.free = 0 :=
  p.none_free.resolve_left (List.ne_nil_of_mem h)

end Permits

end Flotilla
