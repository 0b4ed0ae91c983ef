/-!
# One thread, first in first out

Tasks that can go on stand in one line and run one after another, each until it has to wait.
A task that is woken goes to the end of the line, unless it stands there already. `runToRest`
repeats a step until nothing can go on.
-/

namespace Flotilla

/-- The line of tasks that can go on, and the task that is being run. -/
structure Scheduler (τ : Type) where
  ready : List τ := []
  running : Option τ := none
  /-- A task stands in the line at most once. -/
  nodup : ready.Nodup := by simp

namespace Scheduler

variable {τ : Type}

/-- No task waits or runs. -/
def empty : Scheduler τ := {}

/-- Puts a task at the end of the line, unless it stands there already. -/
def wake [DecidableEq τ] (s : Scheduler τ) (t : τ) : Scheduler τ :=
  if h : t ∈ s.ready then s
  else
    { s with
      ready := s.ready ++ [t]
      nodup := by
        rw [List.nodup_append]
        refine ⟨s.nodup, by simp, ?_⟩
        intro a ha b hb
        rw [List.mem_singleton] at hb
        subst hb
        exact fun e => h (e ▸ ha) }

/-- Wakes tasks in order. -/
def wakeAll [DecidableEq τ] (s : Scheduler τ) (ts : List τ) : Scheduler τ :=
  ts.foldl wake s

/-- The task being run has to wait, or is over. -/
def park (s : Scheduler τ) : Scheduler τ := { s with running := none }

/-- The first in line is run next; `none` when nobody stands there. -/
def next? (s : Scheduler τ) : Option (Scheduler τ) :=
  match h : s.ready with
  | [] => none
  | t :: rest =>
    some
      { ready := rest
        running := some t
        nodup := (List.nodup_cons.1 (h ▸ s.nodup)).2 }

/-- Whether no task can go on. -/
def isSettled (s : Scheduler τ) : Bool := s.ready.isEmpty && s.running.isNone

/-- What the tasks in line and the task being run are charged with: one in line with one more. -/
def weight (φ : τ → Nat) (s : Scheduler τ) : Nat :=
  s.ready.foldr (fun t n => φ t + 1 + n) 0 + (s.running.map φ).getD 0

/-- A task is being run or stands in line. -/
def IsDue (s : Scheduler τ) (t : τ) : Prop := s.running = some t ∨ t ∈ s.ready

theorem mem_ready_wake [DecidableEq τ] {s : Scheduler τ} {t u : τ} :
    u ∈ (s.wake t).ready ↔ u ∈ s.ready ∨ u = t := by
  unfold wake
  split
  · rename_i h
    exact ⟨.inl, fun h' => h'.elim id fun e => e ▸ h⟩
  · simp

theorem running_wake [DecidableEq τ] (s : Scheduler τ) (t : τ) :
    (s.wake t).running = s.running := by
  unfold wake
  split <;> rfl

theorem mem_ready_wakeAll [DecidableEq τ] {s : Scheduler τ} {ts : List τ} {u : τ} :
    u ∈ (s.wakeAll ts).ready ↔ u ∈ s.ready ∨ u ∈ ts := by
  induction ts generalizing s with
  | nil => simp [wakeAll]
  | cons t ts ih =>
      have first : u ∈ ((s.wake t).wakeAll ts).ready ↔ _ := ih
      rw [mem_ready_wake] at first
      rw [List.mem_cons, ← or_assoc]
      exact first

theorem running_wakeAll [DecidableEq τ] (s : Scheduler τ) (ts : List τ) :
    (s.wakeAll ts).running = s.running := by
  induction ts generalizing s with
  | nil => rfl
  | cons t ts ih => exact (ih (s.wake t)).trans (s.running_wake t)

theorem next?_eq_none_iff {s : Scheduler τ} : s.next? = none ↔ s.ready = [] := by
  unfold next?
  split <;> simp_all

theorem exists_of_next? {s s' : Scheduler τ} (next : s.next? = some s') :
    ∃ t, s.ready = t :: s'.ready ∧ s'.running = some t := by
  unfold next? at next
  split at next
  · cases next
  · rename_i t rest first
    cases next
    exact ⟨t, first, rfl⟩

theorem IsDue.inLine {s : Scheduler τ} {t u : τ} (due : s.IsDue t) (turn : s.running = some u)
    (ne : u ≠ t) : t ∈ s.ready := by
  rcases due with due | mem
  · exact absurd (Option.some.inj (turn.symm.trans due)) ne
  · exact mem

theorem isDue_wakeAll [DecidableEq τ] {s : Scheduler τ} {ts : List τ} {t : τ} :
    (s.wakeAll ts).IsDue t ↔ s.IsDue t ∨ t ∈ ts := by
  unfold IsDue
  rw [running_wakeAll, mem_ready_wakeAll, or_assoc]

theorem isDue_wake [DecidableEq τ] {s : Scheduler τ} {t u : τ} :
    (s.wake t).IsDue u ↔ s.IsDue u ∨ u = t := by
  unfold IsDue
  rw [running_wake, mem_ready_wake, or_assoc]

/-- The first in line is run next, and nothing else becomes due. -/
theorem isDue_of_next? {s s' : Scheduler τ} {t : τ} (next : s.next? = some s')
    (idle : s.running = none) : s'.IsDue t ↔ s.IsDue t := by
  obtain ⟨u, first, turn⟩ := exists_of_next? next
  unfold IsDue
  rw [first, turn, idle, List.mem_cons, Option.some.injEq, eq_comm]
  simp

theorem not_isDue_of_isSettled {s : Scheduler τ} (settled : s.isSettled = true) (t : τ) :
    ¬ s.IsDue t := by
  unfold isSettled at settled
  rw [Bool.and_eq_true, List.isEmpty_iff, Option.isNone_iff_eq_none] at settled
  simp [IsDue, settled]

end Scheduler

/-- Repeats a step until it does not apply, or as often as the budget allows. -/
def runToRest {σ : Type} (step? : σ → Option σ) : Nat → σ → σ
  | 0, s => s
  | n + 1, s =>
    match step? s with
    | none => s
    | some s' => runToRest step? n s'

/-- How many steps are taken before a system is given up as one that never comes to rest. -/
def restBudget : Nat := 100000000

theorem runToRest_of_none {σ : Type} {step? : σ → Option σ} {s : σ} (h : step? s = none) (n : Nat) :
    runToRest step? n s = s := by
  cases n with
  | zero => rfl
  | succ n => simp [runToRest, h]

/-- Repeating a step until it does not apply is making moves, where a move that does not apply
changes nothing. -/
theorem runToRest_eq_foldl {σ μ : Type} {step? : σ → Option σ} {move : σ → μ → σ} {turn : μ}
    (turns : ∀ s, move s turn = (step? s).getD s) (n : Nat) (s : σ) :
    runToRest step? n s = (List.replicate n turn).foldl move s := by
  induction n generalizing s with
  | zero => rfl
  | succ n ih =>
      rw [List.replicate_succ, List.foldl_cons, turns, ← ih, runToRest]
      cases stepped : step? s with
      | none => exact (runToRest_of_none stepped n).symm
      | some s' => rfl

end Flotilla
