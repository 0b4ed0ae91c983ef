import Flotilla.Proofs.Step

/-!
# What the changes of a view do to its parts

For each change of a view: the parts it leaves alone, the line afterwards as a longer line, and
each launch afterwards in terms of the same launch before. The invariants are proved from these
facts and do not look into the changes.
-/

namespace Flotilla

/-! ## Permits -/

namespace Permits

variable {α : Type} {p : Permits α} {a : α}

theorem release_waiting (p : Permits α) : p.release.1.waiting = p.waiting.tail := by
  unfold release
  split <;> rename_i eq <;> simp [eq]

theorem release_next (p : Permits α) : p.release.2 = p.waiting.head? := by
  unfold release
  split <;> rename_i eq <;> simp [eq]

theorem release_free (p : Permits α) :
    p.release.1.free = if p.waiting = [] then p.free + 1 else p.free := by
  unfold release
  split <;> rename_i eq <;> simp [eq]

theorem acquire_of_pos (pos : 0 < p.free) (a : α) :
    (p.acquire a).2 = true ∧ (p.acquire a).1.free = p.free - 1 ∧
      (p.acquire a).1.waiting = p.waiting := by
  unfold acquire
  split
  · rename_i n eq
    exact ⟨rfl, by simp [eq], rfl⟩
  · omega

theorem acquire_of_zero (zero : p.free = 0) (a : α) :
    (p.acquire a).2 = false ∧ (p.acquire a).1.free = 0 ∧
      (p.acquire a).1.waiting = p.waiting ++ [a] := by
  unfold acquire
  split
  · omega
  · exact ⟨rfl, rfl, rfl⟩

theorem acquire_waiting (p : Permits α) (a : α) :
    (p.acquire a).1.waiting = if (p.acquire a).2 then p.waiting else p.waiting ++ [a] := by
  unfold acquire
  split <;> rfl

theorem waiting_of_pos (pos : 0 < p.free) : p.waiting = [] :=
  p.none_free.resolve_right (by omega)

theorem ext_parts {p q : Permits α} (free : p.free = q.free) (waiting : p.waiting = q.waiting) :
    p = q := by
  rcases p with ⟨free₁, waiting₁, _⟩
  rcases q with ⟨free₂, waiting₂, _⟩
  cases free
  cases waiting
  rfl

/-- A permit that is taken and given back is as before. -/
theorem release_acquire (pos : 0 < p.free) (a : α) : (p.acquire a).1.release = (p, none) := by
  obtain ⟨-, free, waiting⟩ := acquire_of_pos pos a
  have empty := waiting_of_pos pos
  refine Prod.ext (ext_parts ?_ ?_) ?_
  · rw [release_free, waiting, if_pos empty, free]
    exact Nat.sub_add_cancel pos
  · rw [release_waiting, waiting, empty]
    rfl
  · rw [release_next, waiting, empty]
    rfl

end Permits

namespace View

variable {v : View} {m id j w : Nat} {t u : Task}

/-! ## Waking -/

/-- Waking a task changes nothing but the line. -/
theorem exists_line_wake (v : View) (t : Task) : ∃ line, v.wake t = { v with line } := by
  unfold wake
  split <;> exact ⟨_, rfl⟩

theorem exists_line_wakeAll (v : View) (ts : List Task) :
    ∃ line, v.wakeAll ts = { v with line } := by
  induction ts generalizing v with
  | nil => exact ⟨v.line, rfl⟩
  | cons t ts ih =>
      obtain ⟨_, first⟩ := v.exists_line_wake t
      obtain ⟨line, rest⟩ := ih (v.wake t)
      refine ⟨line, ?_⟩
      show (v.wake t).wakeAll ts = _
      rw [rest, first]

@[simp] theorem wake_mgr (v : View) (t : Task) : (v.wake t).mgr = v.mgr := by
  obtain ⟨line, eq⟩ := v.exists_line_wake t
  rw [eq]

@[simp] theorem wake_running (v : View) (t : Task) : (v.wake t).running = v.running := by
  obtain ⟨line, eq⟩ := v.exists_line_wake t
  rw [eq]

@[simp] theorem wake_waits (v : View) (t : Task) : (v.wake t).waits = v.waits := by
  obtain ⟨line, eq⟩ := v.exists_line_wake t
  rw [eq]

@[simp] theorem wake_timers (v : View) (t : Task) : (v.wake t).timers = v.timers := by
  obtain ⟨line, eq⟩ := v.exists_line_wake t
  rw [eq]

@[simp] theorem wake_nameOf (v : View) (t : Task) : (v.wake t).nameOf = v.nameOf := by
  obtain ⟨line, eq⟩ := v.exists_line_wake t
  rw [eq]

@[simp] theorem wakeAll_mgr (v : View) (ts : List Task) : (v.wakeAll ts).mgr = v.mgr := by
  obtain ⟨line, eq⟩ := v.exists_line_wakeAll ts
  rw [eq]

@[simp] theorem wakeAll_running (v : View) (ts : List Task) :
    (v.wakeAll ts).running = v.running := by
  obtain ⟨line, eq⟩ := v.exists_line_wakeAll ts
  rw [eq]

@[simp] theorem wakeAll_waits (v : View) (ts : List Task) :
    (v.wakeAll ts).waits = v.waits := by
  obtain ⟨line, eq⟩ := v.exists_line_wakeAll ts
  rw [eq]

@[simp] theorem wakeAll_timers (v : View) (ts : List Task) :
    (v.wakeAll ts).timers = v.timers := by
  obtain ⟨line, eq⟩ := v.exists_line_wakeAll ts
  rw [eq]

@[simp] theorem wakeAll_nameOf (v : View) (ts : List Task) :
    (v.wakeAll ts).nameOf = v.nameOf := by
  obtain ⟨line, eq⟩ := v.exists_line_wakeAll ts
  rw [eq]

/-- Nothing changed but the manager and the line. -/
structure Local (v v' : View) : Prop where
  running : v'.running = v.running
  waits : v'.waits = v.waits
  timers : v'.timers = v.timers
  nameOf : v'.nameOf = v.nameOf

theorem Local.refl (v : View) : Local v v := ⟨rfl, rfl, rfl, rfl⟩

theorem Local.trans {v v' v'' : View} (h : Local v v') (h' : Local v' v'') : Local v v'' :=
  ⟨h'.running.trans h.running, h'.waits.trans h.waits, h'.timers.trans h.timers,
    h'.nameOf.trans h.nameOf⟩

theorem local_modify (v : View) (g : Manager → Manager) : Local v (v.modify g) :=
  ⟨rfl, rfl, rfl, rfl⟩

theorem local_modifyLaunch (v : View) (id : Nat) (g : Launch → Launch) :
    Local v (v.modifyLaunch id g) := ⟨rfl, rfl, rfl, rfl⟩

theorem local_wake (v : View) (t : Task) : Local v (v.wake t) :=
  ⟨wake_running v t, wake_waits v t, wake_timers v t, wake_nameOf v t⟩

theorem local_wakeAll (v : View) (ts : List Task) : Local v (v.wakeAll ts) :=
  ⟨wakeAll_running v ts, wakeAll_waits v ts, wakeAll_timers v ts, wakeAll_nameOf v ts⟩

/-- The line got longer by tasks of a kind, which are at its end. -/
def Lengthens (P : Task → Prop) (v v' : View) : Prop :=
  ∃ more, v'.line = v.line ++ more ∧ ∀ t ∈ more, P t

theorem Lengthens.of_eq {P : Task → Prop} {v v' : View} (same : v'.line = v.line) :
    Lengthens P v v' :=
  ⟨[], by rw [same, List.append_nil], fun _ h => absurd h List.not_mem_nil⟩

theorem Lengthens.trans {P : Task → Prop} {v v' v'' : View} (h : Lengthens P v v')
    (h' : Lengthens P v' v'') : Lengthens P v v'' := by
  obtain ⟨more, eq, all⟩ := h
  obtain ⟨more', eq', all'⟩ := h'
  refine ⟨more ++ more', by rw [eq', eq, List.append_assoc], fun t mem => ?_⟩
  exact (List.mem_append.mp mem).elim (all t) (all' t)

theorem Lengthens.mono {P Q : Task → Prop} {v v' : View} (h : Lengthens P v v')
    (sub : ∀ t, P t → Q t) : Lengthens Q v v' := by
  obtain ⟨more, eq, all⟩ := h
  exact ⟨more, eq, fun t mem => sub t (all t mem)⟩

theorem Lengthens.mem {P : Task → Prop} {v v' : View} (h : Lengthens P v v') (mem : t ∈ v.line) :
    t ∈ v'.line := by
  obtain ⟨more, eq, -⟩ := h
  rw [eq]
  exact List.mem_append_left _ mem

theorem lengthens_wake (v : View) (t : Task) : Lengthens (· = t) v (v.wake t) := by
  unfold wake
  split
  · exact .of_eq rfl
  · exact ⟨[t], rfl, fun u mem => List.mem_singleton.mp mem⟩

theorem lengthens_wakeAll (v : View) (ts : List Task) :
    Lengthens (· ∈ ts) v (v.wakeAll ts) := by
  induction ts generalizing v with
  | nil => exact .of_eq rfl
  | cons t ts ih =>
      refine ((lengthens_wake v t).mono ?_).trans ((ih (v.wake t)).mono ?_)
      · rintro u rfl
        exact List.mem_cons_self
      · exact fun u mem => List.mem_cons_of_mem t mem

theorem mem_line_wake_self (v : View) (t : Task) : t ∈ (v.wake t).line := by
  unfold wake
  split
  · assumption
  · exact List.mem_append_right _ (List.mem_singleton_self t)

theorem mem_line_wakeAll {ts : List Task} (mem : t ∈ ts) : t ∈ (v.wakeAll ts).line := by
  induction ts generalizing v with
  | nil => exact absurd mem List.not_mem_nil
  | cons u ts ih =>
      rcases List.mem_cons.mp mem with rfl | mem
      · exact (lengthens_wakeAll (v.wake t) ts).mem (mem_line_wake_self v t)
      · exact ih mem

/-! ## Publishing -/

theorem publishAll_eq (v : View) (es : List Event) :
    v.publishAll es = v.modify fun mgr => { mgr with bus := es.foldl Bus.publish mgr.bus } := by
  induction es generalizing v with
  | nil => rfl
  | cons e es ih => exact ih (v.publish e)

@[simp] theorem publishAll_line (v : View) (es : List Event) :
    (v.publishAll es).line = v.line := by
  rw [publishAll_eq]
  rfl

/-! ## Waking may as well come later -/

theorem wake_modify (v : View) (t : Task) (g : Manager → Manager) :
    (v.wake t).modify g = (v.modify g).wake t := by
  unfold wake
  show modify (if t ∈ v.line then v else _) g = if t ∈ v.line then _ else _
  split <;> rfl

theorem wake_publish (v : View) (t : Task) (e : Event) :
    (v.wake t).publish e = (v.publish e).wake t := wake_modify v t _

theorem wakeAll_modify (v : View) (ts : List Task) (g : Manager → Manager) :
    (v.wakeAll ts).modify g = (v.modify g).wakeAll ts := by
  induction ts generalizing v with
  | nil => rfl
  | cons t ts ih =>
      show ((v.wake t).wakeAll ts).modify g = ((v.modify g).wake t).wakeAll ts
      rw [ih, wake_modify]

/-! ## Slots -/

/-- The launch that waits longest for a slot. -/
def offeree (v : View) : Option Nat := v.mgr.slots.bind fun p => p.waiting.head?

theorem releaseSlot_eq (v : View) (m : Nat) :
    v.releaseSlot m =
      match v.offeree with
      | none => v.setSlots (v.mgr.slots.map fun p => p.release.1)
      | some id =>
        ((v.setSlots (v.mgr.slots.map fun p => p.release.1)).setStage id .offered).wake
          (.bot ⟨m, id⟩) := by
  unfold releaseSlot offeree
  cases slots : v.mgr.slots with
  | none =>
      have same : v = v.setSlots none := by
        rw [← slots]
        rfl
      simpa only [Option.bind_none, Option.map_none] using same
  | some p =>
      have next := p.release_next
      rcases released : p.release with ⟨q, _ | id⟩
      · rw [released] at next
        simp only [Option.bind_some, ← next, Option.map_some, released]
      · rw [released] at next
        simp only [Option.bind_some, ← next, Option.map_some, released]

/-- The launch that is handed what a launch gives back. -/
def successor (v : View) (id : Nat) : Option Nat :=
  match (v.mgr.launches.getD id default).stage with
  | .submitted | .queued => none
  | _ => v.offeree

/-- The slots after a launch gave back what it has. -/
def vacatedSlots (v : View) (id : Nat) : Option (Permits Nat) :=
  match (v.mgr.launches.getD id default).stage with
  | .submitted => v.mgr.slots
  | .queued => v.mgr.slots.map fun p => p.leave id
  | _ => v.mgr.slots.map fun p => p.release.1

theorem setSlots_self (v : View) : v.setSlots v.mgr.slots = v := rfl

theorem setSlots_slots (v : View) (slots : Option (Permits Nat)) :
    (v.setSlots slots).mgr.slots = slots := rfl

theorem vacate_eq (v : View) (m id : Nat) :
    v.vacate m id =
      match v.successor id with
      | none => v.setSlots (v.vacatedSlots id)
      | some next =>
        ((v.setSlots (v.vacatedSlots id)).setStage next .offered).wake (.bot ⟨m, next⟩) := by
  unfold vacate successor vacatedSlots
  cases (v.mgr.launches.getD id default).stage with
  | submitted => rfl
  | queued => rfl
  | offered => exact releaseSlot_eq v m
  | calling left => exact releaseSlot_eq v m
  | waiting heedsQuit => exact releaseSlot_eq v m
  | permitted heedsQuit => exact releaseSlot_eq v m
  | «over» => exact releaseSlot_eq v m

/-! ## Launches -/

theorem launch?_modifyLaunch (v : View) (id j : Nat) (g : Launch → Launch) :
    (v.modifyLaunch id g).launch? j =
      (v.launch? j).map fun l => if id = j then g l else l :=
  List.getElem?_modify g id v.mgr.launches j

theorem launch?_setStage (v : View) (id j : Nat) (stage : Stage) :
    (v.setStage id stage).launch? j =
      (v.launch? j).map fun l => if id = j then { l with stage } else l :=
  launch?_modifyLaunch v id j _

@[simp] theorem launch?_wake (v : View) (t : Task) (j : Nat) :
    (v.wake t).launch? j = v.launch? j := by
  rw [launch?, wake_mgr]
  rfl

@[simp] theorem launch?_wakeAll (v : View) (ts : List Task) (j : Nat) :
    (v.wakeAll ts).launch? j = v.launch? j := by
  rw [launch?, wakeAll_mgr]
  rfl

@[simp] theorem launch?_publish (v : View) (e : Event) (j : Nat) :
    (v.publish e).launch? j = v.launch? j := rfl

@[simp] theorem launch?_publishAll (v : View) (es : List Event) (j : Nat) :
    (v.publishAll es).launch? j = v.launch? j := by
  rw [publishAll_eq]
  rfl

@[simp] theorem launch?_setSlots (v : View) (slots : Option (Permits Nat)) (j : Nat) :
    (v.setSlots slots).launch? j = v.launch? j := rfl

theorem launch?_launch (v : View) (m b : Nat) (named : Bool) (j : Nat) :
    (v.launch m b named).launch? j =
      if j = v.mgr.launches.length then some { bot := b, registered := named }
      else v.launch? j := by
  have pushed : ∀ l : Launch, (v.mgr.launches ++ [l])[j]? =
      if j = v.mgr.launches.length then some l else v.mgr.launches[j]? := by
    intro l
    rw [List.getElem?_append]
    by_cases lt : j < v.mgr.launches.length
    · rw [if_pos lt, if_neg (by omega)]
    · rw [if_neg lt]
      by_cases eq : j = v.mgr.launches.length
      · simp [eq]
      · rw [if_neg eq, List.getElem?_eq_none (by simp; omega),
          List.getElem?_eq_none (by omega)]
  unfold launch
  cases named
  · simp only [Bool.false_eq_true, ↓reduceIte, launch?_wake]
    exact pushed _
  · simp only [↓reduceIte, launch?_publish, launch?_wake]
    exact pushed _

theorem launch?_vacate (v : View) (m id j : Nat) :
    (v.vacate m id).launch? j =
      (v.launch? j).map fun l =>
        if v.successor id = some j then { l with stage := .offered } else l := by
  rw [vacate_eq]
  cases v.successor id with
  | none => simp
  | some next => simp [launch?_setStage]

theorem launch?_terminateIfEmpty (v : View) (j : Nat) :
    v.terminateIfEmpty.launch? j = v.launch? j := by
  unfold terminateIfEmpty
  split <;> rfl

/-- Taking a slot changes the slots and nothing else. -/
theorem exists_takeSlot (v : View) (id : Nat) : ∃ slots, v.takeSlot id = v.setSlots slots := by
  unfold takeSlot
  split
  · exact ⟨_, rfl⟩
  · exact ⟨v.mgr.slots, rfl⟩

theorem launch?_takeSlot (v : View) (id j : Nat) : (v.takeSlot id).launch? j = v.launch? j := by
  obtain ⟨slots, taken⟩ := v.exists_takeSlot id
  rw [taken]
  rfl

theorem launch?_stop (v : View) (m : Nat) (asked : List Nat) (j : Nat) :
    (v.stop m asked).launch? j = v.launch? j := by
  rw [stop, launch?_terminateIfEmpty, launch?_publishAll, close, launch?_wakeAll]
  rfl

theorem launch?_unregister (v : View) (id j : Nat) (name : String) :
    (v.unregister id name).launch? j =
      (v.launch? j).map fun l => if id = j then { l with registered := false } else l := by
  unfold unregister
  split
  · rw [launch?_terminateIfEmpty, launch?_publish, launch?_modifyLaunch]
  · rename_i out
    cases found : v.launch? j with
    | none => rfl
    | some l =>
        rw [Option.map_some]
        split
        · rename_i eq
          subst eq
          have same : v.mgr.launches.getD id default = l := by
            rw [List.getD_eq_getElem?_getD]
            exact congrArg (·.getD default) found
          rw [same, Bool.not_eq_true] at out
          rw [← out]
        · rfl

theorem launch?_tellDrained (v : View) (m j : Nat) :
    (v.tellDrained m).launch? j = v.launch? j := by
  unfold tellDrained
  split
  · exact launch?_wakeAll _ _ _
  · rfl

theorem launch?_endTask (v : View) (m id j : Nat) :
    (v.endTask m id).launch? j =
      (v.launch? j).map fun l => if id = j then { l with stage := .over } else l := by
  rw [endTask, launch?_tellDrained, launch?_setStage]

theorem launch?_complete (v : View) (m id j : Nat) (outcome : RunOutcome) :
    (v.complete m id outcome).launch? j =
      (v.launch? j).map fun l =>
        if id = j then { l with stage := .over, registered := false } else l := by
  rw [complete, launch?_endTask, launch?_unregister, launch?_publish, Option.map_map]
  congr 1
  funext l
  simp only [Function.comp_apply]
  split <;> rfl

theorem getD_markAdmitted_stage (v : View) (id j : Nat) :
    ((v.markAdmitted id).mgr.launches.getD j default).stage =
      (v.mgr.launches.getD j default).stage := by
  have eq := launch?_modifyLaunch v id j fun l => { l with admitted := true }
  simp only [launch?] at eq
  rw [List.getD_eq_getElem?_getD, List.getD_eq_getElem?_getD, markAdmitted, eq]
  cases v.mgr.launches[j]? with
  | none => rfl
  | some l =>
      simp only [Option.map_some, Option.getD_some]
      split <;> rfl

@[simp] theorem successor_markAdmitted (v : View) (id : Nat) :
    (v.markAdmitted id).successor id = v.successor id := by
  unfold successor
  rw [getD_markAdmitted_stage]
  rfl

@[simp] theorem vacatedSlots_markAdmitted (v : View) (id : Nat) :
    (v.markAdmitted id).vacatedSlots id = v.vacatedSlots id := by
  unfold vacatedSlots
  rw [getD_markAdmitted_stage]
  rfl

/-- A launch before it comes to its end, what it had given back. -/
def vacated (v : View) (m id : Nat) (ran : Bool) : View :=
  (if ran then v.markAdmitted id else v).vacate m id

theorem leave_eq (v : View) (m id : Nat) (ran : Bool) (outcome : Option RunOutcome) :
    v.leave m id ran outcome =
      match outcome with
      | some outcome => (v.vacated m id ran).complete m id outcome
      | none => (v.vacated m id ran).endTask m id := rfl

theorem launch?_vacated (v : View) (m id : Nat) (ran : Bool) (j : Nat) :
    (v.vacated m id ran).launch? j =
      (v.launch? j).map fun l =>
        if v.successor id = some j then
          { l with stage := .offered, admitted := l.admitted || (ran && j == id) }
        else { l with admitted := l.admitted || (ran && j == id) } := by
  unfold vacated
  cases ran
  · simp [launch?_vacate]
  · simp only [↓reduceIte, launch?_vacate, successor_markAdmitted, Bool.true_and]
    rw [markAdmitted, launch?_modifyLaunch, Option.map_map]
    congr 1
    funext l
    by_cases eq : id = j
    · simp [eq]
    · have apart : (j == id) = false := beq_false_of_ne (Ne.symm eq)
      simp [eq, apart]

/-- What the end of a launch does to the launches: it is over and no longer registered, and
the launch that waited longest may have been offered its slot. -/
theorem launch?_leave (v : View) (m id : Nat) (ran : Bool) (outcome : Option RunOutcome)
    (j : Nat) :
    (v.leave m id ran outcome).launch? j =
      (v.launch? j).map fun l =>
        if j = id then
          { l with
            stage := .over
            admitted := l.admitted || ran
            registered := l.registered && outcome.isNone }
        else if v.successor id = some j then { l with stage := .offered }
        else l := by
  have ended (u : View) : (match outcome with
      | some outcome => u.complete m id outcome
      | none => u.endTask m id).launch? j = (u.launch? j).map fun l =>
        if id = j then
          { l with stage := .over, registered := l.registered && outcome.isNone }
        else l := by
    cases outcome with
    | none => simp only [launch?_endTask, Option.isNone_none, Bool.and_true]
    | some outcome => simp only [launch?_complete, Option.isNone_some, Bool.and_false]
  rw [leave_eq, ended, launch?_vacated, Option.map_map]
  congr 1
  funext l
  by_cases eq : id = j
  · subst eq
    by_cases next : v.successor id = some id <;> simp [next]
  · have apart : (j == id) = false := beq_false_of_ne (Ne.symm eq)
    by_cases next : v.successor id = some j <;> simp [next, eq, Ne.symm eq, apart]

/-! ## The end of a launch leaves the rest alone -/

theorem local_vacate (v : View) (m id : Nat) : Local v (v.vacate m id) := by
  rw [vacate_eq]
  split
  · exact local_modify v _
  · exact (local_modify v _).trans ((local_modify _ _).trans (local_wake _ _))

theorem local_terminateIfEmpty (v : View) : Local v v.terminateIfEmpty := by
  unfold terminateIfEmpty
  split
  · exact (local_modify v _).trans (local_modify _ _)
  · exact .refl v

theorem local_unregister (v : View) (id : Nat) (name : String) :
    Local v (v.unregister id name) := by
  unfold unregister
  split
  · exact ((local_modify v _).trans (local_modify _ _)).trans (local_terminateIfEmpty _)
  · exact .refl v

theorem local_endTask (v : View) (m id : Nat) : Local v (v.endTask m id) := by
  unfold endTask tellDrained
  split
  · exact (local_modifyLaunch v id _).trans (local_wakeAll _ _)
  · exact local_modifyLaunch v id _

theorem local_complete (v : View) (m id : Nat) (outcome : RunOutcome) :
    Local v (v.complete m id outcome) :=
  ((local_modify v _).trans (local_unregister _ id _)).trans (local_endTask _ m id)

theorem local_vacated (v : View) (m id : Nat) (ran : Bool) : Local v (v.vacated m id ran) := by
  have marked : Local v (if ran then v.markAdmitted id else v) := by
    cases ran
    · exact .refl v
    · exact local_modifyLaunch v id _
  exact marked.trans (local_vacate _ m id)

theorem local_leave (v : View) (m id : Nat) (ran : Bool) (outcome : Option RunOutcome) :
    Local v (v.leave m id ran outcome) := by
  rw [leave_eq]
  cases outcome with
  | none => exact (local_vacated v m id ran).trans (local_endTask _ m id)
  | some outcome => exact (local_vacated v m id ran).trans (local_complete _ m id outcome)

/-! ## So do launching and stopping -/

theorem local_launch (v : View) (m b : Nat) (named : Bool) : Local v (v.launch m b named) := by
  unfold launch
  dsimp only
  split
  · exact ((local_modify v _).trans (local_wake _ _)).trans (local_modify _ _)
  · exact (local_modify v _).trans (local_wake _ _)

theorem local_stop (v : View) (m : Nat) (asked : List Nat) : Local v (v.stop m asked) := by
  unfold stop close
  dsimp only
  rw [publishAll_eq]
  exact (((local_modify v _).trans ((local_modify _ _).trans (local_modify _ _))).trans
    (local_wakeAll _ _)).trans ((local_modify _ _).trans (local_terminateIfEmpty _))

/-! ## What the end of a launch does to the manager -/

theorem registry_eq_nil_iff {v : View} :
    v.mgr.registry = [] ↔ ∀ id l, v.launch? id = some l → l.registered = false := by
  unfold Manager.registry
  rw [List.filterMap_eq_nil_iff]
  constructor
  · intro none id l found
    have out := none (l, id) (List.mem_zipIdx_iff_getElem?.mpr found)
    cases registered : l.registered with
    | false => rfl
    | true => simp [registered] at out
  · rintro none ⟨l, id⟩ mem
    rw [if_neg]
    rw [none id l (List.mem_zipIdx_iff_getElem?.mp mem)]
    exact Bool.false_ne_true

theorem vacate_mgr (v : View) (m id : Nat) :
    (v.vacate m id).mgr = { v.mgr with
      slots := v.vacatedSlots id
      launches := (v.vacate m id).mgr.launches } := by
  rw [vacate_eq]
  split
  · rfl
  · rw [wake_mgr]
    rfl

theorem endTask_mgr (v : View) (m id : Nat) :
    (v.endTask m id).mgr = v.mgr.modifyLaunch id fun l => { l with stage := .over } := by
  unfold endTask tellDrained
  split
  · rw [wakeAll_mgr]
    rfl
  · rfl

theorem terminateIfEmpty_registry (v : View) :
    v.terminateIfEmpty.mgr.registry = v.mgr.registry := by
  unfold terminateIfEmpty
  split <;> rfl

theorem unregister_mgr (v : View) (id : Nat) (name : String) :
    (v.unregister id name).mgr = { v.mgr with
      launches := (v.unregister id name).mgr.launches
      phase := (v.unregister id name).mgr.phase
      bus := (v.unregister id name).mgr.bus } := by
  unfold unregister terminateIfEmpty
  split
  · split <;> rfl
  · rfl

theorem terminateIfEmpty_phase (v : View) :
    (v.mgr.phase = .stopping ∧ v.mgr.registry = [] → v.terminateIfEmpty.mgr.phase = .terminated) ∧
      (¬ (v.mgr.phase = .stopping ∧ v.mgr.registry = []) →
        v.terminateIfEmpty.mgr.phase = v.mgr.phase) := by
  unfold terminateIfEmpty
  constructor
  · intro ends
    rw [if_pos ⟨ends.1, List.isEmpty_iff.mpr ends.2⟩]
    rfl
  · intro goesOn
    rw [if_neg fun empty => goesOn ⟨empty.1, List.isEmpty_iff.mp empty.2⟩]

/-- The last launch to leave the registry of a manager that stops brings it to its end. -/
theorem unregister_phase (v : View) (id : Nat) (name : String) :
    ((v.mgr.launches.getD id default).registered = true ∧ v.mgr.phase = .stopping ∧
        (v.unregister id name).mgr.registry = [] →
      (v.unregister id name).mgr.phase = .terminated) ∧
    (¬ ((v.mgr.launches.getD id default).registered = true ∧ v.mgr.phase = .stopping ∧
        (v.unregister id name).mgr.registry = []) →
      (v.unregister id name).mgr.phase = v.mgr.phase) := by
  unfold unregister
  by_cases registered : (v.mgr.launches.getD id default).registered = true
  · rw [if_pos registered, terminateIfEmpty_registry]
    obtain ⟨ends, goesOn⟩ := terminateIfEmpty_phase
      ((v.modifyLaunch id fun l => { l with registered := false }).publish (.botRemoved id name))
    exact ⟨fun h => ends h.2, fun h => goesOn fun h' => h ⟨registered, h'⟩⟩
  · rw [if_neg registered]
    exact ⟨fun h => absurd h.1 registered, fun _ => rfl⟩

theorem vacated_mgr (v : View) (m id : Nat) (ran : Bool) :
    (v.vacated m id ran).mgr = { v.mgr with
      slots := v.vacatedSlots id
      launches := (v.vacated m id ran).mgr.launches } := by
  unfold vacated
  cases ran
  · exact vacate_mgr v m id
  · have marked := vacate_mgr (v.markAdmitted id) m id
    rw [vacatedSlots_markAdmitted] at marked
    exact marked

theorem vacated_getD (v : View) (m id : Nat) (ran : Bool) :
    ((v.vacated m id ran).mgr.launches.getD id default).registered =
        (v.mgr.launches.getD id default).registered ∧
      ((v.vacated m id ran).mgr.launches.getD id default).bot =
        (v.mgr.launches.getD id default).bot := by
  have eq := launch?_vacated v m id ran id
  simp only [launch?] at eq
  rw [List.getD_eq_getElem?_getD, List.getD_eq_getElem?_getD, eq]
  cases v.mgr.launches[id]? with
  | none => exact ⟨rfl, rfl⟩
  | some l =>
      simp only [Option.map_some, Option.getD_some]
      split <;> exact ⟨rfl, rfl⟩

theorem endTask_registry (v : View) (m id : Nat) :
    (v.endTask m id).mgr.registry = [] ↔ v.mgr.registry = [] := by
  rw [registry_eq_nil_iff, registry_eq_nil_iff]
  simp only [launch?_endTask, Option.map_eq_some_iff]
  constructor
  · intro none j l found
    have out := none j _ ⟨l, found, rfl⟩
    split at out <;> exact out
  · rintro none j _ ⟨l, found, rfl⟩
    split <;> exact none j l found

/-- A launch that leaves changes the launches and the slots, what is published, and the phase
if it is the last one. -/
theorem leave_mgr (v : View) (m id : Nat) (ran : Bool) (outcome : Option RunOutcome) :
    (v.leave m id ran outcome).mgr = { v.mgr with
      slots := v.vacatedSlots id
      launches := (v.leave m id ran outcome).mgr.launches
      phase := (v.leave m id ran outcome).mgr.phase
      bus := (v.leave m id ran outcome).mgr.bus } := by
  rw [leave_eq]
  have fields := vacated_mgr v m id ran
  generalize v.vacated m id ran = u at fields ⊢
  cases outcome with
  | none =>
      dsimp only
      rw [endTask_mgr, fields]
      rfl
  | some outcome =>
      dsimp only [complete]
      have published (e : Event) : (u.publish e).mgr = { v.mgr with
          slots := v.vacatedSlots id
          launches := u.mgr.launches
          bus := v.mgr.bus.publish e } :=
        congrArg (fun x : Manager => { x with bus := x.bus.publish e }) fields
      rw [endTask_mgr, unregister_mgr, published]
      rfl

theorem leave_phase (v : View) (m id : Nat) (ran : Bool) (outcome : Option RunOutcome) :
    (outcome.isSome = true ∧ (v.mgr.launches.getD id default).registered = true ∧
        v.mgr.phase = .stopping ∧ (v.leave m id ran outcome).mgr.registry = [] →
      (v.leave m id ran outcome).mgr.phase = .terminated) ∧
    (¬ (outcome.isSome = true ∧ (v.mgr.launches.getD id default).registered = true ∧
        v.mgr.phase = .stopping ∧ (v.leave m id ran outcome).mgr.registry = []) →
      (v.leave m id ran outcome).mgr.phase = v.mgr.phase) := by
  rw [leave_eq]
  have fields := vacated_mgr v m id ran
  obtain ⟨registered, -⟩ := vacated_getD v m id ran
  have phase : (v.vacated m id ran).mgr.phase = v.mgr.phase := by rw [fields]
  generalize v.vacated m id ran = u at phase registered ⊢
  cases outcome with
  | none =>
      refine ⟨fun h => absurd h.1 (by simp), fun _ => ?_⟩
      dsimp only
      rw [endTask_mgr, ← phase]
      rfl
  | some outcome =>
      dsimp only [complete]
      have left := unregister_phase (u.publish (Fleet.outcomeEvent id
        (u.nameOf (u.mgr.launches.getD id default).bot) outcome)) id
          (u.nameOf (u.mgr.launches.getD id default).bot)
      have same : (u.publish (Fleet.outcomeEvent id
        (u.nameOf (u.mgr.launches.getD id default).bot) outcome)).mgr.phase = v.mgr.phase := phase
      have same' : ((u.publish (Fleet.outcomeEvent id
        (u.nameOf (u.mgr.launches.getD id default).bot) outcome)).mgr.launches.getD id
          default).registered = (v.mgr.launches.getD id default).registered := registered
      rw [same, same'] at left
      generalize ((u.publish (Fleet.outcomeEvent id
        (u.nameOf (u.mgr.launches.getD id default).bot) outcome)).unregister id
          (u.nameOf (u.mgr.launches.getD id default).bot)) = w at left ⊢
      rw [endTask_registry, endTask_mgr]
      exact ⟨fun h => left.1 h.2, fun h => left.2 fun h' => h ⟨rfl, h'⟩⟩

/-! ## What launching and stopping do to the manager -/

theorem launch_mgr (v : View) (m b : Nat) (named : Bool) :
    (v.launch m b named).mgr = { v.mgr with
      launches := v.mgr.launches ++ [{ bot := b, registered := named }]
      bus := (v.launch m b named).mgr.bus } := by
  unfold launch
  dsimp only
  split
  · rw [wake_publish, wake_mgr]
    rfl
  · rw [wake_mgr]
    rfl

/-- A manager that begins to stop: its pool is closed, and nothing more was announced yet. -/
def closing (v : View) (m : Nat) : View :=
  ((v.modify fun mgr => { mgr with phase := .stopping }).publish (.stateChanged .stopping)).close m

theorem closing_mgr (v : View) (m : Nat) : (v.closing m).mgr = { v.mgr with
    phase := .stopping
    closed := true
    bus := v.mgr.bus.publish (.stateChanged .stopping) } := by
  unfold closing close
  rw [wakeAll_mgr]
  rfl

theorem stop_eq (v : View) (m : Nat) (asked : List Nat) :
    v.stop m asked = ((v.closing m).publishAll (asked.map fun id =>
      .quitRequested id ((v.closing m).launchName id))).terminateIfEmpty := rfl

theorem stop_mgr (v : View) (m : Nat) (asked : List Nat) :
    (v.stop m asked).mgr = { v.mgr with
      closed := true
      phase := (v.stop m asked).mgr.phase
      bus := (v.stop m asked).mgr.bus } := by
  have fields := closing_mgr v m
  rw [stop_eq, publishAll_eq]
  generalize asked.map (fun id => Event.quitRequested id ((v.closing m).launchName id)) = es
  unfold terminateIfEmpty
  split
  · simp only [publish, modify, fields]
  · simp only [modify, fields]

theorem stop_phase (v : View) (m : Nat) (asked : List Nat) :
    (v.mgr.registry = [] → (v.stop m asked).mgr.phase = .terminated) ∧
      (v.mgr.registry ≠ [] → (v.stop m asked).mgr.phase = .stopping) := by
  have fields := closing_mgr v m
  rw [stop_eq, publishAll_eq]
  generalize asked.map (fun id => Event.quitRequested id ((v.closing m).launchName id)) = es
  obtain ⟨ends, goesOn⟩ := terminateIfEmpty_phase ((v.closing m).modify fun mgr =>
    { mgr with bus := es.foldl Bus.publish mgr.bus })
  have phase : (v.closing m).mgr.phase = .stopping := by rw [fields]
  have registry : (v.closing m).mgr.registry = v.mgr.registry := by
    rw [fields]
    rfl
  constructor
  · intro empty
    exact ends ⟨phase, registry.trans empty⟩
  · intro held
    refine (goesOn fun h => held ?_).trans phase
    exact registry.symm.trans h.2

/-! ## Who is woken -/

theorem Lengthens.of_line {P : Task → Prop} {v v' v'' : View} (h : Lengthens P v v')
    (same : v''.line = v'.line) : Lengthens P v v'' := by
  obtain ⟨more, eq, all⟩ := h
  exact ⟨more, same.trans eq, all⟩

theorem lengthens_launch (v : View) (m b : Nat) (named : Bool) :
    Lengthens (· = .bot ⟨m, v.mgr.launches.length⟩) v (v.launch m b named) := by
  unfold launch
  dsimp only
  split
  · exact (lengthens_wake (v.modify _) _).of_line rfl
  · exact lengthens_wake (v.modify _) _

theorem mem_line_launch (v : View) (m b : Nat) (named : Bool) :
    Task.bot ⟨m, v.mgr.launches.length⟩ ∈ (v.launch m b named).line := by
  unfold launch
  dsimp only
  split <;> exact mem_line_wake_self (v.modify _) _

theorem terminateIfEmpty_line (v : View) : v.terminateIfEmpty.line = v.line := by
  unfold terminateIfEmpty
  split <;> rfl

theorem lengthens_stop (v : View) (m : Nat) (asked : List Nat) :
    Lengthens (· ∈ v.mgr.slotWaiters.map fun id => Task.bot ⟨m, id⟩) v (v.stop m asked) := by
  refine (lengthens_wakeAll (((v.modify fun mgr => { mgr with phase := .stopping }).publish
    (.stateChanged .stopping)).modify fun mgr => { mgr with closed := true }) _).of_line ?_
  rw [stop_eq, terminateIfEmpty_line, publishAll_line]
  rfl

theorem mem_line_stop {v : View} {id : Nat} (mem : id ∈ v.mgr.slotWaiters) (m : Nat)
    (asked : List Nat) : Task.bot ⟨m, id⟩ ∈ (v.stop m asked).line := by
  rw [stop_eq, terminateIfEmpty_line, publishAll_line]
  exact mem_line_wakeAll (List.mem_map_of_mem mem)

theorem lengthens_vacated (v : View) (m id : Nat) (ran : Bool) :
    Lengthens (fun t => ∃ next, v.successor id = some next ∧ t = .bot ⟨m, next⟩) v
      (v.vacated m id ran) := by
  have line : (if ran then v.markAdmitted id else v).line = v.line := by
    cases ran <;> rfl
  have next : (if ran then v.markAdmitted id else v).successor id = v.successor id := by
    cases ran
    · rfl
    · exact successor_markAdmitted v id
  unfold vacated
  rw [vacate_eq, next]
  cases v.successor id with
  | none => exact .of_eq line
  | some next =>
      obtain ⟨more, eq, all⟩ := lengthens_wake ((((if ran then v.markAdmitted id else v).setSlots
        ((if ran then v.markAdmitted id else v).vacatedSlots id))).setStage next .offered)
          (.bot ⟨m, next⟩)
      refine ⟨more, eq.trans (congrArg (· ++ more) line), fun t mem => ⟨next, rfl, all t mem⟩⟩

theorem mem_line_vacated {v : View} {id next : Nat} (is : v.successor id = some next) (m : Nat)
    (ran : Bool) : Task.bot ⟨m, next⟩ ∈ (v.vacated m id ran).line := by
  have next : (if ran then v.markAdmitted id else v).successor id = some next := by
    rw [← is]
    cases ran
    · rfl
    · exact successor_markAdmitted v id
  unfold vacated
  rw [vacate_eq, next]
  exact mem_line_wake_self _ _

theorem lengthens_endTask (v : View) (m id : Nat) :
    Lengthens (fun t => ∃ w, t = .wait w) v (v.endTask m id) := by
  unfold endTask tellDrained
  split
  · refine (lengthens_wakeAll (v.setStage id .over) _).mono fun t mem => ?_
    obtain ⟨w, -, rfl⟩ := List.mem_map.mp mem
    exact ⟨w, rfl⟩
  · exact .of_eq rfl

theorem unregister_line (v : View) (id : Nat) (name : String) :
    (v.unregister id name).line = v.line := by
  unfold unregister
  split
  · rw [terminateIfEmpty_line]
    rfl
  · rfl

/-- By the end of a launch the one that is handed its slot is woken, and waiters may be. -/
theorem lengthens_leave (v : View) (m id : Nat) (ran : Bool) (outcome : Option RunOutcome) :
    Lengthens (fun t => (∃ next, v.successor id = some next ∧ t = .bot ⟨m, next⟩) ∨
      ∃ w, t = .wait w) v (v.leave m id ran outcome) := by
  rw [leave_eq]
  have given := (lengthens_vacated v m id ran).mono fun t h =>
    (Or.inl h : _ ∨ ∃ w, t = Task.wait w)
  cases outcome with
  | none => exact given.trans ((lengthens_endTask _ m id).mono fun t h => Or.inr h)
  | some outcome =>
      refine given.trans (.trans (.of_eq ?_) ((lengthens_endTask _ m id).mono fun t h => Or.inr h))
      exact unregister_line _ id _

theorem mem_line_leave {v : View} {id next : Nat} (is : v.successor id = some next) (m : Nat)
    (ran : Bool) (outcome : Option RunOutcome) :
    Task.bot ⟨m, next⟩ ∈ (v.leave m id ran outcome).line := by
  have woken := mem_line_vacated is m ran
  rw [leave_eq]
  cases outcome with
  | none => exact (lengthens_endTask _ m id).mem woken
  | some outcome =>
      apply (lengthens_endTask _ m id).mem
      rw [unregister_line]
      exact woken

end View

end Flotilla
