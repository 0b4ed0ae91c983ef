import Flotilla.Proofs.Alike
import Flotilla.Proofs.Lockstep.Kept

/-!
# What stands aside

Subscribers and the tasks that serve them do nothing to the rest of a fleet but publish reports on
themselves, and a waiter does nothing to it once it stopped its manager but publish how many bots it
waits for. Two fleets are the same but for such (`Fleet.SameBut`) if they are the same in all that
is left when these tasks, what they keep and what they publish are left out.

What the others do keeps such fleets the same (`Fleet.Lockstep.sameBut` and those after it), and
a change on one side alone to what is left out does not make them differ.
-/

namespace Flotilla

/-! ## Lines with tasks left out -/

namespace Scheduler

variable {τ : Type} {hidden : τ → Bool} {s s' : Scheduler τ} {t : τ}

/-- Those in line and the one being run, but for those who are hidden. -/
def shown (s : Scheduler τ) (hidden : τ → Bool) : List τ × Option τ :=
  (s.ready.filter fun t => !hidden t, s.running.filter fun t => !hidden t)

theorem ready_wake [DecidableEq τ] (s : Scheduler τ) (t : τ) :
    (s.wake t).ready = if t ∈ s.ready then s.ready else s.ready ++ [t] := by
  unfold wake
  split <;> simp_all

theorem shown_wake_of_hidden [DecidableEq τ] (is : hidden t = true) (s : Scheduler τ) :
    (s.wake t).shown hidden = s.shown hidden := by
  unfold shown
  rw [running_wake, ready_wake]
  split
  · rfl
  · simp [is]

theorem shown_wakeAll_of_hidden [DecidableEq τ] {ts : List τ} (are : ∀ t ∈ ts, hidden t = true)
    (s : Scheduler τ) : (s.wakeAll ts).shown hidden = s.shown hidden := by
  induction ts generalizing s with
  | nil => rfl
  | cons t ts ih =>
      exact (ih (fun u mem => are u (List.mem_cons_of_mem t mem)) (s.wake t)).trans
        (shown_wake_of_hidden (are t List.mem_cons_self) s)

theorem shown_wake [DecidableEq τ] (same : s'.shown hidden = s.shown hidden) (t : τ) :
    (s'.wake t).shown hidden = (s.wake t).shown hidden := by
  cases is : hidden t with
  | true => rw [shown_wake_of_hidden is, shown_wake_of_hidden is, same]
  | false =>
      -- Whether it stands in line already is seen without the hidden ones.
      have seen (s : Scheduler τ) : t ∈ s.ready ↔ t ∈ (s.shown hidden).1 := by
        simp [shown, is]
      have woken (s : Scheduler τ) : (s.wake t).shown hidden =
          (if t ∈ (s.shown hidden).1 then (s.shown hidden).1 else (s.shown hidden).1 ++ [t],
            (s.shown hidden).2) := by
        simp only [← seen]
        unfold shown
        rw [running_wake, ready_wake]
        split <;> simp [is]
      rw [woken, woken, same]

theorem shown_wakeAll [DecidableEq τ] (same : s'.shown hidden = s.shown hidden) (ts : List τ) :
    (s'.wakeAll ts).shown hidden =
      (s.wakeAll (ts.filter fun t => !hidden t)).shown hidden := by
  induction ts generalizing s s' with
  | nil => exact same
  | cons t ts ih =>
      cases is : hidden t with
      | true =>
          rw [List.filter_cons_of_neg (by simp [is])]
          exact ih ((shown_wake_of_hidden is s').trans same)
      | false =>
          rw [List.filter_cons_of_pos (by simp [is])]
          exact ih (shown_wake same t)

theorem shown_park (same : s'.shown hidden = s.shown hidden) :
    s'.park.shown hidden = s.park.shown hidden :=
  Prod.ext ((Prod.ext_iff.mp same).1 :) rfl

theorem shown_park_of_hidden (turn : (s.shown hidden).2 = none) :
    s.park.shown hidden = s.shown hidden :=
  Prod.ext rfl turn.symm

/-- What is the same with some left out is the same with more left out. -/
theorem shown_mono {hidden' : τ → Bool} (more : ∀ t, hidden t = true → hidden' t = true)
    (same : s'.shown hidden = s.shown hidden) : s'.shown hidden' = s.shown hidden' := by
  have also (t : τ) : ((!hidden' t) && !hidden t) = !hidden' t := by
    cases is : hidden t with
    | true => simp [more t is]
    | false => simp
  have also' (t : τ) : ((!hidden t) && !hidden' t) = !hidden' t := by
    rw [Bool.and_comm, also]
  have again (s : Scheduler τ) : s.shown hidden' =
      ((s.shown hidden).1.filter fun t => !hidden' t, (s.shown hidden).2.filter fun t => !hidden' t) := by
    simp only [shown, List.filter_filter, Option.filter_filter, also, also']
  rw [again, again, same]

end Scheduler

/-! ## What is left out -/

/-- What is left out when two fleets are compared, besides the subscribers. -/
structure Aside where
  /-- A waiter of whom only what it came for is compared. -/
  waiter : Option Nat := none
  /-- Whether the turns of this waiter are left out too. -/
  acting : Bool := false
  /-- Whether a manager that runs call may be there on one side only. -/
  forsaken : Bool := false
  /-- Whether the time is compared. -/
  timed : Bool := true

namespace Aside

/-- The tasks whose turns are left out. -/
def hides (a : Aside) : Task → Bool
  | .listener _ | .worker _ _ => true
  | .wait w => a.acting && a.waiter == some w
  | _ => false

/-- The events that are compared. -/
def hears (a : Aside) (e : Event) : Bool :=
  !e.kind.isDiagnostic && (a.waiter.isNone || e.kind != .waitingForBots)

/-- The timers that are compared. -/
def counts (a : Aside) (t : Timer) : Bool := !a.hides (.wait t.wait)

variable {a : Aside}

theorem hears_withSeq (e : Event) (n : Nat) : a.hears (e.withSeq n) = a.hears e := rfl

end Aside

/-- Two answers to a call are the same, or the manager is there on one side only. -/
inductive Reply.SameBut (forsaken : Bool) : Reply → Reply → Prop
  | same (r : Reply) : SameBut forsaken r r
  | left (is : forsaken = true) (r : Reply) : SameBut forsaken .noManager r
  | right (is : forsaken = true) (r : Reply) : SameBut forsaken r .noManager

/-- Two notes are the same, or tell of a call that has not the same answer. -/
inductive Note.SameBut (forsaken : Bool) : Note → Note → Prop
  | same (n : Note) : SameBut forsaken n n
  | called (bot : Nat) {r r' : Reply} (replies : r.SameBut forsaken r') :
    SameBut forsaken (.called bot r) (.called bot r')

section SameBut

variable {forsaken forsaken' : Bool} {r r' : Reply} {n n' : Note}

theorem Reply.SameBut.symm (same : r.SameBut forsaken r') : r'.SameBut forsaken r := by
  cases same with
  | same => exact .same r
  | left is => exact .right is r'
  | right is => exact .left is r

theorem Reply.SameBut.mono (more : forsaken = true → forsaken' = true)
    (same : r.SameBut forsaken r') : r.SameBut forsaken' r' := by
  cases same with
  | same => exact .same r
  | left is => exact .left (more is) r'
  | right is => exact .right (more is) r

theorem Note.SameBut.symm (same : n.SameBut forsaken n') : n'.SameBut forsaken n := by
  cases same with
  | same => exact .same n
  | called bot replies => exact .called bot replies.symm

theorem Note.SameBut.mono (more : forsaken = true → forsaken' = true)
    (same : n.SameBut forsaken n') : n.SameBut forsaken' n' := by
  cases same with
  | same => exact .same n
  | called bot replies => exact .called bot (replies.mono more)

end SameBut

theorem Manager.history_publish (x : Manager) (e : Event) :
    Manager.history { x with bus := x.bus.publish e } = x.history ++ [e.withSeq 0] := by
  simp [Manager.history, Event.withSeq]

namespace Fleet

/-- Two fleets are the same but for what is left out. -/
structure SameBut (a : Aside) (f g : Fleet) : Prop where
  managers : ∀ m, g.manager m = { f.manager m with
    bus := (g.manager m).bus
    observer := (g.manager m).observer
    relay := (g.manager m).relay }
  told : ∀ m, (g.manager m).history.filter a.hears = (f.manager m).history.filter a.hears
  count : g.managers.length = f.managers.length
  bots : g.bots = f.bots
  inside : ∀ w, a.waiter = some w → w < f.waits.length
  errands : g.waits.map Wait.errand = f.waits.map Wait.errand
  waits : ∀ w, a.waiter ≠ some w → g.wait w = f.wait w
  timers : g.timers.filter a.counts = f.timers.filter a.counts
  dismissal : g.dismissal = f.dismissal
  clock : a.timed = true → g.clock = f.clock
  tasks : g.tasks.shown a.hides = f.tasks.shown a.hides
  notes : List.Forall₂ (Note.SameBut a.forsaken) f.notes.toList g.notes.toList

variable {a : Aside} {f g : Fleet} {m w : Nat}

namespace SameBut

theorem refl (inside : ∀ w, a.waiter = some w → w < f.waits.length) : SameBut a f f :=
  ⟨fun _ => rfl, fun _ => rfl, rfl, rfl, inside, rfl, fun _ _ => rfl, rfl, rfl, fun _ => rfl, rfl,
    List.forall₂_same.mpr fun n _ => .same n⟩

variable (same : SameBut a f g)

include same

theorem number : g.waits.length = f.waits.length := by
  simpa using congrArg List.length same.errands

theorem symm : SameBut a g f where
  managers m := by rw [same.managers m]
  told m := (same.told m).symm
  count := same.count.symm
  bots := same.bots.symm
  inside w is := same.number.symm ▸ same.inside w is
  errands := same.errands.symm
  waits w is := (same.waits w is).symm
  timers := same.timers.symm
  dismissal := same.dismissal.symm
  clock timed := (same.clock timed).symm
  tasks := same.tasks.symm
  notes := same.notes.flip.imp fun _ _ note => note.symm

/-- What is the same but for some is the same but for more. -/
theorem mono {a' : Aside} (waiter : a'.waiter = a.waiter)
    (acting : a.acting = true → a'.acting = true)
    (forsaken : a.forsaken = true → a'.forsaken = true)
    (timed : a'.timed = true → a.timed = true) : SameBut a' f g := by
  have hides (t : Task) (is : a.hides t = true) : a'.hides t = true := by
    cases t with
    | wait w =>
        unfold Aside.hides at is ⊢
        rw [Bool.and_eq_true] at is ⊢
        rw [waiter]
        exact is.imp_left acting
    | listener | worker => rfl
    | bot | dismissal => cases is
  refine { same with
    told := fun m => ?_
    inside := fun w is => same.inside w (waiter ▸ is)
    waits := fun w isnt => same.waits w (waiter ▸ isnt)
    timers := ?_
    clock := fun is => same.clock (timed is)
    tasks := Scheduler.shown_mono hides same.tasks
    notes := same.notes.imp fun _ _ note => note.mono forsaken }
  · unfold Aside.hears
    rw [waiter]
    exact same.told m
  · have again (ts : List Timer) : ts.filter a'.counts = (ts.filter a.counts).filter a'.counts := by
      rw [List.filter_filter]
      refine List.filter_congr fun t _ => ?_
      unfold Aside.counts
      cases is : a.hides (.wait t.wait) with
      | true => simp [hides _ is]
      | false => simp
    rw [again g.timers, again f.timers, same.timers]

theorem bot (b : Nat) : g.bot b = f.bot b := by
  rw [Fleet.bot, same.bots]
  rfl

theorem accords : f.Accords g where
  managers m := by
    rw [same.managers m]
  poll m := by rw [same.managers m]
  count := same.count
  bots b := by rw [same.bot b]
  eager b := by rw [same.bot b]
  dismissal := same.dismissal

theorem settings (m : Nat) : (g.manager m).settings = (f.manager m).settings := by
  rw [same.managers m]

theorem slots (m : Nat) : (g.manager m).slots = (f.manager m).slots := by
  rw [same.managers m]

theorem errand (w : Nat) : (g.wait w).errand = (f.wait w).errand := by
  have there := congrArg (fun es => es[w]?) same.errands
  simp only [List.getElem?_map] at there
  unfold Fleet.wait
  rw [List.getD_eq_getElem?_getD, List.getD_eq_getElem?_getD]
  cases here : f.waits[w]? <;> cases there' : g.waits[w]? <;> simp_all

theorem waits_getElem? (is : a.waiter ≠ some w) : g.waits[w]? = f.waits[w]? := by
  have eq := same.waits w is
  unfold Fleet.wait at eq
  by_cases inside : w < f.waits.length
  · have inside' : w < g.waits.length := same.number.symm ▸ inside
    simpa [List.getD_eq_getElem?_getD, inside, inside'] using eq
  · rw [List.getElem?_eq_none (Nat.le_of_not_lt inside),
      List.getElem?_eq_none (same.number.symm ▸ Nat.le_of_not_lt inside)]

/-! ## Managers -/

/-- Both sides change a manager in what is compared in the same way. -/
theorem modifyManager {h k : Manager → Manager}
    (rest : k (g.manager m) = { h (f.manager m) with
      bus := (k (g.manager m)).bus
      observer := (k (g.manager m)).observer
      relay := (k (g.manager m)).relay })
    (told : (k (g.manager m)).history.filter a.hears = (h (f.manager m)).history.filter a.hears) :
    SameBut a (f.modifyManager m h) (g.modifyManager m k) := by
  refine { same with managers := fun m' => ?_, told := fun m' => ?_, count := ?_ }
  · rcases modifyManager_cases same.count m m' h k with ⟨eq, eq'⟩ | ⟨rfl, eq, eq'⟩
    · rw [eq, eq']
      exact same.managers m'
    · rw [eq, eq']
      exact rest
  · rcases modifyManager_cases same.count m m' h k with ⟨eq, eq'⟩ | ⟨rfl, eq, eq'⟩
    · rw [eq, eq']
      exact same.told m'
    · rw [eq, eq']
      exact told
  · simp [Fleet.modifyManager, same.count]

/-- One side changes a manager in what is left out. -/
theorem modifyManager_right {k : Manager → Manager}
    (rest : ∀ x : Manager, k x = { x with
      bus := (k x).bus
      observer := (k x).observer
      relay := (k x).relay })
    (told : ∀ x : Manager, (k x).history.filter a.hears = x.history.filter a.hears) :
    SameBut a f (g.modifyManager m k) := by
  refine { same with managers := fun m' => ?_, told := fun m' => ?_, count := ?_ }
  · rcases manager_modifyManager_or g m m' k with eq | ⟨-, eq⟩
    · rw [eq]
      exact same.managers m'
    · rw [eq, rest]
      rw [same.managers m']
  · rcases manager_modifyManager_or g m m' k with eq | ⟨-, eq⟩
    · rw [eq]
      exact same.told m'
    · rw [eq, told]
      exact same.told m'
  · simp [Fleet.modifyManager, same.count]

theorem modifyRelay_right (m : Nat) (h : Relay → Relay) : SameBut a f (g.modifyRelay m h) :=
  same.modifyManager_right (k := fun x => x.modifyRelay h) (fun _ => rfl) fun _ => rfl

theorem disown (m : Nat) : SameBut a (f.modifyManager m fun x => { x with owned := false })
    (g.modifyManager m fun x => { x with owned := false }) :=
  same.modifyManager (by rw [same.managers m]) (same.told m)

/-! ## Tasks -/

theorem wake (t : Task) : SameBut a (f.wake t) (g.wake t) :=
  { same with tasks := Scheduler.shown_wake same.tasks t }

theorem wake_right {t : Task} (is : a.hides t = true) : SameBut a f (g.wake t) :=
  { same with tasks := (Scheduler.shown_wake_of_hidden is _).trans same.tasks }

theorem wakeAll_right {ts : List Task} (are : ∀ t ∈ ts, a.hides t = true) :
    SameBut a f (g.wakeAll ts) :=
  { same with tasks := (Scheduler.shown_wakeAll_of_hidden are _).trans same.tasks }

/-- Both sides wake the same tasks, but for those that are left out. -/
theorem wakeAll {ts ts' : List Task}
    (woken : (ts'.filter fun t => !a.hides t) = ts.filter fun t => !a.hides t) :
    SameBut a (f.wakeAll ts) (g.wakeAll ts') := by
  have shown (k : Fleet) (like : k.tasks.shown a.hides = f.tasks.shown a.hides) (ts : List Task) :
      (k.tasks.wakeAll ts).shown a.hides =
        (f.tasks.wakeAll (ts.filter fun t => !a.hides t)).shown a.hides :=
    Scheduler.shown_wakeAll like ts
  exact { same with tasks := (shown g same.tasks ts').trans (woken ▸ (shown f rfl ts).symm) }

theorem wakeAll_worker_right (m : Nat) (is : List Nat) :
    SameBut a f (g.wakeAll (is.map (Task.worker m))) := by
  refine same.wakeAll_right fun t mem => ?_
  obtain ⟨i, -, rfl⟩ := List.mem_map.mp mem
  rfl

theorem park : SameBut a f.park g.park := { same with tasks := Scheduler.shown_park same.tasks }

theorem park_right (turn : (f.tasks.shown a.hides).2 = none) : SameBut a f g.park :=
  { same with
    tasks := (Scheduler.shown_park_of_hidden ((congrArg Prod.snd same.tasks).trans turn)).trans
      same.tasks }

theorem wakeListener_right (m : Nat) : SameBut a f (g.wakeListener m) := by
  unfold Fleet.wakeListener
  split
  · exact (same.modifyRelay_right m fun r => { r with listening := .reading }).wake_right rfl
  · exact same

theorem leave_right (m : Nat) :
    SameBut a f (if g.isHeld m then g else g.wakeListener m) := by
  split
  · exact same
  · exact same.wakeListener_right m

/-! ## Telling -/

theorem say_right (level : Level) (message : String) (fields : List (String × FieldValue))
    (span : Option Span) : SameBut a f (g.say level message fields span) :=
  { same with }

theorem publish (m : Nat) (e : Event) : SameBut a (f.publish m e) (g.publish m e) := by
  have published : SameBut a (f.modifyManager m fun x => { x with bus := x.bus.publish e })
      (g.modifyManager m fun x => { x with bus := x.bus.publish e }) := by
    refine same.modifyManager ?_ ?_
    · rw [same.managers m]
    · rw [Manager.history_publish, Manager.history_publish, List.filter_append, List.filter_append,
        same.told m]
  exact ((published.wakeListener_right m).symm.wakeListener_right m).symm

theorem publish_right {e : Event} (quiet : a.hears e = false) (m : Nat) :
    SameBut a f (g.publish m e) := by
  refine (same.modifyManager_right (k := fun x => { x with bus := x.bus.publish e })
    (fun _ => rfl) fun x => ?_).wakeListener_right m
  rw [Manager.history_publish, List.filter_append]
  simp [Aside.hears_withSeq, quiet]

theorem publishAll_right {es : List Event} (quiet : ∀ e ∈ es, a.hears e = false) (m : Nat) :
    SameBut a f (g.publishAll m es) := by
  induction es generalizing g with
  | nil => exact same
  | cons e es ih =>
      exact ih (same.publish_right (quiet e List.mem_cons_self) m) fun e' mem =>
        quiet e' (List.mem_cons_of_mem e mem)

theorem modifyBot (b : Nat) (h : Bot → Bot) : SameBut a (f.modifyBot b h) (g.modifyBot b h) :=
  { same with bots := congrArg (·.modify b h) same.bots }

theorem note {n n' : Note} (told : n.SameBut a.forsaken n') :
    SameBut a (f.note n) (g.note n') :=
  { same with notes := forall₂_push same.notes told }

/-! ## Waiters and their timers -/

theorem modifyWait {h k : Wait → Wait} (errand : ∀ wt, (h wt).errand = wt.errand)
    (errand' : ∀ wt, (k wt).errand = wt.errand) (alike : a.waiter ≠ some w → h = k) :
    SameBut a (f.modifyWait w h) (g.modifyWait w k) := by
  refine { same with inside := fun w' is => ?_, errands := ?_, waits := fun w' is => ?_ }
  · exact (List.length_modify ..).symm ▸ same.inside w' is
  · have kept {h : Wait → Wait} (errand : ∀ wt, (h wt).errand = wt.errand) (wts : List Wait) :
        (wts.modify w h).map Wait.errand = wts.map Wait.errand := by
      refine List.ext_getElem? fun i => ?_
      rw [List.getElem?_map, List.getElem?_map, List.getElem?_modify]
      cases wts[i]? with
      | none => rfl
      | some wt => by_cases here : w = i <;> simp [here, errand]
    exact (kept errand' g.waits).trans (same.errands.trans (kept errand f.waits).symm)
  · show (g.waits.modify w k).getD w' default = (f.waits.modify w h).getD w' default
    rw [List.getD_eq_getElem?_getD, List.getD_eq_getElem?_getD, List.getElem?_modify,
      List.getElem?_modify, same.waits_getElem? is]
    by_cases here : w = w'
    · rw [alike (here ▸ is)]
    · simp [here]

/-- One side changes the waiter that is left out. -/
theorem modifyWait_right {k : Wait → Wait} (is : a.waiter = some w)
    (errand : ∀ wt, (k wt).errand = wt.errand) : SameBut a f (g.modifyWait w k) := by
  have unchanged : f.modifyWait w id = f := by
    unfold Fleet.modifyWait
    rw [List.modify_id]
  rw [← unchanged]
  exact same.modifyWait (fun _ => rfl) errand fun isnt => absurd is isnt

/-- Both sides wake the waiters of the same timers, but for those that are left out. -/
theorem wakeTimers (p : Timer → Bool) :
    SameBut a (f.wakeAll ((f.timers.filter p).map fun t => Task.wait t.wait))
      (g.wakeAll ((g.timers.filter p).map fun t => Task.wait t.wait)) := by
  refine same.wakeAll ?_
  have woken (timers : List Timer) :
      (((timers.filter p).map fun t => Task.wait t.wait).filter fun t => !a.hides t) =
        ((timers.filter a.counts).filter p).map fun t => Task.wait t.wait := by
    rw [List.filter_map, List.filter_filter, List.filter_filter]
    exact congrArg _ (List.filter_congr fun t _ => Bool.and_comm _ _)
  rw [woken, woken, same.timers]

theorem setTimers (change : List Timer → List Timer)
    (counted : ∀ ts, (change ts).filter a.counts = (change (ts.filter a.counts)).filter a.counts) :
    SameBut a { f with timers := change f.timers } { g with timers := change g.timers } :=
  { same with
    timers := by
      rw [counted g.timers, counted f.timers, same.timers] }

theorem setTimers_right (change : List Timer → List Timer)
    (counted : ∀ ts, (change ts).filter a.counts = ts.filter a.counts) :
    SameBut a f { g with timers := change g.timers } :=
  { same with timers := (counted g.timers).trans same.timers }

end SameBut

/-! ## Everybody else -/

/-- Calls keep two fleets the same but for what is left out. -/
theorem Lockstep.sameBut (a : Aside) : Lockstep (SameBut a) where
  accords same := same.accords
  slotWaiters same m := by
    rw [Manager.slotWaiters, same.slots]
    rfl
  manager {f g h} same plain m := by
    have apart := plain.toApart
    refine same.modifyManager ?_ ?_
    · rw [apart.bus, apart.observer, apart.relay, ← apart.frame, ← same.managers m]
    · unfold Manager.history
      rw [apart.bus, apart.bus]
      exact same.told m
  bot same _ b := same.modifyBot b _
  ending same b _ := same.modifyBot b _
  dismissal same _ := { same with dismissal := rfl }
  wake same _ := same.wake _
  say same _ _ _ _ _ := { same with }
  publish same _ m := same.publish m _

/-- And so do the turns of bots. -/
theorem RunsInStep.sameBut (a : Aside) : RunsInStep (SameBut a) where
  toLockstep := .sameBut a
  park same := same.park
  note same _ := same.note (.same _)
  releaseSlot {f g} same m := by
    refine (Lockstep.sameBut a).releaseSlot_of_slots same (same.slots m) fun slots => ?_
    exact same.modifyManager (by rw [same.managers m]) (same.told m)
  leaveSlotLine {f g} same r := by
    refine leaveSlotLine_of_slots (same.slots _) fun slots => ?_
    exact same.modifyManager (by rw [same.managers r.manager]) (same.told r.manager)
  tellDrained {f g} same m := by
    have owner (w : Nat) : (g.wait w).manager = (f.wait w).manager :=
      congrArg Prod.fst (same.errand w)
    unfold drainWaiters
    simp only [owner, List.map_map]
    exact same.wakeTimers fun t => (f.wait t.wait).manager == m
  outcome {f g m id b name} same _ _ := by
    rw [same.bot b]
    refine SameBut.publish ?_ m _
    unfold sayOutcome
    split <;> exact { same with }
  stray same _ := { same with }

/-- And so does what is done for those who wait. -/
theorem WaitsInStep.sameBut (a : Aside) : WaitsInStep (SameBut a) where
  toLockstep := .sameBut a
  number same := same.number
  spawn {f g wt} same _ _ := by
    refine { same with inside := fun w is => ?_, errands := ?_, waits := fun w is => ?_ }
    · exact Nat.lt_of_lt_of_le (same.inside w is) (by simp)
    · simp [same.errands]
    · show (g.waits ++ [wt]).getD w default = (f.waits ++ [wt]).getD w default
      rw [List.getD_eq_getElem?_getD, List.getD_eq_getElem?_getD, List.getElem?_append,
        List.getElem?_append, same.number, same.waits_getElem? is]
  dropTimer same w := by
    refine same.setTimers (·.filter fun t => t.wait != w) fun ts => ?_
    simp only [List.filter_filter]
    exact List.filter_congr fun t _ => by cases a.counts t <;> simp
  addTimer same t := same.setTimers (· ++ [t]) fun ts => by
    simp only [List.filter_append, List.filter_filter, Bool.and_self]
  clock same _ := { same with clock := fun _ => rfl }
  leave same m := ((same.leave_right m).symm.leave_right m).symm

theorem MarksInStep.sameBut (a : Aside) (w : Nat) : MarksInStep (SameBut a) w where
  toWaitsInStep := .sameBut a
  modifyWait same errand _ := same.modifyWait errand errand fun _ => rfl

/-- The turns of a waiter that is compared are the same on both sides at the same time. -/
theorem WaiterInStep.sameBut (timed : a.timed = true) (compared : a.waiter ≠ some w) :
    WaiterInStep (SameBut a) w :=
  { MarksInStep.sameBut a w with
    park := fun same => same.park
    wait := fun same => same.waits w compared
    time := fun same => same.clock timed }

end Fleet

end Flotilla
