import Flotilla.Proofs.Moves

/-!
# What concerns one manager

A fleet is one thread shared by many managers, their observers and the bots. Of all this a
statement about one manager needs little: the manager without its observers, the tasks in line
that are its launches or waiters, the task being run, the waiters with their timers, and the
names of the bots. `View` is that part, and `Fleet.view` takes it out of a fleet.

The small changes a fleet is made of act on a view in the same way, or not at all; this module
says which. `View.leave`, the end of a launch, is the one that consists of several.
-/

namespace Flotilla

/-- A manager without its observers. -/
def Manager.core (m : Manager) : Manager :=
  { m with observer := ⟨0⟩, relay := none, owned := true }

/-- Whether a task is a launch of a manager, or a waiter. -/
def Task.concerns (m : Nat) : Task → Bool
  | .bot r => r.manager == m
  | .wait _ => true
  | _ => false

/-- What concerns one manager. -/
structure View where
  mgr : Manager
  /-- The launches of the manager and the waiters that stand in line. -/
  line : List Task
  running : Option Task
  waits : List Wait
  timers : List Timer
  /-- The names of the bots. -/
  nameOf : Nat → String

namespace View

/-- Whether a task is being run or stands in line. -/
def IsDue (v : View) (t : Task) : Prop := v.running = some t ∨ t ∈ v.line

def launch? (v : View) (id : Nat) : Option Launch := v.mgr.launches[id]?

def modify (v : View) (g : Manager → Manager) : View := { v with mgr := g v.mgr }

def publish (v : View) (e : Event) : View := v.modify fun m => { m with bus := m.bus.publish e }

def publishAll (v : View) (es : List Event) : View := es.foldl publish v

def modifyLaunch (v : View) (id : Nat) (g : Launch → Launch) : View :=
  v.modify fun m => m.modifyLaunch id g

def setStage (v : View) (id : Nat) (stage : Stage) : View :=
  v.modifyLaunch id fun l => { l with stage }

def setSlots (v : View) (slots : Option (Permits Nat)) : View :=
  v.modify fun m => { m with slots }

def wake (v : View) (t : Task) : View :=
  if t ∈ v.line then v else { v with line := v.line ++ [t] }

def wakeAll (v : View) (ts : List Task) : View := ts.foldl wake v

def park (v : View) : View := { v with running := none }

def modifyWait (v : View) (w : Nat) (g : Wait → Wait) : View :=
  { v with waits := v.waits.modify w g }

/-! ## The end of a launch -/

/-- Frees a slot, or hands it to the launch that waits longest. -/
def releaseSlot (v : View) (m : Nat) : View :=
  match v.mgr.slots with
  | none => v
  | some p =>
    match p.release with
    | (p, none) => v.setSlots (some p)
    | (p, some id) => ((v.setSlots (some p)).setStage id .offered).wake (.bot ⟨m, id⟩)

def leaveSlotLine (v : View) (id : Nat) : View :=
  v.modify fun m => { m with slots := m.slots.map fun p => p.leave id }

def terminateIfEmpty (v : View) : View :=
  if v.mgr.phase = .stopping ∧ v.mgr.registry.isEmpty then
    (v.modify fun m => { m with phase := .terminated }).publish (.stateChanged .terminated)
  else v

/-- The waiters that are told when the pool is drained. -/
def drainWaiters (v : View) (m : Nat) : List Nat :=
  (v.timers.filter fun t => (v.waits.getD t.wait default).manager == m).map Timer.wait

def tellDrained (v : View) (m : Nat) : View :=
  if v.mgr.isDrained then v.wakeAll ((v.drainWaiters m).map Task.wait) else v

/-- The task of a launch is over. -/
def endTask (v : View) (m id : Nat) : View := (v.setStage id .over).tellDrained m

/-- A launch leaves the registry, if it is in it. -/
def unregister (v : View) (id : Nat) (name : String) : View :=
  if (v.mgr.launches.getD id default).registered then
    ((v.modifyLaunch id fun l => { l with registered := false }).publish
      (.botRemoved id name)).terminateIfEmpty
  else v

/-- A launch is completed with an outcome. -/
def complete (v : View) (m id : Nat) (outcome : RunOutcome) : View :=
  let name := v.nameOf (v.mgr.launches.getD id default).bot
  ((v.publish (Fleet.outcomeEvent id name outcome)).unregister id name).endTask m id

end View

namespace Fleet

/-- What concerns a manager of a fleet. -/
def view (f : Fleet) (m : Nat) : View :=
  { mgr := (f.manager m).core
    line := f.tasks.ready.filter (Task.concerns m)
    running := f.tasks.running
    waits := f.waits
    timers := f.timers
    nameOf := fun b => (f.bot b).plan.name }

/-- Whether the fleet has a manager of this number. -/
def Has (f : Fleet) (m : Nat) : Prop := m < f.managers.length

variable {f : Fleet} {m m' : Nat} {r : RunName}

/-! ## Parts of a fleet -/

theorem manager_modifyManager_self (has : f.Has m) (g : Manager → Manager) :
    (f.modifyManager m g).manager m = g (f.manager m) := by
  unfold Has at has
  simp [manager, modifyManager, List.getElem?_eq_getElem has]

theorem manager_of_not_has (out : ¬ f.Has m) : f.manager m = default := by
  unfold Has at out
  rw [manager, List.getD_eq_getElem?_getD, List.getElem?_eq_none (by omega)]
  rfl

theorem manager_modifyManager_ne (ne : m' ≠ m) (g : Manager → Manager) :
    (f.modifyManager m' g).manager m = f.manager m := by
  simp [manager, modifyManager, ne]

theorem bot_modifyBot (f : Fleet) (b b' : Nat) (g : Bot → Bot) :
    (f.modifyBot b' g).bot b = if b' = b ∧ b < f.bots.length then g (f.bot b) else f.bot b := by
  simp only [bot, modifyBot, List.getD_eq_getElem?_getD, List.getElem?_modify]
  by_cases inside : b < f.bots.length
  · by_cases same : b' = b <;> simp [inside, same]
  · simp [inside]

theorem ready_wake {τ : Type} [DecidableEq τ] (s : Scheduler τ) (t : τ) :
    (s.wake t).ready = if t ∈ s.ready then s.ready else s.ready ++ [t] := by
  unfold Scheduler.wake
  split <;> rfl

@[simp] theorem has_modifyManager (g : Manager → Manager) :
    (f.modifyManager m' g).Has m ↔ f.Has m := by
  simp [Has, modifyManager]

@[simp] theorem has_wake (t : Task) : (f.wake t).Has m ↔ f.Has m := Iff.rfl

@[simp] theorem has_say (level : Level) (message : String)
    (fields : List (String × FieldValue)) (span : Option Span) :
    (f.say level message fields span).Has m ↔ f.Has m := Iff.rfl

@[simp] theorem has_note (n : Note) : (f.note n).Has m ↔ f.Has m := Iff.rfl

@[simp] theorem has_modifyBot (b : Nat) (g : Bot → Bot) : (f.modifyBot b g).Has m ↔ f.Has m :=
  Iff.rfl

@[simp] theorem has_setStage (stage : Stage) : (f.setStage r stage).Has m ↔ f.Has m :=
  has_modifyManager _

@[simp] theorem has_wakeListener : (f.wakeListener m').Has m ↔ f.Has m := by
  unfold wakeListener
  split
  · exact has_modifyManager _
  · exact Iff.rfl

@[simp] theorem has_publish (e : Event) : (f.publish m' e).Has m ↔ f.Has m := by
  rw [publish, has_wakeListener, has_modifyManager]

/-! ## Changes that concern no manager -/

theorem view_modifyManager_ne (ne : m' ≠ m) (g : Manager → Manager) :
    (f.modifyManager m' g).view m = f.view m := by
  simp only [view, manager_modifyManager_ne ne]
  rfl

theorem view_modifyManager_of_core (g : Manager → Manager) (same : ∀ x, (g x).core = x.core) :
    (f.modifyManager m' g).view m = f.view m := by
  by_cases eq : m' = m
  · subst eq
    by_cases has : f.Has m'
    · simp only [view, manager_modifyManager_self has, same]
      rfl
    · have out : (f.modifyManager m' g).managers = f.managers := by
        unfold Has at has
        exact List.modify_eq_self (by omega)
      simp only [view, manager, out]
      rfl
  · exact view_modifyManager_ne eq g

theorem view_wake_of_not_concerns {t : Task} (away : t.concerns m = false) :
    (f.wake t).view m = f.view m := by
  simp only [view, wake, ready_wake, Scheduler.running_wake]
  split
  · rfl
  · rw [List.filter_append, List.filter_cons_of_neg (by simp [away]), List.filter_nil,
      List.append_nil]
    rfl

theorem view_wake_of_concerns {t : Task} (near : t.concerns m = true) :
    (f.wake t).view m = (f.view m).wake t := by
  simp only [view, wake, ready_wake, Scheduler.running_wake, View.wake, List.mem_filter, near,
    and_true]
  split
  · rfl
  · rw [List.filter_append, List.filter_cons_of_pos near, List.filter_nil]
    rfl

@[simp] theorem view_modifyRelay (g : Relay → Relay) :
    (f.modifyManager m' fun mgr => mgr.modifyRelay g).view m = f.view m :=
  view_modifyManager_of_core _ fun _ => rfl

@[simp] theorem view_wakeListener : (f.wakeListener m').view m = f.view m := by
  unfold wakeListener
  split
  · rw [view_wake_of_not_concerns rfl, view_modifyRelay]
  · rfl

@[simp] theorem view_say (level : Level) (message : String)
    (fields : List (String × FieldValue)) (span : Option Span) :
    (f.say level message fields span).view m = f.view m := rfl

@[simp] theorem view_note (n : Note) : (f.note n).view m = f.view m := rfl

theorem view_modifyBot (b : Nat) (g : Bot → Bot) (same : (g (f.bot b)).plan = (f.bot b).plan) :
    (f.modifyBot b g).view m = f.view m := by
  have names : ∀ b', ((f.modifyBot b g).bot b').plan = (f.bot b').plan := by
    intro b'
    rw [bot_modifyBot]
    split
    · rename_i inside
      rw [← inside.1]
      exact same
    · rfl
  simp only [view, names]
  rfl

@[simp] theorem view_dismiss (b : Nat) : (f.dismiss b).view m = f.view m := by
  unfold dismiss
  dsimp only
  split
  · rw [view_wake_of_not_concerns rfl]
    rfl
  · rfl

/-! ## Changes of the manager -/

theorem view_modifyManager (has : f.Has m) (g : Manager → Manager) :
    (f.modifyManager m g).view m = (f.view m).modify fun _ => (g (f.manager m)).core := by
  simp only [view, manager_modifyManager_self has]
  rfl

/-- A change that has nothing to do with the observers. -/
theorem view_modify (has : f.Has m) (g : Manager → Manager)
    (same : ∀ x, (g x).core = g x.core) :
    (f.modifyManager m g).view m = (f.view m).modify g := by
  rw [view_modifyManager has, same]
  rfl

theorem view_publish (has : f.Has m) (e : Event) :
    (f.publish m e).view m = (f.view m).publish e := by
  rw [publish, view_wakeListener, view_modifyManager has]
  rfl

theorem view_publish_ne (ne : m' ≠ m) (e : Event) : (f.publish m' e).view m = f.view m := by
  rw [publish, view_wakeListener, view_modifyManager_ne ne]

theorem view_setStage (has : f.Has r.manager) (stage : Stage) :
    (f.setStage r stage).view r.manager = (f.view r.manager).setStage r.id stage :=
  view_modifyManager has _

theorem view_setStage_ne (ne : r.manager ≠ m) (stage : Stage) :
    (f.setStage r stage).view m = f.view m :=
  view_modifyManager_ne ne _

theorem view_releaseSlot (has : f.Has m) :
    (f.releaseSlot m).view m = (f.view m).releaseSlot m := by
  have slots : (f.view m).mgr.slots = (f.manager m).slots := rfl
  unfold releaseSlot View.releaseSlot
  rw [slots]
  cases (f.manager m).slots with
  | none => rfl
  | some p =>
      dsimp only
      rcases p.release with ⟨p, _ | id⟩
      · exact view_modifyManager has _
      · dsimp only
        rw [view_wake_of_concerns (by simp [Task.concerns]),
          view_setStage (r := ⟨m, id⟩) (has_modifyManager _ |>.mpr has),
          view_modifyManager has _]
        rfl

theorem view_releaseSlot_ne (ne : m' ≠ m) : (f.releaseSlot m').view m = f.view m := by
  unfold releaseSlot
  cases (f.manager m').slots with
  | none => rfl
  | some p =>
      dsimp only
      rcases p.release with ⟨p, _ | id⟩
      · exact view_modifyManager_ne ne _
      · dsimp only
        rw [view_wake_of_not_concerns (by simp [Task.concerns, ne]), view_setStage_ne ne,
          view_modifyManager_ne ne]

theorem view_terminateIfEmpty (has : f.Has m) (span : Option Span) :
    (f.terminateIfEmpty m span).view m = (f.view m).terminateIfEmpty := by
  have phase : (f.view m).mgr.phase = (f.manager m).phase := rfl
  have registry : (f.view m).mgr.registry = (f.manager m).registry := rfl
  unfold terminateIfEmpty View.terminateIfEmpty
  rw [phase, registry]
  dsimp only
  split
  · rw [view_say, view_publish (has_modifyManager _ |>.mpr has), view_modifyManager has]
    rfl
  · rfl

theorem view_terminateIfEmpty_ne (ne : m' ≠ m) (span : Option Span) :
    (f.terminateIfEmpty m' span).view m = f.view m := by
  unfold terminateIfEmpty
  dsimp only
  split
  · rw [view_say, view_publish_ne ne, view_modifyManager_ne ne]
  · rfl

end Fleet

end Flotilla
