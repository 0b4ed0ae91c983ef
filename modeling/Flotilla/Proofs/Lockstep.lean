import Flotilla.Proofs.ComingToRest
import Flotilla.Proofs.Enrolment

/-!
# Two fleets in lockstep

Calls, runs and waiters go by what a manager keeps, but not by its bus and those who read it;
and by what a bot is like, but not by how its runs end. Two fleets that agree on all this
(`Fleet.Agrees`) do the same. Less is needed where fewer parts come in: calls go neither by the
slots nor by those who wait (`Fleet.Accords`).

A relation between such fleets is kept by every call if it is kept by the small changes that calls
are made of (`Fleet.Lockstep`), and likewise by every turn of a launched bot (`Fleet.RunsInStep`),
and by what is done for those who wait (`Fleet.WaitsInStep`). A relation that has all this, between
fleets that agree, is kept by whatever the owner does (`Fleet.MovesInStep`) and by every turn that
does not concern the bus (`Fleet.TurnsInStep`). The modules of this section show this, and that the
answers on both sides are the same.

What holds of two runs side by side is proved with a relation between two fleets that differ.
What holds of a single run is a case of it: there one fleet is on both sides (`Fleet.Both`).
-/

namespace Flotilla

/-- A change of a manager that has nothing to do with its bus and those who read it, nor with its
owner, and forgets no launch. -/
structure Manager.Apart (h : Manager → Manager) : Prop where
  frame : ∀ (x : Manager) bus observer relay,
    h { x with bus, observer, relay } = { h x with bus, observer, relay }
  owned : ∀ x, (h x).owned = x.owned
  bots : ∀ x, x.bots <+: (h x).bots

/-- Such a change that has nothing to do with the settings and the slots either. -/
structure Manager.Plain (h : Manager → Manager) : Prop extends Manager.Apart h where
  pool : ∀ (x : Manager) settings slots, h { x with settings, slots } = { h x with settings, slots }

/-- A change of a bot that has nothing to do with how its runs end, nor with its plan. -/
structure Bot.Apart (h : Bot → Bot) : Prop where
  frame : ∀ (x : Bot) ending, h { x with ending } = { h x with ending }
  plan : ∀ x, (h x).plan = x.plan

/-- What a waiter came for: the manager, and what is to be done first. -/
def Wait.errand (wt : Wait) : Nat × Purpose := (wt.manager, wt.purpose)

namespace Fleet

/-- What the log says of a launch that is completed and was not registered. -/
def strayLine : String := "completed bot was not registered"

theorem waiting_ne_strayLine (s t : String) : "waiting " ++ s ++ t ≠ strayLine := by
  intro eq
  simpa [strayLine] using congrArg String.toList eq

/-- Two fleets are the same in all that calls and runs go by, slots apart. -/
structure Accords (f g : Fleet) : Prop where
  managers : ∀ m, g.manager m = { f.manager m with
    settings := (g.manager m).settings
    slots := (g.manager m).slots
    bus := (g.manager m).bus
    observer := (g.manager m).observer
    relay := (g.manager m).relay }
  poll : ∀ m, (g.manager m).settings.pollClamped = (f.manager m).settings.pollClamped
  count : g.managers.length = f.managers.length
  bots : ∀ b, g.bot b = { f.bot b with ending := (g.bot b).ending }
  eager : ∀ b, (g.bot b).panicsEagerly = (f.bot b).panicsEagerly
  dismissal : g.dismissal = f.dismissal

/-- Two fleets are the same in all that calls, runs and waiters go by. -/
structure Agrees (f g : Fleet) : Prop extends Accords f g where
  settings : ∀ m, (g.manager m).settings = (f.manager m).settings
  slots : ∀ m, (g.manager m).slots = (f.manager m).slots
  waits : g.waits = f.waits
  timers : g.timers = f.timers
  clock : g.clock = f.clock

/-- A relation between fleets that accord, kept by every small change that calls are made of. No
call completes a launch. -/
structure Lockstep (R : Fleet → Fleet → Prop) : Prop where
  accords : ∀ {f g}, R f g → f.Accords g
  slotWaiters : ∀ {f g}, R f g → ∀ m, (g.manager m).slotWaiters = (f.manager m).slotWaiters
  manager : ∀ {f g} {h : Manager → Manager}, R f g → Manager.Plain h → ∀ m,
    R (f.modifyManager m h) (g.modifyManager m h)
  bot : ∀ {f g} {h : Bot → Bot}, R f g → Bot.Apart h → ∀ b, R (f.modifyBot b h) (g.modifyBot b h)
  ending : ∀ {f g}, R f g → ∀ b ending,
    R (f.modifyBot b fun x => { x with ending }) (g.modifyBot b fun x => { x with ending })
  dismissal : ∀ {f g}, R f g → ∀ dismissal, R { f with dismissal } { g with dismissal }
  wake : ∀ {f g} {t : Task}, R f g → t.isRelay = false → R (f.wake t) (g.wake t)
  say : ∀ {f g}, R f g → ∀ level message fields span, message ≠ strayLine →
    R (f.say level message fields span) (g.say level message fields span)
  publish : ∀ {f g} {e : Event}, R f g → e.kind.isDiagnostic = false → ∀ m,
    R (f.publish m e) (g.publish m e)

/-- It is also kept by what is done in the turn of a launched bot. The two sides may differ in how
a run ends, and then they tell of it differently. -/
structure RunsInStep (R : Fleet → Fleet → Prop) : Prop extends Lockstep R where
  park : ∀ {f g}, R f g → R f.park g.park
  note : ∀ {f g}, R f g → ∀ n, R (f.note n) (g.note n)
  releaseSlot : ∀ {f g}, R f g → ∀ m, R (f.releaseSlot m) (g.releaseSlot m)
  leaveSlotLine : ∀ {f g}, R f g → ∀ r, R (f.leaveSlotLine r) (g.leaveSlotLine r)
  tellDrained : ∀ {f g}, R f g → ∀ m, R (f.wakeAll ((f.drainWaiters m).map Task.wait))
    (g.wakeAll ((g.drainWaiters m).map Task.wait))
  outcome : ∀ {f g} {m id b name}, R f g → (f.manager m).bots[id]? = some b →
    f.askName b = .ok name →
    R ((f.sayOutcome id name (.ofEnding (f.bot b).ending)).publish m
        (outcomeEvent id name (.ofEnding (f.bot b).ending)))
      ((g.sayOutcome id name (.ofEnding (g.bot b).ending)).publish m
        (outcomeEvent id name (.ofEnding (g.bot b).ending)))
  stray : ∀ {f g}, R f g → ∀ fields,
    R (f.say .warn strayLine fields none) (g.say .warn strayLine fields none)

/-- It is also kept where somebody comes to wait, and by what is done with timers and with those who
have a manager. Nobody comes to wait for a manager that nobody has. -/
structure WaitsInStep (R : Fleet → Fleet → Prop) : Prop extends Lockstep R where
  number : ∀ {f g}, R f g → g.waits.length = f.waits.length
  spawn : ∀ {f g} {wt : Wait}, R f g → f.isHeld wt.manager = true → g.isHeld wt.manager = true →
    R { f with waits := f.waits ++ [wt] } { g with waits := g.waits ++ [wt] }
  dropTimer : ∀ {f g}, R f g → ∀ w, R { f with timers := f.timers.filter fun t => t.wait != w }
    { g with timers := g.timers.filter fun t => t.wait != w }
  addTimer : ∀ {f g}, R f g → ∀ t,
    R { f with timers := f.timers ++ [t] } { g with timers := g.timers ++ [t] }
  clock : ∀ {f g}, R f g → ∀ clock, R { f with clock } { g with clock }
  leave : ∀ {f g}, R f g → ∀ m, R (if f.isHeld m then f else f.wakeListener m)
    (if g.isHeld m then g else g.wakeListener m)

/-- It is also kept where this waiter changes, who stays with what it came for, and with being done
once it is. -/
structure MarksInStep (R : Fleet → Fleet → Prop) (w : Nat) : Prop extends WaitsInStep R where
  modifyWait : ∀ {f g} {h : Wait → Wait}, R f g → (∀ wt, (h wt).errand = wt.errand) →
    ((f.wait w).stage.isOver = false ∨ ∀ wt, (h wt).stage = wt.stage) →
    R (f.modifyWait w h) (g.modifyWait w h)

/-- A relation between fleets that agree, kept by what the owner does. -/
structure MovesInStep (R : Fleet → Fleet → Prop) : Prop extends WaitsInStep R where
  agrees : ∀ {f g}, R f g → f.Agrees g
  marks : ∀ w, MarksInStep R w
  disown : ∀ {f g}, R f g → ∀ m,
    R (f.modifyManager m fun x => { x with owned := false })
      (g.modifyManager m fun x => { x with owned := false })

/-- It is also kept by what is done in a turn. -/
structure TurnsInStep (R : Fleet → Fleet → Prop) : Prop extends MovesInStep R, RunsInStep R where
  setSlots : ∀ {f g}, R f g → ∀ m slots, R (f.modifyManager m fun x => { x with slots })
    (g.modifyManager m fun x => { x with slots })

end Fleet

/-! ## Changes that stand apart -/

namespace Manager

section Apart

variable {h : Manager → Manager} (apart : Apart h) (x : Manager)

include apart

theorem Apart.bus : (h x).bus = x.bus :=
  (congrArg Manager.bus (apart.frame x x.bus x.observer x.relay) :)

theorem Apart.observer : (h x).observer = x.observer :=
  (congrArg Manager.observer (apart.frame x x.bus x.observer x.relay) :)

theorem Apart.relay : (h x).relay = x.relay :=
  (congrArg Manager.relay (apart.frame x x.bus x.observer x.relay) :)

end Apart

theorem Plain.of_launches {h : Manager → Manager}
    (frame : ∀ (x : Manager) bus observer relay,
      h { x with bus, observer, relay } = { h x with bus, observer, relay })
    (pool : ∀ (x : Manager) settings slots,
      h { x with settings, slots } = { h x with settings, slots })
    (owned : ∀ x, (h x).owned = x.owned) (launches : ∀ x, (h x).launches = x.launches) : Plain h :=
  ⟨⟨frame, owned, fun x => by simp only [Manager.bots, launches, List.prefix_rfl]⟩, pool⟩

theorem bots_modifyLaunch (x : Manager) (id : Nat) {g : Launch → Launch}
    (bot : ∀ l, (g l).bot = l.bot) : (x.modifyLaunch id g).bots = x.bots := by
  apply List.ext_getElem?
  intro i
  simp only [bots, modifyLaunch, List.getElem?_map, List.getElem?_modify]
  cases x.launches[i]? with
  | none => rfl
  | some l => by_cases same : id = i <;> simp [same, bot]

theorem plain_modifyLaunch (id : Nat) {g : Launch → Launch} (bot : ∀ l, (g l).bot = l.bot) :
    Plain fun x => x.modifyLaunch id g where
  frame _ _ _ _ := rfl
  pool _ _ _ := rfl
  owned _ := rfl
  bots x := by simp only [bots_modifyLaunch x id bot, List.prefix_rfl]

theorem plain_launch (l : Launch) : Plain fun x => { x with launches := x.launches ++ [l] } where
  frame _ _ _ _ := rfl
  pool _ _ _ := rfl
  owned _ := rfl
  bots x := by
    rw [Manager.bots, Manager.bots, List.map_append]
    exact List.prefix_append _ _

theorem apart_slots (slots : Option (Permits Nat)) : Apart fun x => { x with slots } :=
  ⟨fun _ _ _ _ => rfl, fun _ => rfl, fun _ => List.prefix_rfl⟩

end Manager

theorem Bot.apart_enter : Bot.Apart Bot.enter :=
  ⟨fun x ending => by unfold Bot.enter; dsimp only; split <;> rfl,
    fun x => by unfold Bot.enter; split <;> rfl⟩

theorem Bot.apart_exit : Bot.Apart Bot.exit :=
  ⟨fun x ending => by unfold Bot.exit; dsimp only; split <;> rfl,
    fun x => by unfold Bot.exit; split <;> rfl⟩

/-- A change of this kind leaves the ending as it is. -/
theorem Bot.Apart.ending {h : Bot → Bot} (apart : Bot.Apart h) (x : Bot) :
    (h x).ending = x.ending :=
  (congrArg Bot.ending (apart.frame x x.ending) :)

namespace Fleet

theorem manager_modifyManager_or (f : Fleet) (m m' : Nat) (h : Manager → Manager) :
    (f.modifyManager m h).manager m' = f.manager m' ∨
      m' = m ∧ (f.modifyManager m h).manager m' = h (f.manager m') := by
  by_cases same : m = m'
  · subst same
    by_cases has : f.Has m
    · exact Or.inr ⟨rfl, manager_modifyManager_self has h⟩
    · refine Or.inl ?_
      unfold Has at has
      simp [manager, modifyManager, List.getElem?_eq_none (Nat.le_of_not_lt has)]
  · exact Or.inl (manager_modifyManager_ne same h)

theorem modifyManager_congr {f : Fleet} {m : Nat} {h k : Manager → Manager}
    (same : h (f.manager m) = k (f.manager m)) : f.modifyManager m h = f.modifyManager m k := by
  unfold manager at same
  rw [List.getD_eq_getElem?_getD] at same
  unfold modifyManager
  rw [List.modify_eq_set, List.modify_eq_set, same]

variable {R : Fleet → Fleet → Prop} {f g : Fleet} {m : Nat} {r : RunName}

theorem modifyManager_cases (count : g.managers.length = f.managers.length) (m m' : Nat)
    (h k : Manager → Manager) :
    ((f.modifyManager m h).manager m' = f.manager m' ∧
      (g.modifyManager m k).manager m' = g.manager m') ∨
    m = m' ∧ (f.modifyManager m h).manager m' = h (f.manager m') ∧
      (g.modifyManager m k).manager m' = k (g.manager m') := by
  by_cases same : m = m'
  · subst same
    by_cases has : f.Has m
    · have has' : g.Has m := Nat.lt_of_lt_of_eq has count.symm
      exact Or.inr ⟨rfl, manager_modifyManager_self has h, manager_modifyManager_self has' k⟩
    · unfold Has at has
      have beyond := Nat.le_of_not_lt has
      refine Or.inl ?_
      simp [manager, modifyManager, List.getElem?_eq_none beyond,
        List.getElem?_eq_none (count.symm ▸ beyond)]
  · exact Or.inl ⟨manager_modifyManager_ne same h, manager_modifyManager_ne same k⟩

theorem modifyBot_cases (number : g.bots.length = f.bots.length) (b b' : Nat) (h k : Bot → Bot) :
    ((f.modifyBot b h).bot b' = f.bot b' ∧ (g.modifyBot b k).bot b' = g.bot b') ∨
    b = b' ∧ (f.modifyBot b h).bot b' = h (f.bot b') ∧
      (g.modifyBot b k).bot b' = k (g.bot b') := by
  rw [bot_modifyBot, bot_modifyBot, number]
  split
  · rename_i same
    exact Or.inr ⟨same.1, rfl, rfl⟩
  · exact Or.inl ⟨rfl, rfl⟩

theorem isOwned_of_owned (count : g.managers.length = f.managers.length)
    (owned : (g.manager m).owned = (f.manager m).owned) : g.isOwned m = f.isOwned m := by
  unfold isOwned
  by_cases has : m < f.managers.length
  · have has' : m < g.managers.length := count ▸ has
    simp only [manager, List.getD_eq_getElem?_getD, List.getElem?_eq_getElem has,
      List.getElem?_eq_getElem has', Option.getD_some, Option.map_some] at owned ⊢
    exact owned
  · rw [List.getElem?_eq_none (Nat.le_of_not_lt has),
      List.getElem?_eq_none (count ▸ Nat.le_of_not_lt has)]

/-! ## What the two sides agree on -/

namespace Accords

variable (accords : f.Accords g)

include accords

theorem phase (m : Nat) : (g.manager m).phase = (f.manager m).phase :=
  (congrArg Manager.phase (accords.managers m) :)

theorem queue (m : Nat) : (g.manager m).queue = (f.manager m).queue :=
  (congrArg Manager.queue (accords.managers m) :)

theorem number (m : Nat) : (g.manager m).number = (f.manager m).number :=
  (congrArg Manager.number (accords.managers m) :)

theorem launches (m : Nat) : (g.manager m).launches = (f.manager m).launches :=
  (congrArg Manager.launches (accords.managers m) :)

theorem closed (m : Nat) : (g.manager m).closed = (f.manager m).closed :=
  (congrArg Manager.closed (accords.managers m) :)

theorem owned (m : Nat) : (g.manager m).owned = (f.manager m).owned :=
  (congrArg Manager.owned (accords.managers m) :)

theorem registry (m : Nat) : (g.manager m).registry = (f.manager m).registry :=
  (congrArg Manager.registry (accords.managers m) :)

theorem walked (m : Nat) : (g.manager m).walked = (f.manager m).walked :=
  (congrArg Manager.walked (accords.managers m) :)

theorem handles (m : Nat) : (g.manager m).handles = (f.manager m).handles :=
  (congrArg Manager.handles (accords.managers m) :)

theorem inFlight (m : Nat) : (g.manager m).inFlight = (f.manager m).inFlight :=
  (congrArg Manager.inFlight (accords.managers m) :)

theorem isDrained (m : Nat) : (g.manager m).isDrained = (f.manager m).isDrained :=
  (congrArg Manager.isDrained (accords.managers m) :)

theorem launch (r : RunName) : g.launch r = f.launch r := by
  rw [Fleet.launch, accords.launches]
  rfl

theorem plan (b : Nat) : (g.bot b).plan = (f.bot b).plan :=
  (congrArg Bot.plan (accords.bots b) :)

theorem liveness (b : Nat) : (g.bot b).liveness = (f.bot b).liveness :=
  (congrArg Bot.liveness (accords.bots b) :)

theorem permits (b : Nat) : (g.bot b).permits = (f.bot b).permits :=
  (congrArg Bot.permits (accords.bots b) :)

theorem isClosure (b : Nat) : (g.bot b).isClosure = (f.bot b).isClosure :=
  (congrArg Bot.isClosure (accords.bots b) :)

theorem panicOf? (b : Nat) (what : Method) : g.panicOf? b what = f.panicOf? b what := by
  have armed : (g.bot b).armed = (f.bot b).armed := (congrArg Bot.armed (accords.bots b) :)
  rw [Fleet.panicOf?, armed]
  rfl

theorem askName (b : Nat) : g.askName b = f.askName b := by
  rw [Fleet.askName, accords.panicOf?, accords.plan]
  rfl

theorem spanOf (r : RunName) : g.spanOf r = f.spanOf r := by
  rw [Fleet.spanOf, accords.number, accords.launch, accords.plan]
  rfl

theorem isAdmissible (r : RunName) : g.isAdmissible r = f.isAdmissible r := by
  rw [Fleet.isAdmissible, accords.closed, accords.launch]
  rfl

theorem numberField (m : Nat) : g.numberField m = f.numberField m := by
  rw [Fleet.numberField, accords.number]
  rfl

theorem isOwned (m : Nat) : g.isOwned m = f.isOwned m :=
  isOwned_of_owned accords.count (accords.owned m)

theorem handleTexts (handles : List Handle) : g.handleTexts handles = f.handleTexts handles := by
  induction handles with
  | nil => rfl
  | cons h rest ih => rw [Fleet.handleTexts, Fleet.handleTexts, accords.askName, ih]

theorem outstandingLabels (launches : List (Nat × Launch)) :
    g.outstandingLabels launches = f.outstandingLabels launches := by
  induction launches with
  | nil => rfl
  | cons l rest ih => rw [Fleet.outstandingLabels, Fleet.outstandingLabels, accords.askName, ih]

theorem outstanding (m : Nat) : g.outstanding m = f.outstanding m := by
  rw [Fleet.outstanding, accords.walked, accords.outstandingLabels]
  rfl

theorem isLive (l : Launch) : g.isLive l = f.isLive l := by
  unfold Fleet.isLive
  rw [accords.panicOf?, accords.liveness]

end Accords

namespace Agrees

/-- Fleets agree if their managers are the same but for the bus and those who read it. -/
theorem of_managers
    (managers : ∀ m, g.manager m = { f.manager m with
      bus := (g.manager m).bus
      observer := (g.manager m).observer
      relay := (g.manager m).relay })
    (count : g.managers.length = f.managers.length)
    (bots : ∀ b, g.bot b = { f.bot b with ending := (g.bot b).ending })
    (eager : ∀ b, (g.bot b).panicsEagerly = (f.bot b).panicsEagerly)
    (dismissal : g.dismissal = f.dismissal) (waits : g.waits = f.waits)
    (timers : g.timers = f.timers) (clock : g.clock = f.clock) : f.Agrees g where
  managers m := by
    rw [managers m]
  poll m := by rw [managers m]
  count := count
  bots := bots
  eager := eager
  dismissal := dismissal
  settings m := by rw [managers m]
  slots m := by rw [managers m]
  waits := waits
  timers := timers
  clock := clock

variable (agrees : f.Agrees g)

include agrees

theorem slotWaiters (m : Nat) : (g.manager m).slotWaiters = (f.manager m).slotWaiters := by
  rw [Manager.slotWaiters, agrees.slots]
  rfl

theorem wait (w : Nat) : g.wait w = f.wait w := by
  rw [Fleet.wait, agrees.waits]
  rfl

theorem isHeld (m : Nat) : g.isHeld m = f.isHeld m := by
  rw [Fleet.isHeld, agrees.isOwned, agrees.waits]
  rfl

theorem drainWaiters (m : Nat) : g.drainWaiters m = f.drainWaiters m := by
  unfold Fleet.drainWaiters
  simp only [agrees.timers, agrees.wait]

end Agrees

/-! ## Small changes -/

namespace Lockstep

variable (lock : Lockstep R) (same : R f g)

include lock same

theorem wakeAll {ts : List Task} (away : ∀ t ∈ ts, t.isRelay = false) :
    R (f.wakeAll ts) (g.wakeAll ts) := by
  induction ts generalizing f g with
  | nil => exact same
  | cons t ts ih =>
      exact ih (lock.wake same (away t List.mem_cons_self))
        fun u mem => away u (List.mem_cons_of_mem t mem)

theorem wakeAll_bot (rs : List RunName) :
    R (f.wakeAll (rs.map Task.bot)) (g.wakeAll (rs.map Task.bot)) := by
  refine lock.wakeAll same fun t mem => ?_
  obtain ⟨r, -, rfl⟩ := List.mem_map.mp mem
  rfl

theorem wakeAll_wait (ws : List Nat) :
    R (f.wakeAll (ws.map Task.wait)) (g.wakeAll (ws.map Task.wait)) := by
  refine lock.wakeAll same fun t mem => ?_
  obtain ⟨w, -, rfl⟩ := List.mem_map.mp mem
  rfl

theorem setStage (r : RunName) (stage : Stage) : R (f.setStage r stage) (g.setStage r stage) :=
  lock.manager same (Manager.plain_modifyLaunch r.id (g := fun l => { l with stage }) fun _ => rfl)
    r.manager

theorem addPermit (b : Nat) : R (f.addPermit b) (g.addPermit b) := by
  unfold Fleet.addPermit
  simp only [(lock.accords same).permits, (lock.accords same).launch]
  have set (permits : Permits RunName) : R (f.modifyBot b fun bot => { bot with permits })
      (g.modifyBot b fun bot => { bot with permits }) :=
    lock.bot same (h := fun bot => { bot with permits }) ⟨fun _ _ => rfl, fun _ => rfl⟩ b
  rcases (f.bot b).permits.release with ⟨permits, _ | r⟩
  · exact set permits
  · exact lock.wake (lock.setStage (set permits) r _) rfl

theorem addPermits (bots : List Nat) : R (f.addPermits bots) (g.addPermits bots) := by
  induction bots generalizing f g with
  | nil => exact same
  | cons b rest ih => exact ih (lock.addPermit same b)

/-- A slot is freed on both sides where the slots are the same. -/
theorem releaseSlot_of_slots {m : Nat} (slots : (g.manager m).slots = (f.manager m).slots)
    (set : ∀ slots, R (f.modifyManager m fun mgr => { mgr with slots })
      (g.modifyManager m fun mgr => { mgr with slots })) :
    R (f.releaseSlot m) (g.releaseSlot m) := by
  unfold Fleet.releaseSlot
  rw [slots]
  cases (f.manager m).slots with
  | none => exact same
  | some p =>
      dsimp only
      rcases p.release with ⟨p, _ | id⟩
      · exact set (some p)
      · exact lock.wake (lock.setStage (set (some p)) _ _) rfl

theorem dismiss (b : Nat) : R (f.dismiss b) (g.dismiss b) := by
  unfold Fleet.dismiss
  rw [(lock.accords same).dismissal]
  dsimp only
  cases f.dismissal.stage with
  | asleep => exact lock.wake (lock.dismissal same _) rfl
  | told | deferred => exact lock.dismissal same _

end Lockstep

/-- Who leaves the line for a slot leaves it on both sides. -/
theorem leaveSlotLine_of_slots {r : RunName}
    (slots : (g.manager r.manager).slots = (f.manager r.manager).slots)
    (set : ∀ slots, R (f.modifyManager r.manager fun mgr => { mgr with slots })
      (g.modifyManager r.manager fun mgr => { mgr with slots })) :
    R (f.leaveSlotLine r) (g.leaveSlotLine r) := by
  have as_set (k : Fleet) : k.leaveSlotLine r = k.modifyManager r.manager fun mgr =>
      { mgr with slots := (k.manager r.manager).slots.map fun p => p.leave r.id } :=
    modifyManager_congr rfl
  rw [as_set, as_set, slots]
  exact set _

/-! ## One fleet on both sides -/

theorem Agrees.refl (f : Fleet) : f.Agrees f :=
  .of_managers (fun _ => rfl) rfl (fun _ => rfl) (fun _ => rfl) rfl rfl rfl rfl

/-- One fleet on both sides, of which something holds. -/
def Both (P : Fleet → Prop) (f g : Fleet) : Prop := f = g ∧ P f

section Both

variable {P : Fleet → Prop}

/-- What calls keep of a single fleet. The changes that concern neither a manager, nor the tasks,
nor the waiters and the time count as one. -/
theorem Lockstep.ofKept
    (elsewhere : ∀ {f g : Fleet}, P f → g.managers = f.managers → g.tasks = f.tasks →
      f.SameTimes g → P g)
    (manager : ∀ {f h}, P f → Manager.Apart h → ∀ m, P (f.modifyManager m h))
    (wake : ∀ {f t}, P f → t.isRelay = false → P (f.wake t))
    (publish : ∀ {f e}, P f → e.kind.isDiagnostic = false → ∀ m, P (f.publish m e)) :
    Lockstep (Both P) where
  accords same := same.1 ▸ (Agrees.refl _).toAccords
  slotWaiters same m := by rw [same.1]
  manager same plain m := ⟨by rw [same.1], manager same.2 plain.toApart m⟩
  bot same _ b := ⟨by rw [same.1], elsewhere same.2 rfl rfl ⟨rfl, rfl, rfl⟩⟩
  ending same b ending := ⟨by rw [same.1], elsewhere same.2 rfl rfl ⟨rfl, rfl, rfl⟩⟩
  dismissal same _ := ⟨by rw [same.1], elsewhere same.2 rfl rfl ⟨rfl, rfl, rfl⟩⟩
  wake same away := ⟨by rw [same.1], wake same.2 away⟩
  say same _ _ _ _ _ := ⟨by rw [same.1], elsewhere same.2 rfl rfl ⟨rfl, rfl, rfl⟩⟩
  publish same plain m := ⟨by rw [same.1], publish same.2 plain m⟩

theorem WaitsInStep.ofKept (lock : Lockstep (Both P))
    (elsewhere : ∀ {f g : Fleet}, P f → g.managers = f.managers → g.tasks = f.tasks →
      g.waits = f.waits → P g)
    (spawn : ∀ {f} {wt : Wait}, P f → f.isHeld wt.manager = true →
      P { f with waits := f.waits ++ [wt] })
    (wakeListener : ∀ {f}, P f → ∀ m, P (f.wakeListener m)) : WaitsInStep (Both P) where
  toLockstep := lock
  number same := by rw [same.1]
  spawn same held _ := ⟨by rw [same.1], spawn same.2 held⟩
  dropTimer same _ := ⟨by rw [same.1], elsewhere same.2 rfl rfl rfl⟩
  addTimer same _ := ⟨by rw [same.1], elsewhere same.2 rfl rfl rfl⟩
  clock same _ := ⟨by rw [same.1], elsewhere same.2 rfl rfl rfl⟩
  leave same m := by
    obtain ⟨rfl, kept⟩ := same
    split
    · exact ⟨rfl, kept⟩
    · exact ⟨rfl, wakeListener kept m⟩

theorem MarksInStep.ofKept {w : Nat} (lock : WaitsInStep (Both P))
    (modifyWait : ∀ {f} {h : Wait → Wait}, P f → (∀ wt, (h wt).manager = wt.manager) →
      ((f.wait w).stage.isOver = false ∨ ∀ wt, (h wt).stage = wt.stage) → P (f.modifyWait w h)) :
    MarksInStep (Both P) w where
  toWaitsInStep := lock
  modifyWait same errand stage :=
    ⟨by rw [same.1], modifyWait same.2 (fun wt => congrArg Prod.fst (errand wt)) stage⟩

theorem MovesInStep.ofKept (lock : WaitsInStep (Both P))
    (modifyWait : ∀ {f w} {h : Wait → Wait}, P f → (∀ wt, (h wt).manager = wt.manager) →
      ((f.wait w).stage.isOver = false ∨ ∀ wt, (h wt).stage = wt.stage) → P (f.modifyWait w h))
    (disown : ∀ {f}, P f → ∀ m, P (f.modifyManager m fun x => { x with owned := false })) :
    MovesInStep (Both P) where
  toWaitsInStep := lock
  agrees same := same.1 ▸ .refl _
  marks _ := .ofKept lock modifyWait
  disown same m := ⟨by rw [same.1], disown same.2 m⟩

theorem RunsInStep.ofKept (lock : Lockstep (Both P))
    (elsewhere : ∀ {f g : Fleet}, P f → g.managers = f.managers → g.tasks = f.tasks →
      f.SameTimes g → P g)
    (manager : ∀ {f h}, P f → Manager.Apart h → ∀ m, P (f.modifyManager m h))
    (park : ∀ {f}, P f → P f.park) : RunsInStep (Both P) where
  toLockstep := lock
  park same := ⟨by rw [same.1], park same.2⟩
  note same _ := ⟨by rw [same.1], elsewhere same.2 rfl rfl ⟨rfl, rfl, rfl⟩⟩
  releaseSlot {f _} same m := by
    obtain ⟨rfl, kept⟩ := same
    exact lock.releaseSlot_of_slots ⟨rfl, kept⟩ rfl fun slots =>
      ⟨rfl, manager kept (Manager.apart_slots slots) m⟩
  leaveSlotLine {f _} same r := by
    obtain ⟨rfl, kept⟩ := same
    exact leaveSlotLine_of_slots (R := Both P) rfl fun slots =>
      ⟨rfl, manager kept (Manager.apart_slots slots) r.manager⟩
  tellDrained {f _} same m := by
    obtain ⟨rfl, kept⟩ := same
    exact lock.wakeAll_wait ⟨rfl, kept⟩ _
  outcome {f _ m id b name} same _ _ := by
    have said : Both P (f.sayOutcome id name (.ofEnding (f.bot b).ending))
        (f.sayOutcome id name (.ofEnding (f.bot b).ending)) := by
      refine ⟨rfl, elsewhere same.2 ?_ ?_ ⟨?_, ?_, ?_⟩⟩
      all_goals cases RunOutcome.ofEnding (f.bot b).ending <;> rfl
    refine ⟨by rw [same.1], (lock.publish said ?_ m).2⟩
    cases RunOutcome.ofEnding (f.bot b).ending <;> rfl
  stray same _ := ⟨by rw [same.1], elsewhere same.2 rfl rfl ⟨rfl, rfl, rfl⟩⟩

/-- What a turn keeps of a single fleet. -/
theorem TurnsInStep.ofKept (moves : MovesInStep (Both P)) (runs : RunsInStep (Both P))
    (manager : ∀ {f h}, P f → Manager.Apart h → ∀ m, P (f.modifyManager m h)) :
    TurnsInStep (Both P) :=
  { moves, runs with
    setSlots := fun same m slots =>
      ⟨by rw [same.1], manager same.2 (Manager.apart_slots slots) m⟩ }

end Both

end Fleet

end Flotilla
