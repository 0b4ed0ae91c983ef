import Flotilla.Proofs.Course

/-!
# What a step tells

`Step.telling` sorts what a step may do to the bus of a manager, and with it to its phase, its
start queue and its roster: who was launched, and who is registered. Of the thirteen steps in
which a launch or a waiter only goes on, none is told of. Whatever is said of the events of a
manager over a whole run follows from it.
-/

namespace Flotilla

/-- Who was launched, in the order of the ids, and whether they are registered. -/
def Manager.roster (mgr : Manager) : List (Nat × Bool) :=
  mgr.launches.map fun l => (l.bot, l.registered)

/-- What became of a manager: it published these events, and has this phase, start queue and
roster. -/
structure Upshot (v v' : View) (es : List Event) (phase : Phase) (queue : List Nat)
    (roster : List (Nat × Bool)) : Prop where
  bus : v'.mgr.bus = v.mgr.bus.publishAll es
  phase : v'.mgr.phase = phase
  queue : v'.mgr.queue = queue
  roster : v'.mgr.roster = roster

/-- The phase in which a manager is found, and what is published of it, if it is to stop or
stops and this is its registry. -/
def Phase.ifDone (phase : Phase) (registry : List (Nat × Launch)) : Phase × List Event :=
  if phase = .stopping ∧ registry = [] then (.terminated, [.stateChanged .terminated])
  else (phase, [])

/-- What a step publishes, why it may, and what becomes of the manager. -/
inductive Telling (L : Licence) (m : Nat) (v v' : View) : List Event → Prop
  | still (upshot : Upshot v v' [] v.mgr.phase v.mgr.queue v.mgr.roster) : Telling L m v v' []
  | aside {e : Event} (is : e.IsAside)
    (upshot : Upshot v v' [e] v.mgr.phase v.mgr.queue v.mgr.roster) : Telling L m v v' [e]
  | waiting (held : v.mgr.registry ≠ [])
    (upshot : Upshot v v' [.waitingForBots v.mgr.registry.length] v.mgr.phase v.mgr.queue
      v.mgr.roster) : Telling L m v v' [.waitingForBots v.mgr.registry.length]
  | queued {b : Nat} (licensed : L.enrols m) (isNew : v.mgr.phase = .new)
    (upshot : Upshot v v' [.botQueued (v.nameOf b)] .new (v.mgr.queue ++ [b]) v.mgr.roster) :
    Telling L m v v' [.botQueued (v.nameOf b)]
  | begun (licensed : L.enrols m) (isNew : v.mgr.phase = .new)
    (upshot : Upshot v v' [.stateChanged .starting] .starting [] v.mgr.roster) :
    Telling L m v v' [.stateChanged .starting]
  | launched {b : Nat} (licensed : L.enrols m)
    (launching : v.mgr.phase = .starting ∨ v.mgr.phase = .running)
    (upshot : Upshot v v' [.botLaunched v.mgr.launches.length (v.nameOf b)] v.mgr.phase
      v.mgr.queue (v.mgr.roster ++ [(b, true)])) :
    Telling L m v v' [.botLaunched v.mgr.launches.length (v.nameOf b)]
  /-- A bot is launched while the manager starts and does not give its name, or it comes too
  late. -/
  | lost {b : Nat} (licensed : L.enrols m)
    (launching : v.mgr.phase = .starting ∨ v.mgr.phase = .running)
    (why : L.panics b ∧ v.mgr.phase = .starting ∨ v.mgr.closed = true)
    (upshot : Upshot v v' [] v.mgr.phase v.mgr.queue (v.mgr.roster ++ [(b, false)])) :
    Telling L m v v' []
  | runs (licensed : L.enrols m) (isStarting : v.mgr.phase = .starting)
    (named : ∀ id l, v.launch? id = some l → l.registered = true)
    (upshot : Upshot v v' [.stateChanged .running] .running v.mgr.queue v.mgr.roster) :
    Telling L m v v' [.stateChanged .running]
  | stops {asked : List Nat} (licensed : L.stops m) (isRunning : v.mgr.phase = .running)
    (sorted : asked.Pairwise (· < ·))
    (registered : ∀ id ∈ asked, ∃ l, v.launch? id = some l ∧ l.registered = true)
    (upshot : Upshot v v'
      (.stateChanged .stopping :: asked.map (fun id => .quitRequested id (v.launchName id)) ++
        (Phase.stopping.ifDone v.mgr.registry).2) (Phase.stopping.ifDone v.mgr.registry).1
          v.mgr.queue v.mgr.roster) :
    Telling L m v v'
      (.stateChanged .stopping :: asked.map (fun id => .quitRequested id (v.launchName id)) ++
        (Phase.stopping.ifDone v.mgr.registry).2)
  | left {id : Nat} {l : Launch} {ran : Bool} {outcome : RunOutcome}
    (found : v.launch? id = some l) (registered : l.registered = true)
    (why : v.MayLeave l ran (some outcome) (L.runs ⟨m, id⟩))
    (ends : outcome ≠ .notStarted → L.ends ⟨m, id⟩ outcome)
    (eq : v' = v.leave m id ran (some outcome))
    (upshot : Upshot v v'
      (Fleet.outcomeEvent id (v.nameOf l.bot) outcome :: .botRemoved id (v.nameOf l.bot) ::
        (v.mgr.phase.ifDone v'.mgr.registry).2) (v.mgr.phase.ifDone v'.mgr.registry).1
          v.mgr.queue (v.mgr.roster.set id (l.bot, false))) :
    Telling L m v v'
      (Fleet.outcomeEvent id (v.nameOf l.bot) outcome :: .botRemoved id (v.nameOf l.bot) ::
        (v.mgr.phase.ifDone v'.mgr.registry).2)
  /-- A launch that is not registered comes to its end. -/
  | strayed {id : Nat} {l : Launch} {ran : Bool} {outcome : RunOutcome}
    (found : v.launch? id = some l) (stray : l.registered = false)
    (why : v.MayLeave l ran (some outcome) (L.runs ⟨m, id⟩))
    (upshot : Upshot v v' [Fleet.outcomeEvent id (v.nameOf l.bot) outcome] v.mgr.phase
      v.mgr.queue v.mgr.roster) :
    Telling L m v v' [Fleet.outcomeEvent id (v.nameOf l.bot) outcome]

variable {L : Licence} {m : Nat} {v v' : View} {id : Nat} {l : Launch}

/-! ## The roster -/

theorem View.getElem?_roster (v : View) (id : Nat) :
    v.mgr.roster[id]? = (v.launch? id).map fun l => (l.bot, l.registered) :=
  List.getElem?_map

theorem Manager.length_roster (mgr : Manager) : mgr.roster.length = mgr.launches.length :=
  List.length_map _

theorem Manager.roster_modifyLaunch (mgr : Manager) (id : Nat) {g : Launch → Launch}
    (bot : ∀ l, (g l).bot = l.bot) (registered : ∀ l, (g l).registered = l.registered) :
    (mgr.modifyLaunch id g).roster = mgr.roster := by
  unfold roster modifyLaunch
  apply List.ext_getElem?
  intro j
  rw [List.getElem?_map, List.getElem?_map, List.getElem?_modify]
  cases mgr.launches[j]? with
  | none => rfl
  | some l =>
      split
      · simp [bot, registered]
      · rfl

namespace View

/-- A launch that comes to its end with an outcome leaves the registry. -/
theorem roster_leave (found : v.launch? id = some l) (m : Nat) (ran : Bool)
    (outcome : Option RunOutcome) : (v.leave m id ran outcome).mgr.roster =
      v.mgr.roster.set id (l.bot, l.registered && outcome.isNone) := by
  apply List.ext_getElem?
  intro j
  rw [getElem?_roster, launch?_leave, List.getElem?_set, getElem?_roster]
  by_cases same : id = j
  · subst same
    have inside : id < v.mgr.roster.length := by
      rw [Manager.roster, List.length_map]
      exact lt_of_launch? found
    rw [found, if_pos rfl, if_pos inside, Option.map_some, Option.map_some, if_pos rfl]
  · rw [if_neg same, Option.map_map]
    congr 1
    funext l
    rw [Function.comp_apply, if_neg (Ne.symm same)]
    split <;> rfl

theorem roster_set_self (found : v.launch? id = some l) :
    v.mgr.roster.set id (l.bot, l.registered) = v.mgr.roster := by
  apply List.ext_getElem?
  intro j
  rw [List.getElem?_set]
  split
  · rename_i same
    subst same
    rw [getElem?_roster, found]
    simp [Manager.roster, lt_of_launch? found]
  · rfl

/-! ## Publishing -/

theorem bus_publishAll (v : View) (es : List Event) :
    (v.publishAll es).mgr.bus = v.mgr.bus.publishAll es := by
  rw [publishAll_eq]
  rfl

theorem bus_terminateIfEmpty (v : View) : v.terminateIfEmpty.mgr.bus =
    v.mgr.bus.publishAll (v.mgr.phase.ifDone v.mgr.registry).2 := by
  unfold terminateIfEmpty Phase.ifDone
  simp only [List.isEmpty_iff]
  split <;> rfl

theorem phase_terminateIfEmpty (v : View) :
    v.terminateIfEmpty.mgr.phase = (v.mgr.phase.ifDone v.mgr.registry).1 := by
  unfold terminateIfEmpty Phase.ifDone
  simp only [List.isEmpty_iff]
  split <;> rfl

end View

theorem Bus.publishAll_append (b : Bus) (es es' : List Event) :
    b.publishAll (es ++ es') = (b.publishAll es).publishAll es' :=
  List.foldl_append

theorem Bus.publishAll_cons (b : Bus) (e : Event) (es : List Event) :
    b.publishAll (e :: es) = (b.publish e).publishAll es := rfl

theorem Phase.ifDone_congr {phase : Phase} {registry registry' : List (Nat × Launch)}
    (same : registry' = [] ↔ registry = []) : phase.ifDone registry' = phase.ifDone registry := by
  unfold ifDone
  simp only [same]

/-! ## Each thing that happens -/

namespace Upshot

theorem of_mgr (same : v'.mgr = v.mgr) :
    Upshot v v' [] v.mgr.phase v.mgr.queue v.mgr.roster := by
  rw [← same]
  exact ⟨by rw [same]; rfl, rfl, rfl, rfl⟩

/-- A launch goes to another stage, or is admitted. -/
theorem of_launch {g : Launch → Launch} {slots : Option (Permits Nat)}
    (same : v'.mgr = { v.mgr with slots := slots }.modifyLaunch id g)
    (bot : ∀ l, (g l).bot = l.bot) (registered : ∀ l, (g l).registered = l.registered) :
    Upshot v v' [] v.mgr.phase v.mgr.queue v.mgr.roster := by
  refine ⟨by rw [same]; rfl, by rw [same]; rfl, by rw [same]; rfl, ?_⟩
  rw [same, Manager.roster_modifyLaunch _ _ bot registered]
  rfl

theorem of_stop (v : View) (m : Nat) (asked : List Nat) : Upshot v (v.stop m asked)
    (.stateChanged .stopping :: asked.map (fun id => .quitRequested id (v.launchName id)) ++
      (Phase.stopping.ifDone v.mgr.registry).2) (Phase.stopping.ifDone v.mgr.registry).1
        v.mgr.queue v.mgr.roster := by
  have names : (v.closing m).launchName = v.launchName := by
    funext id
    unfold View.launchName
    rw [View.closing_mgr]
    unfold View.closing View.close
    rw [View.wakeAll_nameOf]
    rfl
  have phase : ((v.closing m).publishAll (asked.map fun id =>
      .quitRequested id (v.launchName id))).mgr.phase = .stopping := by
    rw [View.publishAll_eq]
    show (v.closing m).mgr.phase = _
    rw [View.closing_mgr]
  have registry : ((v.closing m).publishAll (asked.map fun id =>
      .quitRequested id (v.launchName id))).mgr.registry = v.mgr.registry := by
    rw [View.publishAll_eq]
    show (v.closing m).mgr.registry = _
    rw [View.closing_mgr]
    rfl
  refine ⟨?_, ?_, by rw [View.stop_mgr], by rw [View.stop_mgr]; rfl⟩
  · rw [View.stop_eq, names, View.bus_terminateIfEmpty, phase, registry, View.bus_publishAll,
      Bus.publishAll_append, Bus.publishAll_cons]
    show ((v.closing m).mgr.bus.publishAll _).publishAll _ = _
    rw [View.closing_mgr]
  · rw [View.stop_eq, names, View.phase_terminateIfEmpty, phase, registry]

/-- What becomes of a manager when a launch is completed that gave back what it had. -/
theorem of_complete {u : View} (given : Upshot v u [] v.mgr.phase v.mgr.queue v.mgr.roster)
    (found : u.launch? id = some l) (m : Nat) (outcome : RunOutcome) :
    (u.complete m id outcome).mgr.queue = v.mgr.queue ∧
      (l.registered = true →
        (u.complete m id outcome).mgr.bus = v.mgr.bus.publishAll
          (Fleet.outcomeEvent id (u.nameOf l.bot) outcome :: .botRemoved id (u.nameOf l.bot) ::
            (v.mgr.phase.ifDone (u.complete m id outcome).mgr.registry).2) ∧
        (u.complete m id outcome).mgr.phase =
          (v.mgr.phase.ifDone (u.complete m id outcome).mgr.registry).1) ∧
      (l.registered = false →
        (u.complete m id outcome).mgr.bus = v.mgr.bus.publishAll
          [Fleet.outcomeEvent id (u.nameOf l.bot) outcome] ∧
        (u.complete m id outcome).mgr.phase = v.mgr.phase) := by
  have bus : u.mgr.bus = v.mgr.bus := given.bus
  dsimp only [View.complete]
  rw [View.getD_launches found]
  generalize told : u.publish (Fleet.outcomeEvent id (u.nameOf l.bot) outcome) = w
  have there : (w.mgr.launches.getD id default) = l := by
    rw [← told]
    exact View.getD_launches found
  have fields : w.mgr.phase = v.mgr.phase ∧ w.mgr.queue = v.mgr.queue ∧
      w.mgr.bus = v.mgr.bus.publishAll [Fleet.outcomeEvent id (u.nameOf l.bot) outcome] := by
    rw [← told]
    refine ⟨given.phase, given.queue, ?_⟩
    rw [← bus]
    rfl
  refine ⟨?_, fun registered => ?_, fun stray => ?_⟩
  · rw [View.endTask_mgr, View.unregister_mgr]
    exact fields.2.1
  · have done : v.mgr.phase.ifDone
        ((w.unregister id (u.nameOf l.bot)).endTask m id).mgr.registry =
          v.mgr.phase.ifDone ((w.modifyLaunch id fun l => { l with registered := false }).publish
            (.botRemoved id (u.nameOf l.bot))).mgr.registry := by
      apply Phase.ifDone_congr
      rw [View.endTask_registry]
      unfold View.unregister
      rw [there, if_pos registered, View.terminateIfEmpty_registry]
    rw [done, View.endTask_mgr]
    show (w.unregister id (u.nameOf l.bot)).mgr.bus = _ ∧
      (w.unregister id (u.nameOf l.bot)).mgr.phase = _
    unfold View.unregister
    rw [there, if_pos registered, View.bus_terminateIfEmpty, View.phase_terminateIfEmpty]
    have phase : ((w.modifyLaunch id fun l => { l with registered := false }).publish
        (.botRemoved id (u.nameOf l.bot))).mgr.phase = v.mgr.phase := fields.1
    rw [phase]
    refine ⟨?_, rfl⟩
    show (w.mgr.bus.publish _).publishAll _ = _
    rw [fields.2.2]
    rfl
  · rw [View.endTask_mgr]
    show (w.unregister id (u.nameOf l.bot)).mgr.bus = _ ∧
      (w.unregister id (u.nameOf l.bot)).mgr.phase = _
    unfold View.unregister
    rw [there, if_neg (ne_true_of_eq_false stray)]
    exact ⟨fields.2.2, fields.1⟩

end Upshot

/-- A launch that gave back what it had is told of nowhere. -/
theorem View.upshot_vacated (found : v.launch? id = some l) (m : Nat) (ran : Bool) :
    Upshot v (v.vacated m id ran) [] v.mgr.phase v.mgr.queue v.mgr.roster := by
  have fields := vacated_mgr v m id ran
  refine ⟨by rw [fields]; rfl, by rw [fields], by rw [fields], ?_⟩
  have ended := roster_leave found m ran none
  rw [Option.isNone_none, Bool.and_true, roster_set_self found, leave_eq] at ended
  rw [← ended]
  dsimp only
  rw [endTask_mgr]
  exact (Manager.roster_modifyLaunch _ id (g := fun l => { l with stage := .over })
    (fun _ => rfl) fun _ => rfl).symm

theorem Telling.of_leave {ran : Bool} {outcome : Option RunOutcome}
    (found : v.launch? id = some l)
    (ends : ∀ o, outcome = some o → o ≠ .notStarted → L.ends ⟨m, id⟩ o)
    (why : v.MayLeave l ran outcome (L.runs ⟨m, id⟩)) :
    ∃ es, Telling L m v (v.leave m id ran outcome) es := by
  have given := View.upshot_vacated found m ran
  have roster := View.roster_leave found m ran outcome
  have names : (v.vacated m id ran).nameOf = v.nameOf := (View.local_vacated v m id ran).nameOf
  have fields := View.leave_mgr v m id ran outcome
  cases outcome with
  | none =>
      refine ⟨[], .still ⟨?_, ?_, by rw [fields], ?_⟩⟩
      · rw [View.leave_eq]
        dsimp only
        rw [View.endTask_mgr]
        exact given.bus
      · rw [View.leave_eq]
        dsimp only
        rw [View.endTask_mgr]
        exact given.phase
      · rw [roster, Option.isNone_none, Bool.and_true, View.roster_set_self found]
  | some outcome =>
      -- The launch has given back what it had, and is the same but for its stage.
      obtain ⟨l', found', bot, registered⟩ : ∃ l', (v.vacated m id ran).launch? id = some l' ∧
          l'.bot = l.bot ∧ l'.registered = l.registered := by
        have same := View.getElem?_roster (v.vacated m id ran) id
        rw [given.roster, View.getElem?_roster, found, Option.map_some] at same
        obtain ⟨l', found', eq⟩ := Option.map_eq_some_iff.mp same.symm
        exact ⟨l', found', congrArg Prod.fst eq, congrArg Prod.snd eq⟩
      obtain ⟨queue, left, strayed⟩ := Upshot.of_complete given found' m outcome
      rw [registered, bot, names] at left strayed
      cases isRegistered : l.registered with
      | true =>
          rw [isRegistered] at roster
          exact ⟨_, .left found isRegistered why (ends outcome rfl) rfl
            ⟨(left isRegistered).1, (left isRegistered).2, queue, roster⟩⟩
      | false =>
          refine ⟨_, .strayed found isRegistered why
            ⟨(strayed isRegistered).1, (strayed isRegistered).2, queue, ?_⟩⟩
          rw [roster, isRegistered, Bool.false_and, ← isRegistered, View.roster_set_self found]

theorem Telling.of_launch {b : Nat} {named : Bool} (licensed : L.enrols m)
    (launching : v.mgr.phase = .starting ∨ v.mgr.phase = .running)
    (mute : named = false → L.panics b ∧ v.mgr.phase = .starting) :
    ∃ es, Telling L m v (v.launch m b named) es := by
  have phase : (v.launch m b named).mgr.phase = v.mgr.phase := by rw [View.launch_mgr]
  have queue : (v.launch m b named).mgr.queue = v.mgr.queue := by rw [View.launch_mgr]
  have roster : (v.launch m b named).mgr.roster = v.mgr.roster ++ [(b, named)] := by
    rw [View.launch_mgr]
    exact List.map_append
  cases named with
  | true =>
      refine ⟨_, .launched licensed launching ⟨?_, phase, queue, roster⟩⟩
      unfold View.launch
      dsimp only
      rw [if_pos rfl, View.wake_nameOf]
      show (View.wake _ _).mgr.bus.publish _ = _
      rw [View.wake_mgr]
      rfl
  | false =>
      refine ⟨_, .lost licensed launching (Or.inl (mute rfl)) ⟨?_, phase, queue, roster⟩⟩
      unfold View.launch
      dsimp only
      rw [if_neg Bool.false_ne_true, View.wake_mgr]
      rfl

/-- What a step publishes, and what becomes of the manager. -/
theorem Step.telling (h : Step L m v v') : ∃ es, Telling L m v v' es := by
  cases h with
  | tell aside => exact ⟨_, .aside aside ⟨rfl, rfl, rfl, rfl⟩⟩
  | report held => exact ⟨_, .waiting held ⟨rfl, rfl, rfl, rfl⟩⟩
  | enqueue licensed isNew => exact ⟨_, .queued licensed isNew ⟨rfl, isNew, rfl, rfl⟩⟩
  | begin licensed isNew => exact ⟨_, .begun licensed isNew ⟨rfl, rfl, rfl, rfl⟩⟩
  | launch licensed launching isOpen mute => exact Telling.of_launch licensed launching mute
  | launchLate licensed launching isClosed =>
      exact ⟨_, .lost licensed launching (Or.inr isClosed) ⟨rfl, rfl, rfl, List.map_append⟩⟩
  | run licensed isStarting named =>
      exact ⟨_, .runs licensed isStarting named ⟨rfl, rfl, rfl, rfl⟩⟩
  | stop licensed isRunning sorted registered =>
      exact ⟨_, .stops licensed isRunning sorted registered (.of_stop v m _)⟩
  | leave acts turn found mute ends why => exact Telling.of_leave found ends why
  | nudge | nudgeWait | spawn | mark | signal => exact ⟨_, .still (.of_mgr (View.wake_mgr _ _))⟩
  | permit found waits =>
      exact ⟨_, .still (.of_launch (View.wake_mgr _ _) (fun _ => rfl) fun _ => rfl)⟩
  | lineUp | proceed => exact ⟨_, .still (.of_launch rfl (fun _ => rfl) fun _ => rfl)⟩
  | @enter id l calls =>
      obtain ⟨slots, taken⟩ := v.exists_takeSlot id
      have marked : Upshot v ((v.setSlots slots).markAdmitted id) [] _ _ _ :=
        .of_launch rfl (fun _ => rfl) fun _ => rfl
      have entered : Upshot ((v.setSlots slots).markAdmitted id)
          (((v.setSlots slots).markAdmitted id).setStage id (.calling calls)) [] _ _ _ :=
        .of_launch rfl (fun _ => rfl) fun _ => rfl
      rw [taken]
      exact ⟨_, .still ⟨rfl, rfl, rfl, entered.roster.trans marked.roster⟩⟩
  | next | elsewhere | park | listen | poll | settle => exact ⟨_, .still (.of_mgr rfl)⟩

/-- The names of the bots stay the same. -/
theorem Step.nameOf (h : Step L m v v') : v'.nameOf = v.nameOf := by
  cases h with
  | launch => exact (View.local_launch _ _ _ _).nameOf
  | stop => exact (View.local_stop _ _ _).nameOf
  | leave => exact (View.local_leave _ _ _ _ _).nameOf
  | nudge | nudgeWait | permit | spawn | mark | signal => exact View.wake_nameOf _ _
  | @enter id =>
      obtain ⟨slots, taken⟩ := v.exists_takeSlot id
      rw [taken]
      rfl
  | _ => rfl

end Flotilla
