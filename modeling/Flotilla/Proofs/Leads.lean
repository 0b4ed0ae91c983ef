import Flotilla.Proofs.Change

/-!
# Changes of a fleet as steps of its managers

`Fleet.Leads` says of two fleets that what happened between them is, for every manager, a
sequence of steps. Changes that lead from one fleet to the next compose, so a function of the
fleet is treated by treating its parts. Where several parts make up one step together, their
effect on a view is computed and compared with the step.

Some facts about a fleet are carried along (`Fleet.Ready`), because steps depend on them: the
runs that wait for a bot had their first turn, a manager that was not started launched nobody,
and no bot panics when it is asked its name, unless panics are licensed.
-/

namespace Flotilla

/-- What a bot's other runs may rely on when the bot changes: it forgets runs, but meets no
new ones. -/
structure Bot.Keeps (x y : Bot) : Prop where
  plan : y.plan = x.plan
  armed : y.armed = x.armed
  waiting : ∀ r, r ∈ y.permits.waiting → r ∈ x.permits.waiting
  watchers : ∀ r, r ∈ y.liveness.watchers → r ∈ x.liveness.watchers

/-- What changes none of this keeps what is known of a bot. -/
theorem Bot.Keeps.of_eq {x y : Bot} (plan : y.plan = x.plan) (armed : y.armed = x.armed)
    (permits : y.permits = x.permits) (watchers : y.liveness.watchers = x.liveness.watchers) :
    Bot.Keeps x y where
  plan
  armed
  waiting := fun r mem => by
    rw [← permits]
    exact mem
  watchers := fun r mem => by
    rw [← watchers]
    exact mem

def Relay.subscribers (r : Relay) : List Subscriber := r.fanout.feeds.map Feed.subscriber

/-- The subscribers of a manager. -/
def Manager.subscribers (mgr : Manager) : List Subscriber :=
  match mgr.relay with
  | none => []
  | some r => r.subscribers

theorem Manager.subscribers_modifyRelay {g : Relay → Relay} {mgr : Manager}
    (same : ∀ r, mgr.relay = some r → (g r).subscribers = r.subscribers) :
    (mgr.modifyRelay g).subscribers = mgr.subscribers := by
  unfold Manager.modifyRelay Manager.subscribers
  cases relay : mgr.relay with
  | none => rfl
  | some r => exact same r relay

namespace Fleet

/-- A run waits for a bot: for a permit, or for a request to quit. -/
def Knows (f : Fleet) (r : RunName) : Prop :=
  ∃ b, r ∈ (f.bot b).permits.waiting ∨ r ∈ (f.bot b).liveness.watchers

/-- The task of a launch had its first turn. -/
def Begun (f : Fleet) (r : RunName) : Prop :=
  ∃ l, (f.view r.manager).launch? r.id = some l ∧ l.stage ≠ .submitted

/-- The runs that wait for a bot had their first turn, waiters wait for managers there are, and
a manager that was not started launched nobody. -/
structure Sound (f : Fleet) : Prop where
  known : ∀ r, f.Knows r → f.Begun r
  owned : ∀ wt ∈ f.waits, f.Has wt.manager
  unlaunched : ∀ m, f.Has m → (f.manager m).phase = .new → (f.manager m).launches = []

structure Ready (L : Licence) (f : Fleet) : Prop extends f.Sound where
  named : ∀ b, ¬ L.panics b → f.panicOf? b .name = none

/-- The subscribers of a manager. -/
def subscribers (f : Fleet) (m : Nat) : List Subscriber := (f.manager m).subscribers

/-- Nothing was done that could make a fleet unready, and no subscribers came or went. -/
structure Steady (f f' : Fleet) : Prop where
  knows : ∀ r, f'.Knows r → f.Knows r
  armed : ∀ b, (f'.bot b).armed = (f.bot b).armed
  has : ∀ m, f'.Has m ↔ f.Has m
  waits : ∀ wt ∈ f'.waits, ∃ wt₀ ∈ f.waits, wt₀.manager = wt.manager
  subscribers : ∀ m, f'.subscribers m = f.subscribers m

/-- What happened between two fleets is a sequence of steps for every manager, and no
subscribers came or went. -/
structure Leads (L : Licence) (f f' : Fleet) : Prop where
  ready : f.Ready L → f'.Ready L
  has : f.Ready L → ∀ m, f'.Has m ↔ f.Has m
  steps : f.Ready L → ∀ m, f.Has m → Steps L m (f.view m) (f'.view m)
  subscribers : f.Ready L → ∀ m, f'.subscribers m = f.subscribers m

variable {L : Licence} {f f' f'' : Fleet} {m m' : Nat} {r : RunName}

/-! ## Composing -/

theorem Steady.refl (f : Fleet) : Steady f f :=
  ⟨fun _ h => h, fun _ => rfl, fun _ => Iff.rfl, fun wt h => ⟨wt, h, rfl⟩, fun _ => rfl⟩

theorem Steady.trans (h : Steady f f') (h' : Steady f' f'') : Steady f f'' := by
  refine ⟨fun r known => h.knows r (h'.knows r known), fun b => (h'.armed b).trans (h.armed b),
    fun m => (h'.has m).trans (h.has m), fun wt mem => ?_,
    fun m => (h'.subscribers m).trans (h.subscribers m)⟩
  obtain ⟨wt', mem', eq'⟩ := h'.waits wt mem
  obtain ⟨wt₀, mem₀, eq₀⟩ := h.waits wt' mem'
  exact ⟨wt₀, mem₀, eq₀.trans eq'⟩

theorem Steady.of_managers (bots : f'.bots = f.bots) (waits : f'.waits = f.waits)
    (managers : f'.managers.length = f.managers.length)
    (subscribers : ∀ m, f'.subscribers m = f.subscribers m) : Steady f f' := by
  have same : ∀ b, f'.bot b = f.bot b := fun b => by rw [bot, bots, ← bot]
  refine ⟨fun r known => ?_, fun b => by rw [same], fun m => by rw [Has, managers, ← Has],
    fun wt mem => ⟨wt, waits ▸ mem, rfl⟩, subscribers⟩
  obtain ⟨b, known⟩ := known
  rw [same] at known
  exact ⟨b, known⟩

theorem Steady.of_eq (bots : f'.bots = f.bots) (waits : f'.waits = f.waits)
    (managers : f'.managers = f.managers) : Steady f f' :=
  .of_managers bots waits (by rw [managers]) fun m => by
    rw [Fleet.subscribers, manager, managers, ← manager, ← Fleet.subscribers]

theorem Leads.refl (L : Licence) (f : Fleet) : Leads L f f :=
  ⟨id, fun _ _ => Iff.rfl, fun _ _ _ => .refl, fun _ _ => rfl⟩

theorem Leads.trans (h : Leads L f f') (h' : Leads L f' f'') : Leads L f f'' :=
  ⟨fun ready => h'.ready (h.ready ready),
    fun ready m => (h'.has (h.ready ready) m).trans (h.has ready m),
    fun ready m has => (h.steps ready m has).trans
      (h'.steps (h.ready ready) m ((h.has ready m).mpr has)),
    fun ready m => (h'.subscribers (h.ready ready) m).trans (h.subscribers ready m)⟩

theorem Leads.of_ready (h : f.Ready L → Leads L f f') : Leads L f f' :=
  ⟨fun ready => (h ready).ready ready, fun ready => (h ready).has ready,
    fun ready => (h ready).steps ready, fun ready => (h ready).subscribers ready⟩

theorem has_of_launch? {l : Launch} {id : Nat} (found : (f.view m).launch? id = some l) :
    f.Has m := by
  apply Classical.byContradiction
  intro out
  have none : (f.view m).launch? id = none := by
    show (f.manager m).launches[id]? = none
    rw [manager_of_not_has out]
    rfl
  rw [none] at found
  cases found

/-- A launch that had its first turn stays one that had it. -/
theorem Begun.steps (h : f.Begun r) (steps : f.Has r.manager →
    Steps L r.manager (f.view r.manager) (f'.view r.manager)) : f'.Begun r := by
  obtain ⟨l, found, begun⟩ := h
  exact (steps (has_of_launch? found)).launch Change.begun found begun

/-- A change made of steps, after which a bot may know of runs it did not know before if they
had their first turn. -/
theorem Leads.of_steps
    (knows : f.Ready L → ∀ r, f'.Knows r → f.Knows r ∨ f'.Begun r)
    (armed : ∀ b, (f'.bot b).armed = (f.bot b).armed) (has : ∀ m, f'.Has m ↔ f.Has m)
    (waits : f.Ready L → ∀ wt ∈ f'.waits, f.Has wt.manager)
    (subscribers : ∀ m, f'.subscribers m = f.subscribers m)
    (steps : f.Ready L → ∀ m, f.Has m → Steps L m (f.view m) (f'.view m)) : Leads L f f' := by
  refine ⟨fun ready => ⟨⟨fun r known => ?_, fun wt mem => ?_, fun m there => ?_⟩,
    fun b calm => ?_⟩, fun _ => has, steps, fun _ => subscribers⟩
  · rcases knows ready r known with known | begun
    · exact (ready.known r known).steps (steps ready r.manager)
    · exact begun
  · exact (has _).mpr (waits ready wt mem)
  · have before := (has m).mp there
    exact (steps ready m before).unlaunched (ready.unlaunched m before)
  · have before := ready.named b calm
    unfold panicOf? at before ⊢
    rw [armed]
    exact before

theorem Steady.leads (h : Steady f f')
    (steps : f.Ready L → ∀ m, f.Has m → Steps L m (f.view m) (f'.view m)) : Leads L f f' := by
  refine .of_steps (fun _ r known => Or.inl (h.knows r known)) h.armed h.has
    (fun ready wt mem => ?_) h.subscribers steps
  obtain ⟨wt₀, mem₀, eq⟩ := h.waits wt mem
  rw [← eq]
  exact ready.owned wt₀ mem₀

/-- A change that concerns no manager. -/
theorem Steady.leads_of_view (h : Steady f f') (same : ∀ m, f'.view m = f.view m) :
    Leads L f f' :=
  h.leads fun _ m _ => by
    rw [same]

theorem Sound.ready (sound : f.Sound)
    (panics : ∀ b, f.panicOf? b .name ≠ none → L.panics b) : f.Ready L :=
  ⟨sound, fun b calm => Classical.byContradiction fun panicked => calm (panics b panicked)⟩

theorem Ready.panics_of {b : Nat} {text : String} (ready : f.Ready L)
    (panicked : f.panicOf? b .name = some text) : L.panics b := by
  apply Classical.byContradiction
  intro calm
  rw [ready.named b calm] at panicked
  cases panicked

theorem Ready.unbound (ready : f.Ready L) : f.Ready L.unbound := ⟨ready.toSound, ready.named⟩

theorem Leads.of_rest (h : Leads L.rest f f') : Leads L f f' := by
  have le : L.rest.Le L :=
    ⟨fun _ => id, False.elim, fun _ => id, fun _ => id, fun _ => id, fun _ _ => id⟩
  have onto : ∀ {g : Fleet}, g.Ready L → g.Ready L.rest := fun ready =>
    ⟨ready.toSound, ready.named⟩
  have back : ∀ {g : Fleet}, g.Ready L.rest → g.Ready L := fun ready =>
    ⟨ready.toSound, ready.named⟩
  exact ⟨fun ready => back (h.ready (onto ready)), fun ready => h.has (onto ready),
    fun ready m has => (h.steps (onto ready) m has).mono le,
    fun ready => h.subscribers (onto ready)⟩

/-! ## Changes after which a fleet is as ready as before -/

theorem subscribers_modifyManager {g : Manager → Manager}
    (same : (g (f.manager m)).subscribers = f.subscribers m) (m' : Nat) :
    (f.modifyManager m g).subscribers m' = f.subscribers m' := by
  unfold subscribers at same ⊢
  by_cases eq : m = m'
  · subst eq
    by_cases has : f.Has m
    · rw [manager_modifyManager_self has, same]
    · have out : (f.modifyManager m g).managers = f.managers :=
        List.modify_eq_self (Nat.le_of_not_lt has)
      rw [manager, out, ← manager]
  · rw [manager_modifyManager_ne eq]

theorem steady_modifyManager (f : Fleet) (m : Nat) (g : Manager → Manager)
    (same : (g (f.manager m)).subscribers = f.subscribers m) :
    Steady f (f.modifyManager m g) :=
  .of_managers rfl rfl (List.length_modify _ _ _) (subscribers_modifyManager same)

theorem steady_wake (f : Fleet) (t : Task) : Steady f (f.wake t) := .of_eq rfl rfl rfl

theorem steady_wakeAll (f : Fleet) (ts : List Task) : Steady f (f.wakeAll ts) :=
  .of_eq rfl rfl rfl

theorem steady_park (f : Fleet) : Steady f f.park := .of_eq rfl rfl rfl

theorem steady_say (f : Fleet) (level : Level) (message : String)
    (fields : List (String × FieldValue)) (span : Option Span) :
    Steady f (f.say level message fields span) := .of_eq rfl rfl rfl

theorem steady_note (f : Fleet) (n : Note) : Steady f (f.note n) := .of_eq rfl rfl rfl

theorem steady_wakeListener (f : Fleet) (m : Nat) : Steady f (f.wakeListener m) := by
  unfold wakeListener
  split
  · have reads := steady_modifyManager f m
      (fun mgr => mgr.modifyRelay fun r => { r with listening := .reading })
      (Manager.subscribers_modifyRelay fun _ _ => rfl)
    exact reads.trans (steady_wake _ _)
  · exact .refl f

theorem steady_publish (f : Fleet) (m : Nat) (e : Event) : Steady f (f.publish m e) :=
  (steady_modifyManager f m _ (by rfl)).trans (steady_wakeListener _ m)

theorem steady_setStage (f : Fleet) (r : RunName) (stage : Stage) :
    Steady f (f.setStage r stage) := steady_modifyManager f _ _ (by rfl)

theorem steady_releaseSlot (f : Fleet) (m : Nat) : Steady f (f.releaseSlot m) := by
  unfold releaseSlot
  cases (f.manager m).slots with
  | none => exact .refl f
  | some p =>
      dsimp only
      rcases p.release with ⟨p, _ | id⟩
      · exact steady_modifyManager f m _ (by rfl)
      · exact ((steady_modifyManager f m _ (by rfl)).trans (steady_setStage _ _ _)).trans
          (steady_wake _ _)

theorem steady_terminateIfEmpty (f : Fleet) (m : Nat) (span : Option Span) :
    Steady f (f.terminateIfEmpty m span) := by
  unfold terminateIfEmpty
  dsimp only
  split
  · exact ((steady_modifyManager f m _ (by rfl)).trans (steady_publish _ m _)).trans
      (steady_say _ _ _ _ _)
  · exact .refl f

theorem steady_endTask (f : Fleet) (r : RunName) : Steady f (f.endTask r) := by
  unfold endTask
  dsimp only
  split
  · exact ((steady_setStage f r _).trans (steady_wakeAll _ _)).trans (steady_park _)
  · exact (steady_setStage f r _).trans (steady_park _)

theorem steady_sayOutcome (f : Fleet) (id : Nat) (name : String) (outcome : RunOutcome) :
    Steady f (f.sayOutcome id name outcome) := by
  cases outcome <;> exact steady_say _ _ _ _ _

theorem steady_unregister (f : Fleet) (r : RunName) (name : String) :
    Steady f (f.unregister r name) := by
  unfold unregister
  split
  · exact ((steady_modifyManager f _ _ (by rfl)).trans (steady_publish _ _ _)).trans
      (steady_terminateIfEmpty _ _ _)
  · exact steady_say _ _ _ _ _

theorem steady_complete (f : Fleet) (r : RunName) (outcome : RunOutcome) :
    Steady f (f.complete r outcome) := by
  unfold complete
  split
  · exact steady_endTask f r
  · exact (((steady_sayOutcome f _ _ _).trans (steady_publish _ _ _)).trans
      (steady_unregister _ r _)).trans (steady_endTask _ r)

theorem steady_modifyBot (f : Fleet) (b : Nat) {g : Bot → Bot}
    (keeps : Bot.Keeps (f.bot b) (g (f.bot b))) : Steady f (f.modifyBot b g) := by
  have kept : ∀ b', Bot.Keeps (f.bot b') ((f.modifyBot b g).bot b') := by
    intro b'
    rw [bot_modifyBot]
    split
    · rename_i inside
      rw [← inside.1]
      exact keeps
    · exact .of_eq rfl rfl rfl rfl
  refine ⟨?_, fun b' => (kept b').armed, fun m => Iff.rfl, fun wt mem => ⟨wt, mem, rfl⟩,
    fun _ => rfl⟩
  rintro r ⟨b', waiting | watching⟩
  · exact ⟨b', Or.inl ((kept b').waiting r waiting)⟩
  · exact ⟨b', Or.inr ((kept b').watchers r watching)⟩

theorem steady_dismiss (f : Fleet) (b : Nat) : Steady f (f.dismiss b) := by
  unfold dismiss
  dsimp only
  split <;> exact .of_eq rfl rfl rfl

/-! ## Small changes that are steps -/

theorem leads_modifyBot (L : Licence) (f : Fleet) (b : Nat) {g : Bot → Bot}
    (keeps : Bot.Keeps (f.bot b) (g (f.bot b))) : Leads L f (f.modifyBot b g) :=
  (steady_modifyBot f b keeps).leads_of_view fun _ => view_modifyBot b g keeps.plan

theorem leads_say (L : Licence) (f : Fleet) (level : Level) (message : String)
    (fields : List (String × FieldValue)) (span : Option Span) :
    Leads L f (f.say level message fields span) :=
  (steady_say f _ _ _ _).leads_of_view fun _ => rfl

theorem leads_dismiss (L : Licence) (f : Fleet) (b : Nat) : Leads L f (f.dismiss b) :=
  (steady_dismiss f b).leads_of_view fun _ => view_dismiss b

/-- Publishing on a manager's bus is a step of that manager, and of no other. -/
theorem leads_publish {e : Event}
    (step : f.Ready L → f.Has m → Step L m (f.view m) ((f.view m).publish e)) :
    Leads L f (f.publish m e) := by
  refine (steady_publish f m e).leads fun ready m' has => ?_
  by_cases eq : m = m'
  · subst eq
    rw [view_publish has]
    exact .single (step ready has)
  · rw [view_publish_ne eq]

theorem leads_publishAll (L : Licence) (f : Fleet) (m : Nat) (es : List Event)
    (aside : ∀ e ∈ es, e.IsAside) : Leads L f (f.publishAll m es) := by
  induction es generalizing f with
  | nil => exact .refl L f
  | cons e es ih =>
      have first : Leads L f (f.publish m e) :=
        leads_publish fun _ _ => .tell (aside e List.mem_cons_self)
      exact first.trans (ih _ fun e' mem => aside e' (List.mem_cons_of_mem e mem))

theorem leads_wake_aside {t : Task} (L : Licence) (f : Fleet)
    (away : ∀ m, t.concerns m = false) : Leads L f (f.wake t) :=
  (steady_wake f t).leads_of_view fun m => view_wake_of_not_concerns (away m)

theorem leads_wake_wait (L : Licence) (f : Fleet) (w : Nat) : Leads L f (f.wake (.wait w)) :=
  (steady_wake f _).leads fun _ m _ => by
    rw [view_wake_of_concerns rfl]
    exact .single (.nudgeWait w)

theorem wakeAll_cons (f : Fleet) (t : Task) (ts : List Task) :
    f.wakeAll (t :: ts) = (f.wake t).wakeAll ts := rfl

theorem leads_wakeAll {ts : List Task} (each : ∀ g, ∀ t ∈ ts, Leads L f g → Leads L g (g.wake t)) :
    Leads L f (f.wakeAll ts) := by
  have all : ∀ us : List Task, (∀ t ∈ us, t ∈ ts) → ∀ g, Leads L f g →
      Leads L g (g.wakeAll us) := by
    intro us
    induction us with
    | nil => exact fun _ g _ => .refl L g
    | cons u us ih =>
        intro sub g reached
        have first := each g u (sub u List.mem_cons_self) reached
        exact first.trans
          (ih (fun t mem => sub t (List.mem_cons_of_mem u mem)) _ (reached.trans first))
  exact all ts (fun _ h => h) f (.refl L f)

theorem leads_wakeAll_wait (L : Licence) (f : Fleet) (ws : List Nat) :
    Leads L f (f.wakeAll (ws.map Task.wait)) := by
  refine leads_wakeAll fun g t mem _ => ?_
  obtain ⟨w, -, rfl⟩ := List.mem_map.mp mem
  exact leads_wake_wait L g w

end Fleet

end Flotilla
