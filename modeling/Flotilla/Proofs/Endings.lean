import Flotilla.Proofs.Alike
import Flotilla.Proofs.Registrations
import Flotilla.Proofs.Stations

/-!
# Bots that end otherwise

Two fleets in which bots differ in nothing but how their runs end (`BotPlan.EndsOtherwise`) do the
same move by move: an error, a panic within the work and a normal return free the slot, leave the
registry and wake the same tasks. The fleets stay alike (`Fleet.Alike`): everything is the same
but for the events and log lines that tell how a run ended, and these stand at the same places and
name the same launch (`Own`).
-/

namespace Flotilla

/-- Two plans of a bot that differ in nothing but how its runs end. Both or neither end by a panic
before the work begins. -/
structure BotPlan.EndsOtherwise (p q : BotPlan) : Prop where
  plan : q.plan = p.plan
  eager : q.build.panicsEagerly = p.build.panicsEagerly

/-- Two outcomes of the launch with an id, each as the bot launched was planned to end. -/
inductive Own (plans plans' : List BotPlan) (launched : List Nat) :
    Nat → String → RunOutcome → RunOutcome → Prop
  | intro {id b : Nat} {p q : BotPlan} (launch : launched[id]? = some b)
    (here : plans[b]? = some p) (there : plans'[b]? = some q) :
    Own plans plans' launched id p.plan.name (.ofEnding p.ending) (.ofEnding q.ending)

/-- The log line about an outcome. -/
def Fleet.outcomeLine (id : Nat) (name : String) : RunOutcome → LogLine
  | .finished =>
    { level := .debug, message := "bot finished", fields := botFields id name }
  | .notStarted =>
    { level := .debug
      message := "pool closed before bot started; not running it"
      fields := botFields id name }
  | .failed e =>
    { level := .error
      message := "bot exited with error"
      fields := botFields id name ++ [("error", .text e.message), ("kind", .text e.label)] }

theorem Fleet.sayOutcome_eq (f : Fleet) (id : Nat) (name : String) (o : RunOutcome) :
    f.sayOutcome id name o = { f with logs := f.logs.push (outcomeLine id name o) } := by
  cases o <;> rfl

section Told

variable {own own' : Nat → String → RunOutcome → RunOutcome → Prop}

/-- Two events that are the same, but each may tell the outcome that is its own. -/
inductive Event.Alike (own : Nat → String → RunOutcome → RunOutcome → Prop) :
    Event → Event → Prop
  | same (e : Event) : Alike own e e
  | outcome {id : Nat} {name : String} {o o' : RunOutcome} (each : own id name o o') (seq : Nat) :
    Alike own ((Fleet.outcomeEvent id name o).withSeq seq)
      ((Fleet.outcomeEvent id name o').withSeq seq)

/-- Two log lines that are the same, but each may tell the outcome that is its own. -/
inductive LogLine.Alike (own : Nat → String → RunOutcome → RunOutcome → Prop) :
    LogLine → LogLine → Prop
  | same (line : LogLine) : Alike own line line
  | outcome {id : Nat} {name : String} {o o' : RunOutcome} (each : own id name o o') :
    Alike own (Fleet.outcomeLine id name o) (Fleet.outcomeLine id name o')

theorem Event.Alike.imp {e e' : Event} (alike : e.Alike own e')
    (imp : ∀ id name o o', own id name o o' → own' id name o o') : e.Alike own' e' := by
  cases alike with
  | same => exact .same e
  | outcome each seq => exact .outcome (imp _ _ _ _ each) seq

theorem LogLine.Alike.imp {l l' : LogLine} (alike : l.Alike own l')
    (imp : ∀ id name o o', own id name o o' → own' id name o o') : l.Alike own' l' := by
  cases alike with
  | same => exact .same l
  | outcome each => exact .outcome (imp _ _ _ _ each)

theorem Event.outcomeEvent_ne_overflow (id : Nat) (name : String) (o : RunOutcome) :
    (Fleet.outcomeEvent id name o).kind ≠ .subscriberOverflow := by
  cases o <;> nofun

theorem Event.withSeq_zero {e : Event} (unnumbered : e.seq = 0) : e.withSeq 0 = e := by
  rw [← unnumbered]
  rfl

/-- Nobody who passes an outcome on takes notice of it. -/
theorem Event.likeness (own : Nat → String → RunOutcome → RunOutcome → Prop) :
    Event.Likeness (Event.Alike own) where
  refl := .same
  kind alike := by
    cases alike with
    | same => rfl
    | outcome each seq =>
        exact iff_of_false (outcomeEvent_ne_overflow _ _ _) (outcomeEvent_ne_overflow _ _ _)
  withSeq alike n := by
    cases alike with
    | same => exact .same _
    | outcome each seq => exact .outcome each n

end Told

variable {plans plans' : List BotPlan}

theorem Own.mono {launched launched' : List Nat} (longer : launched <+: launched') (id : Nat)
    (name : String) (o o' : RunOutcome) (own : Own plans plans' launched id name o o') :
    Own plans plans' launched' id name o o' := by
  obtain ⟨launch, here, there⟩ := own
  obtain ⟨inside, -⟩ := List.getElem?_eq_some_iff.mp launch
  refine .intro ?_ here there
  obtain ⟨more, rfl⟩ := longer
  rw [List.getElem?_append_left inside, launch]

/-! ## Managers -/

namespace Manager

/-- Two managers that are the same, but for the outcomes told. -/
structure Alike (plans plans' : List BotPlan) (x y : Manager) : Prop where
  rest : y = { x with bus := y.bus, observer := y.observer, relay := y.relay }
  bus : x.bus.Alike (Event.Alike (Own plans plans' x.bots)) y.bus
  observer : y.observer = x.observer
  relay : Option.Rel (Relay.Alike (Event.Alike (Own plans plans' x.bots))) x.relay y.relay

variable {x y : Manager}

theorem Alike.refl (x : Manager) : x.Alike plans plans' x := by
  refine ⟨rfl, .refl (Event.likeness _) x.bus, rfl, ?_⟩
  cases x.relay with
  | none => exact .none
  | some relay => exact .some (.refl (Event.likeness _) relay)

theorem Alike.apart (alike : x.Alike plans plans' y) {h : Manager → Manager} (apart : Apart h) :
    (h x).Alike plans plans' (h y) := by
  have longer (e e' : Event) (told : e.Alike (Own plans plans' x.bots) e') :
      e.Alike (Own plans plans' (h x).bots) e' := told.imp (Own.mono (apart.bots x))
  refine ⟨?_, ?_, ?_, ?_⟩
  · rw [apart.bus, apart.observer, apart.relay, ← apart.frame, ← alike.rest]
  · rw [apart.bus, apart.bus]
    exact alike.bus.imp longer
  · rw [apart.observer, apart.observer, alike.observer]
  · rw [apart.relay, apart.relay]
    simpa using rel_map (g := id) (h := id) alike.relay fun _ _ relay => relay.imp longer

theorem Alike.publish (alike : x.Alike plans plans' y) {e e' : Event}
    (told : e.Alike (Own plans plans' x.bots) e') :
    Alike plans plans' { x with bus := x.bus.publish e } { y with bus := y.bus.publish e' } := by
  refine ⟨?_, alike.bus.publish (Event.likeness _) told, alike.observer, alike.relay⟩
  rw [alike.rest]

theorem Alike.modifyRelay (alike : x.Alike plans plans' y) {h k : Relay → Relay}
    (changed : ∀ r s, r.Alike (Event.Alike (Own plans plans' x.bots)) s →
      (h r).Alike (Event.Alike (Own plans plans' x.bots)) (k s)) :
    (x.modifyRelay h).Alike plans plans' (y.modifyRelay k) := by
  refine ⟨?_, alike.bus, alike.observer, rel_map alike.relay changed⟩
  unfold Manager.modifyRelay
  rw [alike.rest]

theorem Alike.disown (alike : x.Alike plans plans' y) :
    Alike plans plans' { x with owned := false } { y with owned := false } :=
  { alike with rest := by rw [alike.rest] }

theorem Alike.listenerIsIdle (alike : x.Alike plans plans' y) :
    y.listenerIsIdle = x.listenerIsIdle := by
  have relay := alike.relay
  unfold Manager.listenerIsIdle
  generalize x.relay = r?, y.relay = s? at relay
  cases relay with
  | none => rfl
  | some relay => exact congrArg (· == .idle) relay.listening

theorem Alike.look (alike : x.Alike plans plans' y) :
    (Fleet.lookAt x).Alike plans plans' (Fleet.lookAt y) := by
  have looked := alike.modifyRelay (h := fun r => { r with fanout := r.fanout.look })
    (k := fun r => { r with fanout := r.fanout.look })
    fun _ _ relay => { relay with fanout := relay.fanout.look }
  refine ⟨?_, alike.bus, ?_, looked.relay⟩
  · unfold Fleet.lookAt
    rw [looked.rest]
  · show (y.bus.drain y.observer).2 = (x.bus.drain x.observer).2
    rw [alike.observer]
    exact (alike.bus.drain x.observer).2

end Manager

/-! ## Bots -/

/-- Two bots that are the same, but may end otherwise: then each ends as it was planned to. -/
structure Bot.Alike (p? q? : Option BotPlan) (x y : Bot) : Prop where
  rest : y = { x with ending := y.ending }
  eager : y.panicsEagerly = x.panicsEagerly
  ending : y.ending = x.ending ∨ ∃ p q, p? = some p ∧ q? = some q ∧ x.plan = p.plan ∧
    x.ending = p.ending ∧ y.ending = q.ending

namespace Bot

variable {p? q? : Option BotPlan} {x y : Bot}

theorem Alike.refl (x : Bot) : x.Alike p? q? x := ⟨rfl, rfl, Or.inl rfl⟩

theorem panicsEagerly_congr (plan : y.plan = x.plan) (ending : y.ending = x.ending) :
    y.panicsEagerly = x.panicsEagerly := by
  rw [panicsEagerly, plan, ending]
  rfl

theorem Alike.apart (alike : x.Alike p? q? y) {h : Bot → Bot} (apart : Apart h) :
    (h x).Alike p? q? (h y) := by
  have eager (z : Bot) : (h z).panicsEagerly = z.panicsEagerly :=
    panicsEagerly_congr (apart.plan z) (apart.ending z)
  refine ⟨?_, ?_, ?_⟩
  · rw [apart.ending, ← apart.frame, ← alike.rest]
  · rw [eager, eager, alike.eager]
  · rw [apart.ending, apart.ending, apart.plan]
    exact alike.ending

theorem Alike.setEnding (alike : x.Alike p? q? y) (ending : Ending) :
    Alike p? q? { x with ending } { y with ending } := by
  have same : { y with ending } = { x with ending } := by rw [alike.rest]
  rw [same]
  exact .refl _

theorem Alike.tally (alike : x.Alike p? q? y) : Fleet.tally y = Fleet.tally x := by
  rw [alike.rest]
  rfl

end Bot

/-! ## Fleets -/

namespace Fleet

/-- The outcomes that two fleets may tell of launches, whichever the manager. -/
def Owns (plans plans' : List BotPlan) (f : Fleet) (id : Nat) (name : String)
    (o o' : RunOutcome) : Prop :=
  ∃ m, Own plans plans' (f.manager m).bots id name o o'

/-- Two fleets that are the same, but for how bots end and the outcomes told. -/
structure Alike (plans plans' : List BotPlan) (f g : Fleet) : Prop where
  managers : ∀ m, (f.manager m).Alike plans plans' (g.manager m)
  count : g.managers.length = f.managers.length
  bots : ∀ b, (f.bot b).Alike plans[b]? plans'[b]? (g.bot b)
  number : g.bots.length = f.bots.length
  waits : g.waits = f.waits
  timers : g.timers = f.timers
  dismissal : g.dismissal = f.dismissal
  clock : g.clock = f.clock
  tasks : g.tasks = f.tasks
  logs : List.Forall₂ (LogLine.Alike (f.Owns plans plans')) f.logs.toList g.logs.toList
  notes : g.notes = f.notes

variable {f g : Fleet} {m : Nat}

namespace Alike

variable (alike : f.Alike plans plans' g)

include alike

/-- Whoever goes by neither the bus nor the endings cannot tell two alike fleets apart. -/
theorem agrees : f.Agrees g :=
  .of_managers (fun m => (alike.managers m).rest) alike.count (fun b => (alike.bots b).rest)
    (fun b => (alike.bots b).eager) alike.dismissal alike.waits alike.timers alike.clock

theorem modifyManager {h k : Manager → Manager} (launches : ∀ x, x.bots <+: (h x).bots)
    (changed : (h (f.manager m)).Alike plans plans' (k (g.manager m))) :
    (f.modifyManager m h).Alike plans plans' (g.modifyManager m k) := by
  refine { alike with managers := fun m' => ?_, count := ?_, logs := ?_ }
  · rcases modifyManager_cases alike.count m m' h k with ⟨same, same'⟩ | ⟨rfl, new, new'⟩
    · rw [same, same']
      exact alike.managers m'
    · rw [new, new']
      exact changed
  · simp [Fleet.modifyManager, alike.count]
  · refine alike.logs.imp fun l l' told => told.imp fun id name o o' own => ?_
    obtain ⟨m', own⟩ := own
    exact ⟨m', own.mono (prefix_bots_modifyManager launches f m m') id name o o'⟩

theorem modifyRelay {h k : Relay → Relay}
    (changed : ∀ r s, r.Alike (Event.Alike (Own plans plans' (f.manager m).bots)) s →
      (h r).Alike (Event.Alike (Own plans plans' (f.manager m).bots)) (k s)) :
    (f.modifyRelay m h).Alike plans plans' (g.modifyRelay m k) :=
  alike.modifyManager (fun _ => List.prefix_rfl) ((alike.managers m).modifyRelay changed)

theorem modifyBot {h k : Bot → Bot} {b : Nat}
    (changed : (h (f.bot b)).Alike plans[b]? plans'[b]? (k (g.bot b))) :
    (f.modifyBot b h).Alike plans plans' (g.modifyBot b k) := by
  refine { alike with bots := fun b' => ?_, number := ?_ }
  · rcases modifyBot_cases alike.number b b' h k with ⟨same, same'⟩ | ⟨rfl, new, new'⟩
    · rw [same, same']
      exact alike.bots b'
    · rw [new, new']
      exact changed
  · simp [Fleet.modifyBot, alike.number]

theorem modifyWait (w : Nat) (h : Wait → Wait) :
    (f.modifyWait w h).Alike plans plans' (g.modifyWait w h) :=
  { alike with waits := congrArg (·.modify w h) alike.waits }

theorem wake (t : Task) : (f.wake t).Alike plans plans' (g.wake t) :=
  { alike with tasks := congrArg (·.wake t) alike.tasks }

theorem wakeAll (ts : List Task) : (f.wakeAll ts).Alike plans plans' (g.wakeAll ts) :=
  { alike with tasks := congrArg (·.wakeAll ts) alike.tasks }

theorem park : f.park.Alike plans plans' g.park :=
  { alike with tasks := congrArg Scheduler.park alike.tasks }

theorem log {l l' : LogLine} (told : l.Alike (f.Owns plans plans') l') :
    Alike plans plans' { f with logs := f.logs.push l } { g with logs := g.logs.push l' } :=
  { alike with logs := forall₂_push alike.logs told }

theorem wakeListener (m : Nat) : (f.wakeListener m).Alike plans plans' (g.wakeListener m) := by
  unfold Fleet.wakeListener
  rw [(alike.managers m).listenerIsIdle]
  split
  · exact (alike.modifyRelay (h := fun r => { r with listening := .reading })
      (k := fun r => { r with listening := .reading })
      fun _ _ relay => { relay with listening := rfl }).wake _
  · exact alike

theorem publish {e e' : Event} (told : e.Alike (Own plans plans' (f.manager m).bots) e') :
    (f.publish m e).Alike plans plans' (g.publish m e') :=
  (alike.modifyManager (h := fun x => { x with bus := x.bus.publish e })
    (k := fun x => { x with bus := x.bus.publish e' }) (fun _ => List.prefix_rfl)
    ((alike.managers m).publish told)).wakeListener m

theorem publishAll (m : Nat) (es : List Event) :
    (f.publishAll m es).Alike plans plans' (g.publishAll m es) := by
  induction es generalizing f g with
  | nil => exact alike
  | cons e es ih => exact ih (alike.publish (.same e))

/-- The outcome of a launch is told on both sides, on each as its bot ended. -/
theorem outcome {id b : Nat} {name : String} (launch : (f.manager m).bots[id]? = some b)
    (named : f.askName b = .ok name) :
    ((f.sayOutcome id name (.ofEnding (f.bot b).ending)).publish m
      (outcomeEvent id name (.ofEnding (f.bot b).ending))).Alike plans plans'
    ((g.sayOutcome id name (.ofEnding (g.bot b).ending)).publish m
      (outcomeEvent id name (.ofEnding (g.bot b).ending))) := by
  simp only [sayOutcome_eq]
  rcases (alike.bots b).ending with same | ⟨p, q, here, there, plan, ends, ends'⟩
  · rw [same]
    exact (alike.log (.same _)).publish (.same _)
  · -- The bot still ends as it was planned to, in both fleets.
    have name : name = p.plan.name :=
      (panicOf?_of_askName (m := m) named).2.trans (congrArg Plan.name plan)
    have own := Own.intro launch here there
    rw [ends, ends', name]
    refine (alike.log (.outcome ⟨m, own⟩)).publish ?_
    have told := Event.Alike.outcome own 0
    rwa [Event.withSeq_zero (unnumbered_outcomeEvent _ _ _),
      Event.withSeq_zero (unnumbered_outcomeEvent _ _ _)] at told

theorem apart {h : Manager → Manager} (apart : Manager.Apart h) (m : Nat) :
    (f.modifyManager m h).Alike plans plans' (g.modifyManager m h) :=
  alike.modifyManager apart.bots ((alike.managers m).apart apart)

end Alike

/-- Fleets that are alike stay so whatever call is made. -/
theorem Lockstep.alike (plans plans' : List BotPlan) : Lockstep (Fleet.Alike plans plans') where
  accords alike := alike.agrees.toAccords
  slotWaiters alike m := alike.agrees.slotWaiters m
  manager alike plain m := alike.apart plain.toApart m
  bot alike apart b := alike.modifyBot ((alike.bots b).apart apart)
  ending alike b ending := alike.modifyBot ((alike.bots b).setEnding ending)
  dismissal alike _ := { alike with dismissal := rfl }
  wake alike _ := alike.wake _
  say alike _ _ _ _ _ := alike.log (.same _)
  publish alike _ _ := alike.publish (.same _)

theorem WaitsInStep.alike (plans plans' : List BotPlan) :
    WaitsInStep (Fleet.Alike plans plans') where
  toLockstep := .alike plans plans'
  number alike := congrArg List.length alike.waits
  spawn alike _ _ := { alike with waits := congrArg (· ++ _) alike.waits }
  dropTimer alike w := { alike with timers := congrArg (·.filter fun t => t.wait != w) alike.timers }
  addTimer alike t := { alike with timers := congrArg (· ++ [t]) alike.timers }
  clock alike _ := { alike with clock := rfl }
  leave alike m := by
    rw [alike.agrees.isHeld]
    split
    · exact alike
    · exact alike.wakeListener m

/-- They stay so whatever the owner does that does not concern the bus and its readers. -/
theorem MovesInStep.alike (plans plans' : List BotPlan) :
    MovesInStep (Fleet.Alike plans plans') where
  toWaitsInStep := .alike plans plans'
  agrees := Alike.agrees
  marks _ :=
    { WaitsInStep.alike plans plans' with modifyWait := fun alike _ _ => alike.modifyWait _ _ }
  disown alike _ := alike.modifyManager (fun _ => List.prefix_rfl) (alike.managers _).disown

/-- They stay so in every turn of a launched bot or a waiter. -/
theorem TurnsInStep.alike (plans plans' : List BotPlan) :
    TurnsInStep (Fleet.Alike plans plans') where
  toMovesInStep := .alike plans plans'
  park alike := alike.park
  note alike n := { alike with notes := congrArg (·.push n) alike.notes }
  setSlots alike m slots := alike.apart (Manager.apart_slots slots) m
  releaseSlot alike m :=
    (Lockstep.alike plans plans').releaseSlot_of_slots alike (alike.agrees.slots m) fun slots =>
      alike.apart (Manager.apart_slots slots) m
  leaveSlotLine alike r := leaveSlotLine_of_slots (alike.agrees.slots _) fun slots =>
    alike.apart (Manager.apart_slots slots) r.manager
  tellDrained alike m := by
    rw [alike.agrees.drainWaiters]
    exact alike.wakeAll _
  outcome alike launch named := alike.outcome launch named
  stray alike _ := alike.log (.same _)

end Fleet

end Flotilla
