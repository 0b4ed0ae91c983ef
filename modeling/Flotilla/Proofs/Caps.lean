import Flotilla.Proofs.Alike
import Flotilla.Proofs.Lockstep.Moves

/-!
# Two fleets of which one has a cap

Two fleets that are the same but for the cap on the bots of one manager that run at once: there is
none in the first, and in the second nobody waits because of it (`Fleet.Capped`). They stay so move
by move as long as a slot is free whenever one is sought (`Fleet.Capped.move`), for all else that
is done with slots is done out of sight. Only who asks for the settings is told them as they are.
-/

namespace Flotilla

/-- Two answers that are the same, but each may tell the cap there is. -/
inductive Reply.Capped (cap : Nat) : Reply → Reply → Prop
  | same (r : Reply) : Capped cap r r
  | capacities (bus : Nat) : Capped cap (.capacities 0 bus) (.capacities cap bus)

/-- Two notes that are the same, but for the caps told. -/
inductive Note.Capped (cap : Nat) : Note → Note → Prop
  | same (n : Note) : Capped cap n n
  | called (bot : Nat) {r r' : Reply} (told : r.Capped cap r') :
    Capped cap (.called bot r) (.called bot r')

/-- Two managers that are the same but for a cap, because of which nobody waits. -/
structure Manager.Capped (cap : Nat) (x y : Manager) : Prop where
  rest : y = { x with
    settings := { x.settings with maxConcurrent := cap }
    slots := y.slots }
  uncapped : x.settings.maxConcurrent = 0
  unlimited : x.slots = none
  idle : ∃ p, y.slots = some p ∧ p.waiting = []

namespace Manager.Capped

variable {cap : Nat} {x y : Manager}

theorem modify (capped : x.Capped cap y) {h : Manager → Manager}
    (pool : ∀ (x : Manager) settings slots,
      h { x with settings, slots } = { h x with settings, slots }) : (h x).Capped cap (h y) := by
  have settings (z : Manager) : (h z).settings = z.settings :=
    (congrArg Manager.settings (pool z z.settings z.slots) :)
  have slots (z : Manager) : (h z).slots = z.slots :=
    (congrArg Manager.slots (pool z z.settings z.slots) :)
  refine ⟨?_, ?_, ?_, ?_⟩
  · rw [settings, slots, ← pool, ← capped.rest]
  · rw [settings, capped.uncapped]
  · rw [slots, capped.unlimited]
  · rw [slots]
    exact capped.idle

theorem setSlots (capped : x.Capped cap y) {p : Permits Nat} (idle : p.waiting = []) :
    x.Capped cap { y with slots := some p } :=
  { capped with
    rest := by rw [capped.rest]
    idle := ⟨p, rfl, idle⟩ }

theorem slotWaiters (capped : x.Capped cap y) : y.slotWaiters = x.slotWaiters := by
  obtain ⟨p, slots, idle⟩ := capped.idle
  unfold Manager.slotWaiters
  rw [slots, capped.unlimited]
  exact idle

end Manager.Capped

namespace Fleet

/-- Two fleets that are the same but for a cap of one manager, because of which nobody waits. -/
structure Capped (m₀ cap : Nat) (f g : Fleet) : Prop where
  here : (f.manager m₀).Capped cap (g.manager m₀)
  others : ∀ m, m ≠ m₀ → g.manager m = f.manager m
  count : g.managers.length = f.managers.length
  bots : g.bots = f.bots
  waits : g.waits = f.waits
  timers : g.timers = f.timers
  dismissal : g.dismissal = f.dismissal
  clock : g.clock = f.clock
  tasks : g.tasks = f.tasks
  logs : g.logs = f.logs
  notes : List.Forall₂ (Note.Capped cap) f.notes.toList g.notes.toList

variable {m₀ cap : Nat} {f g : Fleet} {m : Nat}

namespace Capped

variable (capped : f.Capped m₀ cap g)

include capped

/-! ## What is the same -/

theorem manager_cases (m : Nat) :
    m = m₀ ∧ (f.manager m).Capped cap (g.manager m) ∨ m ≠ m₀ ∧ g.manager m = f.manager m := by
  by_cases here : m = m₀
  · exact Or.inl ⟨here, here ▸ capped.here⟩
  · exact Or.inr ⟨here, capped.others m here⟩

/-- Whatever of a manager has nothing to do with settings and slots is the same. -/
theorem part {α : Type} (part : Manager → α)
    (apart : ∀ (x : Manager) settings slots, part { x with settings, slots } = part x) (m : Nat) :
    part (g.manager m) = part (f.manager m) := by
  rcases capped.manager_cases m with ⟨-, here⟩ | ⟨-, same⟩
  · rw [here.rest, apart]
  · rw [same]

theorem bot (b : Nat) : g.bot b = f.bot b := by
  rw [Fleet.bot, capped.bots]
  rfl

theorem wait (w : Nat) : g.wait w = f.wait w := by
  rw [Fleet.wait, capped.waits]
  rfl

theorem relay (m : Nat) : (g.manager m).relay = (f.manager m).relay :=
  capped.part Manager.relay (fun _ _ _ => rfl) m

theorem bus (m : Nat) : (g.manager m).bus = (f.manager m).bus :=
  capped.part Manager.bus (fun _ _ _ => rfl) m

theorem accords : f.Accords g where
  managers m := by
    rcases capped.manager_cases m with ⟨-, here⟩ | ⟨-, same⟩
    · rw [here.rest]
    · rw [same]
  poll m := by
    rcases capped.manager_cases m with ⟨-, here⟩ | ⟨-, same⟩
    · rw [here.rest]
      rfl
    · rw [same]
  count := capped.count
  bots b := by rw [capped.bot]
  eager b := by rw [capped.bot]
  dismissal := capped.dismissal

theorem isHeld (m : Nat) : g.isHeld m = f.isHeld m := by
  rw [Fleet.isHeld, capped.accords.isOwned, capped.waits]
  rfl

theorem slotWaiters (m : Nat) : (g.manager m).slotWaiters = (f.manager m).slotWaiters := by
  rcases capped.manager_cases m with ⟨-, here⟩ | ⟨-, same⟩
  · exact here.slotWaiters
  · rw [same]

theorem drainWaiters (m : Nat) : g.drainWaiters m = f.drainWaiters m := by
  unfold Fleet.drainWaiters
  simp only [capped.timers, capped.wait]

/-! ## Small changes -/

theorem modifyManager {h k : Manager → Manager} {m : Nat}
    (here : m = m₀ → (h (f.manager m)).Capped cap (k (g.manager m)))
    (others : m ≠ m₀ → k (f.manager m) = h (f.manager m)) :
    (f.modifyManager m h).Capped m₀ cap (g.modifyManager m k) := by
  have changed (m' : Nat) := modifyManager_cases capped.count m m' h k
  refine { capped with here := ?_, others := fun m' ne => ?_, count := ?_ }
  · rcases changed m₀ with ⟨same, same'⟩ | ⟨rfl, new, new'⟩
    · rw [same, same']
      exact capped.here
    · rw [new, new']
      exact here rfl
  · rcases changed m' with ⟨same, same'⟩ | ⟨rfl, new, new'⟩
    · rw [same, same', capped.others m' ne]
    · rw [new, new', capped.others m ne, others ne]
  · simp [Fleet.modifyManager, capped.count]

theorem modify {h : Manager → Manager} (pool : ∀ (x : Manager) settings slots,
    h { x with settings, slots } = { h x with settings, slots }) (m : Nat) :
    (f.modifyManager m h).Capped m₀ cap (g.modifyManager m h) :=
  capped.modifyManager (fun same => (same ▸ capped.here).modify pool) fun _ => rfl

theorem wake (t : Task) : (f.wake t).Capped m₀ cap (g.wake t) :=
  { capped with tasks := congrArg (·.wake t) capped.tasks }

theorem wakeAll (ts : List Task) : (f.wakeAll ts).Capped m₀ cap (g.wakeAll ts) :=
  { capped with tasks := congrArg (·.wakeAll ts) capped.tasks }

theorem park : f.park.Capped m₀ cap g.park :=
  { capped with tasks := congrArg Scheduler.park capped.tasks }

theorem log (line : LogLine) :
    Capped m₀ cap { f with logs := f.logs.push line } { g with logs := g.logs.push line } :=
  { capped with logs := congrArg (·.push line) capped.logs }

theorem note {n n' : Note} (told : n.Capped cap n') :
    (f.note n).Capped m₀ cap (g.note n') :=
  { capped with notes := forall₂_push capped.notes told }

theorem modifyRelay (m : Nat) (h : Relay → Relay) :
    (f.modifyRelay m h).Capped m₀ cap (g.modifyRelay m h) :=
  capped.modify (h := fun x => x.modifyRelay h) (fun _ _ _ => rfl) m

theorem wakeListener (m : Nat) : (f.wakeListener m).Capped m₀ cap (g.wakeListener m) := by
  unfold Fleet.wakeListener
  rw [capped.part Manager.listenerIsIdle fun _ _ _ => rfl]
  split
  · exact (capped.modifyRelay m fun r => { r with listening := .reading }).wake _
  · exact capped

theorem publish (m : Nat) (e : Event) : (f.publish m e).Capped m₀ cap (g.publish m e) :=
  (capped.modify (h := fun x => { x with bus := x.bus.publish e })
    (fun _ _ _ => rfl) m).wakeListener m

theorem publishAll (m : Nat) (es : List Event) :
    (f.publishAll m es).Capped m₀ cap (g.publishAll m es) := by
  induction es generalizing f g with
  | nil => exact capped
  | cons e es ih => exact ih (capped.publish m e)

/-! ## Slots -/

theorem setSlots_ne (ne : m ≠ m₀) (slots : Option (Permits Nat)) :
    (f.modifyManager m fun x => { x with slots }).Capped m₀ cap
      (g.modifyManager m fun x => { x with slots }) :=
  capped.modifyManager (fun same => absurd same ne) fun _ => rfl

/-- The second fleet has other slots. -/
theorem setSlots {p : Permits Nat} (idle : p.waiting = []) :
    f.Capped m₀ cap (g.modifyManager m₀ fun x => { x with slots := some p }) := by
  have same : f.modifyManager m₀ id = f := by
    unfold Fleet.modifyManager
    rw [List.modify_id]
  rw [← same]
  exact capped.modifyManager (fun _ => capped.here.setSlots idle) fun ne => absurd rfl ne

theorem releaseSlot_here : (f.releaseSlot m₀).Capped m₀ cap (g.releaseSlot m₀) := by
  obtain ⟨p, slots, idle⟩ := capped.here.idle
  have freed : p.release = ({ free := p.free + 1 }, none) := by
    unfold Permits.release
    split
    · rename_i waits
      cases idle.symm.trans waits
    · rfl
  unfold Fleet.releaseSlot
  rw [capped.here.unlimited, slots]
  dsimp only
  rw [freed]
  exact capped.setSlots rfl

theorem leaveSlotLine_here {r : RunName} :
    (f.leaveSlotLine r).Capped m₀ cap (g.leaveSlotLine r) := by
  refine capped.modifyManager (fun same => ?_) fun _ => rfl
  have here := same ▸ capped.here
  obtain ⟨p, slots, idle⟩ := here.idle
  refine ⟨?_, here.uncapped, ?_, ⟨p.leave r.id, ?_, ?_⟩⟩
  · rw [here.rest]
  · rw [here.unlimited]
    rfl
  · rw [slots]
    rfl
  · show p.waiting.erase r.id = []
    rw [idle]
    rfl

end Capped

/-! ## Calls, runs and waiters -/

/-- Whatever call is made keeps the cap out of sight. -/
theorem Lockstep.capped (m₀ cap : Nat) : Lockstep (Fleet.Capped m₀ cap) where
  accords capped := capped.accords
  slotWaiters capped m := capped.slotWaiters m
  manager capped plain m := capped.modify plain.pool m
  bot {_ _ h} capped _ b := { capped with bots := congrArg (·.modify b h) capped.bots }
  ending capped b ending :=
    { capped with bots := congrArg (·.modify b fun x => { x with ending }) capped.bots }
  dismissal capped _ := { capped with dismissal := rfl }
  wake capped _ := capped.wake _
  say capped _ _ _ _ _ := capped.log _
  publish capped _ m := capped.publish m _

theorem RunsInStep.capped (m₀ cap : Nat) : RunsInStep (Fleet.Capped m₀ cap) where
  toLockstep := .capped m₀ cap
  park capped := capped.park
  note capped n := capped.note (.same n)
  releaseSlot capped m := by
    by_cases here : m = m₀
    · subst here
      exact capped.releaseSlot_here
    · exact (Lockstep.capped m₀ cap).releaseSlot_of_slots capped (by rw [capped.others m here])
        fun slots => capped.setSlots_ne here slots
  leaveSlotLine capped _ := capped.leaveSlotLine_here
  tellDrained capped m := by
    rw [capped.drainWaiters]
    exact capped.wakeAll _
  outcome {f g m id b name} capped _ _ := by
    rw [capped.bot b]
    refine Fleet.Capped.publish ?_ m _
    unfold sayOutcome
    split <;> exact capped.log _
  stray capped _ := capped.log _

theorem WaitsInStep.capped (m₀ cap : Nat) : WaitsInStep (Fleet.Capped m₀ cap) where
  toLockstep := .capped m₀ cap
  number capped := congrArg List.length capped.waits
  spawn capped _ _ := { capped with waits := congrArg (· ++ _) capped.waits }
  dropTimer capped w :=
    { capped with timers := congrArg (·.filter fun t => t.wait != w) capped.timers }
  addTimer capped t := { capped with timers := congrArg (· ++ [t]) capped.timers }
  clock capped _ := { capped with clock := rfl }
  leave capped m := by
    rw [capped.isHeld]
    split
    · exact capped
    · exact capped.wakeListener m

theorem MarksInStep.capped (m₀ cap w : Nat) : MarksInStep (Fleet.Capped m₀ cap) w where
  toWaitsInStep := .capped m₀ cap
  modifyWait {_ _ h} capped _ _ := { capped with waits := congrArg (·.modify w h) capped.waits }

theorem WaiterInStep.capped (m₀ cap w : Nat) : WaiterInStep (Fleet.Capped m₀ cap) w :=
  { MarksInStep.capped m₀ cap w with
    park := fun capped => capped.park
    wait := fun capped => capped.wait w
    time := fun capped => capped.clock }

/-- Asking for the capacities changes nothing. -/
theorem perform_capacities (f : Fleet) (span : Option Span) (m : Nat) :
    f.perform span (.capacities m) = (f, if f.isHeld m then
      .capacities (f.manager m).settings.maxConcurrent (f.manager m).settings.busCapacity
      else .noManager) := by
  unfold Fleet.perform callee?
  cases held : f.isHeld m <;> simp [held]

namespace Capped

variable (capped : f.Capped m₀ cap g)

include capped

/-- Wherever a slot of the second fleet is free, it is taken there and nothing is done in the
first, and both runs go on. -/
theorem seekSlot {r : RunName} {b : Nat} (launched : f.Launched r b)
    (room : r.manager = m₀ → (f.manager m₀).closed = false →
      ∃ p, (g.manager m₀).slots = some p ∧ 0 < p.free) :
    (f.seekSlot r).Capped m₀ cap (g.seekSlot r) := by
  have lock := RunsInStep.capped m₀ cap
  by_cases here : r.manager = m₀
  · unfold Fleet.seekSlot
    dsimp only
    rw [capped.accords.closed, here, capped.here.unlimited]
    cases closed : (f.manager m₀).closed with
    | true => exact lock.complete_notStarted capped r
    | false =>
        obtain ⟨p, slots, pos⟩ := room here closed
        obtain ⟨taken, -, waiting⟩ := Permits.acquire_of_pos pos r.id
        obtain ⟨q, slots', idle⟩ := capped.here.idle
        cases slots.symm.trans slots'
        have seated := capped.setSlots (waiting.trans idle)
        rw [slots]
        dsimp only
        generalize p.acquire r.id = got at taken seated ⊢
        obtain ⟨p', took⟩ := got
        obtain rfl : took = true := taken
        exact lock.beginRun seated launched
  · exact lock.seekSlot_of_slots capped launched (by rw [capped.others _ here])
      fun slots => capped.setSlots_ne here slots

/-- A call has the same answer in both fleets, but for the cap told. -/
theorem perform (span : Option Span) (c : Call) :
    ∃ f' g' r r', f.perform span c = (f', r) ∧ g.perform span c = (g', r') ∧
      r.Capped cap r' ∧ f'.Capped m₀ cap g' := by
  by_cases asks : ∃ m, c = .capacities m
  · obtain ⟨m, rfl⟩ := asks
    have asked := perform_capacities
    refine ⟨f, g, _, _, asked f span m, asked g span m, ?_, capped⟩
    rw [capped.isHeld]
    cases f.isHeld m with
    | false => exact .same _
    | true =>
        rcases capped.manager_cases m with ⟨-, here⟩ | ⟨-, same⟩
        · simp only [if_true]
          rw [here.rest, here.uncapped]
          exact .capacities _
        · rw [same]
          exact .same _
  · obtain ⟨f', g', r, eq, eq', performed⟩ := (Lockstep.capped m₀ cap).perform capped span c
      (fun m _ => capped.isHeld m) fun m eq => absurd ⟨m, eq⟩ asks
    exact ⟨f', g', r, r, eq, eq', .same r, performed⟩

theorem stepBot (r : RunName)
    (room : r.manager = m₀ → (f.launch r).stage = .submitted → (f.manager m₀).closed = false →
      ∃ p, (g.manager m₀).slots = some p ∧ 0 < p.free) :
    (f.stepBot r).Capped m₀ cap (g.stepBot r) := by
  have lock := RunsInStep.capped m₀ cap
  refine lock.stepBot capped r (fun stage => ?_) fun c rest stage => ?_
  · exact capped.seekSlot (launched_of_stage (by rw [stage]; nofun)) fun here => room here stage
  · unfold Fleet.stepBot
    rw [capped.accords.launch, stage]
    dsimp only
    rw [capped.accords.spanOf]
    obtain ⟨f', g', reply, reply', eq, eq', told, performed⟩ := capped.perform (f.spanOf r) c
    rw [eq, eq']
    dsimp only
    rw [performed.accords.launch]
    exact lock.setStage (performed.note (.called _ told)) r _

/-! ## The bus and its readers -/

theorem deliver (m : Nat) (fanout : Fanout) (e : Event) :
    (f.deliver m fanout e).Capped m₀ cap (g.deliver m fanout e) :=
  ((capped.modifyRelay m fun r => { r with fanout := fanout.offer e }).wakeAll _).publishAll m _

theorem listenerRests (m : Nat) :
    (f.listenerRests m).Capped m₀ cap (g.listenerRests m) := by
  unfold Fleet.listenerRests
  rw [capped.isHeld]
  split
  · exact (capped.modifyRelay m _).park
  · exact capped.modifyRelay m _

theorem stepListener (m : Nat) : (f.stepListener m).Capped m₀ cap (g.stepListener m) := by
  unfold Fleet.stepListener
  rw [capped.relay, capped.bus]
  cases (f.manager m).relay with
  | none => exact capped.park
  | some relay =>
      dsimp only
      cases relay.listening with
      | reading =>
          dsimp only
          rcases (f.manager m).bus.read relay.reader with ⟨got, reader⟩
          have moved := capped.modifyRelay m fun r => { r with reader }
          cases got with
          | event e => exact moved.deliver m relay.fanout e
          | lagged n => exact moved.log _
          | nothing => exact moved.listenerRests m
      | closing c =>
          cases c with
          | begun => exact (capped.modifyRelay m _).wakeAll _
          | awaiting i => exact (capped.modifyRelay m _).park
          | finished => exact capped.park
      | idle => exact capped.park

theorem stepWorker (m i : Nat) : (f.stepWorker m i).Capped m₀ cap (g.stepWorker m i) := by
  unfold Fleet.stepWorker
  rw [capped.relay]
  cases (f.manager m).relay with
  | none => exact capped.park
  | some relay =>
      dsimp only
      rcases relay.fanout.work i with ⟨fanout, report, pace⟩
      have worked := (capped.modifyRelay m fun r => { r with fanout }).publishAll m report.toList
      cases pace with
      | again => exact worked
      | waits => exact worked.park
      | _ =>
          refine Fleet.Capped.park ?_
          unfold Fleet.workerGone
          split
          · exact worked.wake _
          · exact worked

/-! ## Moves -/

/-- The second fleet has a free slot for a launch whose first turn it is. -/
def HasRoom (m₀ : Nat) (f g : Fleet) : Prop :=
  ∀ id, f.tasks.running = some (.bot ⟨m₀, id⟩) → (f.launch ⟨m₀, id⟩).stage = .submitted →
    ∃ p, (g.manager m₀).slots = some p ∧ 0 < p.free

theorem stepTask (room : HasRoom m₀ f g) {t : Task} (turn : f.tasks.running = some t) :
    (f.stepTask t).Capped m₀ cap (g.stepTask t) := by
  cases t with
  | bot r =>
      refine capped.stepBot r fun here stage _ => ?_
      obtain ⟨m, id⟩ := r
      subst here
      exact room id turn stage
  | wait w => exact (WaiterInStep.capped m₀ cap w).stepWait capped
  | listener m => exact capped.stepListener m
  | worker m i => exact capped.stepWorker m i
  | dismissal => exact (RunsInStep.capped m₀ cap).stepDismissal capped

theorem step? (room : HasRoom m₀ f g) :
    Option.Rel (Fleet.Capped m₀ cap) f.step? g.step? := by
  unfold Fleet.step?
  rw [capped.tasks]
  cases turn : f.tasks.running with
  | some t => exact .some (capped.stepTask room turn)
  | none =>
      cases f.tasks.next? with
      | none => exact .none
      | some tasks => exact .some { capped with tasks := rfl }

theorem releaseSubscriber (m i times : Nat) :
    (f.releaseSubscriber m i times).Capped m₀ cap (g.releaseSubscriber m i times) := by
  unfold Fleet.releaseSubscriber
  rw [capped.relay]
  cases (f.manager m).relay with
  | none => exact capped
  | some relay =>
      have released := capped.modifyRelay m fun r => { r with fanout := r.fanout.release i times }
      dsimp only
      split
      · exact released.wake _
      · exact released

theorem look : (f.move .look).Capped m₀ cap (g.move .look) := by
  refine { capped with here := ?_, others := fun m ne => ?_, count := ?_ }
  · rw [manager_look, manager_look]
    exact capped.here.modify fun _ _ _ => rfl
  · rw [manager_look, manager_look, capped.others m ne]
  · simp [Fleet.move, capped.count]

theorem strike (time : Nat) : (f.strike time).Capped m₀ cap (g.strike time) := by
  have struck : Fleet.Capped m₀ cap { f with clock := time } { g with clock := time } :=
    { capped with clock := rfl }
  have due : (g.timers.filter fun t => t.due ≤ time) = f.timers.filter fun t => t.due ≤ time := by
    rw [capped.timers]
  unfold Fleet.strike
  dsimp only
  rw [due]
  exact struck.wakeAll _

/-- A move keeps the cap out of sight, as long as a slot is free where one is sought. -/
theorem move {mv : Move} (room : mv = .turn → HasRoom m₀ f g) :
    (f.move mv).Capped m₀ cap (g.move mv) := by
  have waits := WaitsInStep.capped m₀ cap
  have here (w : Nat) : g.waits[w]? = f.waits[w]? := by rw [capped.waits]
  cases mv with
  | call c =>
      obtain ⟨f', g', r, r', eq, eq', -, performed⟩ := capped.perform none c
      simp only [Fleet.move, eq, eq']
      exact performed
  | wait m poll cancelled =>
      exact (waits.spawnWait capped (capped.isHeld m) poll cancelled).fleets
  | runUntilSignal m => exact (waits.spawnRun capped (capped.isHeld m)).fleets
  | cancel w => exact ((MarksInStep.capped m₀ cap w).cancelWait capped (here w)).fleets
  | abort w => exact ((MarksInStep.capped m₀ cap w).abortWait capped (here w)).fleets
  | signal s w => exact (MarksInStep.capped m₀ cap w).signalWait capped (capped.wait w) s
  | drop m =>
      exact waits.leave (capped.modify (h := fun x => { x with owned := false })
        (fun _ _ _ => rfl) m) m
  | release m i times => exact capped.releaseSubscriber m i times
  | arm b what => exact waits.arm capped b what
  | disarm b what => exact waits.disarm capped b what
  | look => exact capped.look
  | strike time => exact capped.strike time
  | setClock time => exact { capped with clock := rfl }
  | turn =>
      have stepped := capped.step? (room rfl)
      unfold Fleet.move
      generalize f.step? = f?, g.step? = g? at stepped
      cases stepped with
      | none => exact capped
      | some capped => exact capped

end Capped

end Fleet

end Flotilla
