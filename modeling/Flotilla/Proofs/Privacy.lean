import Flotilla.Proofs.Endings
import Flotilla.Proofs.Lockstep.Commands

/-!
# How a bot ends stays its own affair

Two fleets in which bots differ in nothing but how their runs end stay alike in every move
(`Fleet.Alike.move`), and so the owner who gives both the same commands gets the same answers and
sees the same, but for the outcome of each run (`Fleet.endings_stay_private`).
-/

namespace Flotilla

variable {plans plans' : List BotPlan}

namespace Fleet

variable {f g : Fleet} {m : Nat}

theorem bots_modifyRelay (f : Fleet) (m : Nat) (h : Relay → Relay) :
    ((f.modifyRelay m h).manager m).bots = (f.manager m).bots := by
  unfold Fleet.modifyRelay
  rcases manager_modifyManager_or f m m fun mgr => mgr.modifyRelay h with same | ⟨-, changed⟩
  · rw [same]
  · rw [changed]
    rfl

/-- What was launched in one fleet was launched in the other, of which it is a later state. -/
theorem owns_kept (kept : f.KeepsBots g) (id : Nat) (name : String) (o o' : RunOutcome)
    (owns : f.Owns plans plans' id name o o') : g.Owns plans plans' id name o o' := by
  obtain ⟨m, own⟩ := owns
  exact ⟨m, own.mono (kept m) id name o o'⟩

namespace Alike

/-! ## The bus and its readers -/

section Steps

variable (alike : f.Alike plans plans' g)

include alike

theorem deliver {fanout fanout' : Fanout} {e e' : Event}
    (fans : fanout.Alike (Event.Alike (Own plans plans' (f.manager m).bots)) fanout')
    (told : e.Alike (Own plans plans' (f.manager m).bots) e') :
    (f.deliver m fanout e).Alike plans plans' (g.deliver m fanout' e') := by
  have offered := alike.modifyRelay (h := fun r => { r with fanout := fanout.offer e })
    (k := fun r => { r with fanout := fanout'.offer e' })
    fun _ _ relay => { relay with fanout := fans.offer told }
  unfold Fleet.deliver
  dsimp only
  rw [fans.wokenByOffer, fans.overflows (Event.likeness _) told]
  exact (offered.wakeAll _).publishAll m _

theorem listen (m : Nat) (listening : Listening) :
    (f.modifyRelay m fun r => { r with listening }).Alike plans plans'
      (g.modifyRelay m fun r => { r with listening }) :=
  alike.modifyRelay fun _ _ relay => { relay with listening := rfl }

theorem listenerRests (m : Nat) :
    (f.listenerRests m).Alike plans plans' (g.listenerRests m) := by
  unfold Fleet.listenerRests
  rw [alike.agrees.isHeld]
  split
  · exact (alike.listen m .idle).park
  · exact alike.listen m (.closing .begun)

theorem stepListener (m : Nat) : (f.stepListener m).Alike plans plans' (g.stepListener m) := by
  have there := (alike.managers m).relay
  unfold Fleet.stepListener
  generalize (f.manager m).relay = r?, (g.manager m).relay = s? at there
  cases there with
  | none => exact alike.park
  | @some r s relay =>
      dsimp only
      rw [relay.listening, relay.reader]
      cases r.listening with
      | reading =>
          obtain ⟨got, got', reader, read, read', told⟩ := (alike.managers m).bus.read r.reader
          have moved := alike.modifyRelay (m := m) (h := fun r => { r with reader })
            (k := fun r => { r with reader }) fun _ _ relay => { relay with reader := rfl }
          rw [read, read']
          cases told with
          | event told =>
              rw [← bots_modifyRelay f m fun r => { r with reader }] at relay told
              exact moved.deliver relay.fanout told
          | lagged n => exact moved.log (.same _)
          | nothing => exact moved.listenerRests m
      | closing c =>
          cases c with
          | begun =>
              dsimp only
              rw [relay.fanout.wokenByClose]
              refine wakeAll (alike.modifyRelay fun _ _ relay => ?_) _
              exact { relay with fanout := relay.fanout.close, listening := rfl }
          | awaiting i =>
              dsimp only
              rw [relay.fanout.awaitFrom]
              exact (alike.listen m _).park
          | finished => exact alike.park
      | idle => exact alike.park

theorem workerGone {r s : Relay} (listening : s.listening = r.listening) (m i : Nat) :
    (f.workerGone m i r).Alike plans plans' (g.workerGone m i s) := by
  unfold Fleet.workerGone
  rw [listening]
  split
  · exact alike.wake _
  · exact alike

theorem stepWorker (m i : Nat) : (f.stepWorker m i).Alike plans plans' (g.stepWorker m i) := by
  have there := (alike.managers m).relay
  unfold Fleet.stepWorker
  generalize (f.manager m).relay = r?, (g.manager m).relay = s? at there
  cases there with
  | none => exact alike.park
  | @some r s relay =>
      obtain ⟨fanout, fanout', report, pace, work, work', fans⟩ := relay.fanout.work i
      dsimp only
      rw [work, work']
      have worked := (alike.modifyRelay (h := fun x => { x with fanout })
        (k := fun x => { x with fanout := fanout' })
        fun _ _ relay => { relay with fanout := fans }).publishAll m report.toList
      cases pace with
      | again => exact worked
      | waits => exact worked.park
      | _ => exact (worked.workerGone relay.listening m i).park

/-! ## Moves -/

theorem stepTask (t : Task) : (f.stepTask t).Alike plans plans' (g.stepTask t) := by
  cases t with
  | listener m => exact alike.stepListener m
  | worker m i => exact alike.stepWorker m i
  | bot | wait | dismissal => exact (TurnsInStep.alike plans plans').stepTask alike rfl

theorem step? : Option.Rel (Fleet.Alike plans plans') f.step? g.step? := by
  unfold Fleet.step?
  rw [alike.tasks]
  cases f.tasks.running with
  | some t => exact .some (alike.stepTask t)
  | none =>
      cases f.tasks.next? with
      | none => exact .none
      | some tasks => exact .some { alike with tasks := rfl }

theorem releaseSubscriber (m i times : Nat) :
    (f.releaseSubscriber m i times).Alike plans plans' (g.releaseSubscriber m i times) := by
  have there := (alike.managers m).relay
  unfold Fleet.releaseSubscriber
  generalize (f.manager m).relay = r?, (g.manager m).relay = s? at there
  cases there with
  | none => exact alike
  | @some r s relay =>
      have released := alike.modifyRelay (m := m)
        (h := fun r => { r with fanout := r.fanout.release i times })
        (k := fun r => { r with fanout := r.fanout.release i times })
        fun _ _ relay => { relay with fanout := relay.fanout.release i times }
      dsimp only
      rw [relay.fanout.wakesOnRelease]
      split
      · exact released.wake _
      · exact released

theorem look : (f.move .look).Alike plans plans' (g.move .look) := by
  have kept : f.KeepsBots (f.move .look) := fun m => by
    rw [manager_look]
    exact List.prefix_rfl
  refine { alike with managers := fun m => ?_, count := ?_, logs := ?_ }
  · rw [manager_look, manager_look]
    exact (alike.managers m).look
  · simp [Fleet.move, alike.count]
  · exact alike.logs.imp fun _ _ told => told.imp (owns_kept kept)

/-- Every move keeps two fleets alike. -/
theorem move (mv : Move) : (f.move mv).Alike plans plans' (g.move mv) := by
  cases mv with
  | release m i times => exact alike.releaseSubscriber m i times
  | look => exact alike.look
  | turn =>
      have stepped := alike.step?
      unfold Fleet.move
      generalize f.step? = f?, g.step? = g? at stepped
      cases stepped with
      | none => exact alike
      | some alike => exact alike
  | _ => exact (TurnsInStep.alike plans plans').move alike rfl

/-- And so does every run. -/
theorem play (ms : List Move) : (f.play ms).Alike plans plans' (g.play ms) := by
  induction ms generalizing f g with
  | nil => exact alike
  | cons mv ms ih => exact ih (alike.move mv)

/-! ## Commands -/

theorem settle : f.settle.Alike plans plans' g.settle := by
  unfold Fleet.settle
  generalize restBudget = budget
  induction budget generalizing f g with
  | zero => exact alike
  | succ n ih =>
      have stepped := alike.step?
      unfold runToRest
      generalize f.step? = f?, g.step? = g? at stepped
      cases stepped with
      | none => exact alike
      | some alike => exact ih alike

/-- A command has the same answer in both fleets. -/
theorem carryOut (c : Command) :
    Alongside (Fleet.Alike plans plans') (f.carryOut c) (g.carryOut c) :=
  (MovesInStep.alike plans plans').carryOut (Q := fun _ => True) (fun alike _ _ => alike.settle)
    (fun alike => alike.releaseSubscriber) alike c (fun _ _ => trivial) fun _ _ => trivial

end Steps

end Alike

/-! ## Reports -/

/-- What is seen of two managers, which is the same but for the events that are alike. -/
structure ManagerReport.Alike (E : Event → Event → Prop) (x y : ManagerReport) : Prop where
  events : List.Forall₂ (Reading.Alike E) x.events y.events
  view : y.view = x.view
  seen : Option.Rel (List.Forall₂ (List.Forall₂ (Kept.Alike E))) x.seen y.seen

/-- What is shown of two fleets after a command, which is the same but for the outcomes of
launches made by then. -/
structure Report.Alike (plans plans' : List BotPlan) (f : Fleet) (x y : Report) : Prop where
  answer : y.answer = x.answer
  managers : ∀ m, Option.Rel
    (ManagerReport.Alike (Event.Alike (Own plans plans' (f.manager m).bots)))
    x.managers[m]? y.managers[m]?
  notes : y.notes = x.notes
  waits : y.waits = x.waits
  logs : List.Forall₂ (LogLine.Alike (f.Owns plans plans')) x.logs y.logs

theorem ManagerReport.Alike.imp {E E' : Event → Event → Prop} {x y : ManagerReport}
    (alike : x.Alike E y) (imp : ∀ e e', E e e' → E' e e') : x.Alike E' y := by
  refine ⟨alike.events.imp fun _ _ told => told.imp imp, alike.view, ?_⟩
  have seen := rel_map (g := id) (h := id) alike.seen fun _ _ lists =>
    lists.imp fun _ _ list => list.imp fun _ _ kept => kept.imp imp
  simpa using seen

theorem Report.Alike.kept {x y : Report} (alike : x.Alike plans plans' f y)
    (kept : f.KeepsBots g) : x.Alike plans plans' g y := by
  refine { alike with managers := fun m => ?_, logs := ?_ }
  · simpa using rel_map (g := id) (h := id) (alike.managers m) fun _ _ manager =>
      manager.imp fun _ _ told => told.imp (Own.mono (kept m))
  · exact alike.logs.imp fun _ _ told => told.imp (owns_kept kept)

namespace Alike

variable (alike : f.Alike plans plans' g)

include alike

theorem viewHandle (h : Handle) : g.viewHandle h = f.viewHandle h := by
  unfold Fleet.viewHandle
  dsimp only
  rw [alike.agrees.plan, alike.agrees.liveness]

theorem viewManager {x y : Manager} (same : x.Alike plans plans' y) :
    g.viewManager y = f.viewManager x := by
  have viewed : g.viewHandle = f.viewHandle := funext alike.viewHandle
  rw [same.rest, Fleet.viewManager, viewed]
  rfl

theorem reportManager {x y : Manager} (same : x.Alike plans plans' y) :
    (f.reportManager x).Alike (Event.Alike (Own plans plans' x.bots)) (g.reportManager y) := by
  have owned : y.owned = x.owned := by rw [same.rest]
  refine ⟨?_, ?_, rel_map same.relay fun _ _ relay => relay.fanout.seen⟩
  · show List.Forall₂ _ (x.bus.drain x.observer).1 (y.bus.drain y.observer).1
    rw [same.observer]
    exact (same.bus.drain x.observer).1
  · unfold Fleet.reportManager
    dsimp only
    rw [owned, alike.viewManager same]

theorem manager? (m : Nat) : Option.Rel (fun x y => f.manager m = x ∧ x.Alike plans plans' y)
    f.managers[m]? g.managers[m]? := by
  have manager := alike.managers m
  unfold Fleet.manager at manager
  unfold Fleet.manager
  by_cases has : m < f.managers.length
  · have has' : m < g.managers.length := Nat.lt_of_lt_of_eq has alike.count.symm
    simp only [List.getD_eq_getElem?_getD, List.getElem?_eq_getElem has,
      List.getElem?_eq_getElem has', Option.getD_some] at manager ⊢
    exact .some ⟨rfl, manager⟩
  · rw [List.getElem?_eq_none (Nat.le_of_not_lt has),
      List.getElem?_eq_none (alike.count.trans_le (Nat.le_of_not_lt has))]
    exact .none

/-- After a command both fleets show the same, but for the outcomes of launches. -/
theorem observe (c : Command) :
    (f.observe c).1.Alike plans plans' (g.observe c).1 ∧
      (f.observe c).2.Alike plans plans' (f.observe c).1 (g.observe c).2 := by
  obtain ⟨f', g', answer, eq, eq', carried⟩ := alike.carryOut c
  have kept : f'.KeepsBots (f'.move .look) := fun m => by
    rw [manager_look]
    exact List.prefix_rfl
  unfold Fleet.observe
  dsimp only
  rw [eq, eq']
  refine ⟨carried.look, Report.Alike.kept ⟨rfl, fun m => ?_, ?_, ?_, ?_⟩ kept⟩
  · dsimp only
    rw [List.getElem?_map, List.getElem?_map]
    refine rel_map (carried.manager? m) fun x y same => ?_
    rw [same.1]
    exact carried.reportManager same.2
  · dsimp only
    rw [alike.notes, carried.notes]
  · dsimp only
    rw [carried.waits]
  · dsimp only
    rw [size_eq_of_forall₂ alike.logs, size_eq_of_forall₂ carried.logs]
    exact forall₂_extract carried.logs _ _

end Alike

/-! ## Sessions -/

/-- No launch is forgotten in a run. -/
theorem keepsBots_play (sound : f.Sound) (ms : List Move) : f.KeepsBots (f.play ms) := by
  intro m
  by_cases has : f.Has m
  · exact Steps.bots_prefix ((steps_play_any sound ms).2.2 m has)
  · have none : (f.manager m).bots = [] := by
      rw [manager_of_not_has has]
      rfl
    rw [none]
    exact List.nil_prefix

theorem Alike.observeAll (alike : f.Alike plans plans' g) (sound : f.Sound) (cs : List Command) :
    (f.observeAll cs).1.Alike plans plans' (g.observeAll cs).1 ∧
      List.Forall₂ (Report.Alike plans plans' (f.observeAll cs).1)
        (f.observeAll cs).2 (g.observeAll cs).2 := by
  induction cs generalizing f g with
  | nil => exact ⟨alike, .nil⟩
  | cons c cs ih =>
      obtain ⟨observed, report⟩ := alike.observe c
      obtain ⟨ms, carried⟩ := exists_play_carryOut f c
      have looked : (f.observe c).1 = f.play (ms ++ [.look]) := by
        rw [play_append, ← carried]
        rfl
      have sound' : (f.observe c).1.Sound := looked ▸ (steps_play_any sound _).1
      -- What was launched by the time of this report is so in the end.
      obtain ⟨ms', later⟩ := exists_play_observeAll (f.observe c).1 cs
      have kept := keepsBots_play sound' ms'
      rw [← later] at kept
      obtain ⟨rest, reports⟩ := ih observed sound'
      exact ⟨rest, .cons (report.kept kept) reports⟩

/-- Two fleets just built are alike if their bots are, but for how they end. -/
theorem alike_raw (managers : List ManagerPlan)
    (otherwise : List.Forall₂ BotPlan.EndsOtherwise plans plans') :
    (raw managers plans).Alike plans plans' (raw managers plans') := by
  have bots (b : Nat) : Option.Rel (fun x y => x.Alike plans[b]? plans'[b]? y)
      (plans.map BotPlan.build)[b]? (plans'.map BotPlan.build)[b]? := by
    rw [List.getElem?_map, List.getElem?_map]
    have there := getElem?_of_forall₂ otherwise b
    generalize here : plans[b]? = p?, also : plans'[b]? = q? at there
    cases there with
    | none => exact .none
    | @some p q same =>
        refine .some ⟨?_, same.eager, Or.inr ⟨p, q, rfl, rfl, rfl, rfl, rfl⟩⟩
        simp [BotPlan.build, Bot.build, same.plan]
  refine ⟨fun m => .refl _, rfl, fun b => ?_, ?_, rfl, rfl, rfl, rfl, rfl, .nil, rfl⟩
  · show Bot.Alike _ _ ((plans.map BotPlan.build).getD b default)
      ((plans'.map BotPlan.build).getD b default)
    have there := bots b
    rw [List.getD_eq_getElem?_getD, List.getD_eq_getElem?_getD]
    generalize (plans.map BotPlan.build)[b]? = x?, (plans'.map BotPlan.build)[b]? = y? at there
    cases there with
    | none => exact .refl _
    | some same => exact same
  · show (plans'.map BotPlan.build).length = (plans.map BotPlan.build).length
    rw [List.length_map, List.length_map, otherwise.length_eq]

theorem Alike.tallies (alike : f.Alike plans plans' g) : g.bots.map tally = f.bots.map tally := by
  refine List.ext_getElem (by simp [alike.number]) fun b inside' inside => ?_
  rw [List.length_map] at inside inside'
  have tallied := (alike.bots b).tally
  unfold bot at tallied
  rw [List.getD_eq_getElem?_getD, List.getD_eq_getElem?_getD, List.getElem?_eq_getElem inside,
    List.getElem?_eq_getElem inside'] at tallied
  rw [List.getElem_map, List.getElem_map]
  exact tallied

/-- What two sessions show and leave behind is the same, but for the outcomes of launches, of
which each session tells its own. -/
structure SameButOutcomes (plans plans' : List BotPlan) (x y : Fleet × List Report) : Prop where
  reports : List.Forall₂ (Report.Alike plans plans' x.1) x.2 y.2
  tallies : y.1.bots.map tally = x.1.bots.map tally
  slots : ∀ m, (y.1.manager m).slots = (x.1.manager m).slots
  history : ∀ m, List.Forall₂ (Event.Alike (Own plans plans' (x.1.manager m).bots))
    (x.1.manager m).bus.log.toList (y.1.manager m).bus.log.toList

/-- How a bot ends is seen in the outcomes of its runs, and nowhere else: not by other bots, nor in
what the manager answers or does. -/
theorem endings_stay_private (managers : List ManagerPlan)
    (otherwise : List.Forall₂ BotPlan.EndsOtherwise plans plans') (commands : List Command) :
    SameButOutcomes plans plans' ((build managers plans).observeAll commands)
      ((build managers plans').observeAll commands) := by
  have built := (alike_raw managers otherwise).settle
  obtain ⟨ms, settled⟩ := exists_play_build managers plans
  have sound : (build managers plans).Sound := settled ▸ sound_play managers plans ms
  obtain ⟨alike, reports⟩ := Alike.observeAll built sound commands
  exact ⟨reports, alike.tallies, alike.agrees.slots, fun m => (alike.managers m).bus.log⟩

end Fleet

namespace Sample

/-- A bot that waits for a permit and then ends in a given way, and one that ends well. -/
def pairEnding (ending : Ending) : List BotPlan := [{ bot false with ending }, bot false]

/-- Both bots are registered, and the first one is run to its end; then the second one has the
slot. -/
def oneAfterAnother : List Fleet.Command :=
  [.call (.add 0 0), .call (.add 0 1), .call (.start 0), .settle, .call (.finish 0 none), .settle]

end Sample

/-- The first bot ends well or by a panic: the events differ where its end is told, and the second
bot is run all the same. -/
theorem Fleet.endings_stay_private_of_panic :
    let managers := [{ Sample.oneSlot with subscribers := [{ name := "s" }] }]
    let well := (build managers (Sample.pairEnding .ok)).observeAll Sample.oneAfterAnother
    let badly := (build managers (Sample.pairEnding (.panic (.text "boom")))).observeAll
      Sample.oneAfterAnother
    SameButOutcomes (Sample.pairEnding .ok) (Sample.pairEnding (.panic (.text "boom"))) well badly ∧
      (well.1.manager 0).bus.log[6]? = some ((Event.botFinished 0 "a").withSeq 6) ∧
      (badly.1.manager 0).bus.log[6]? =
        some ((Event.botFailed 0 "a" "bot panicked: boom").withSeq 6) ∧
      (badly.1.manager 0).bus.log[7]? = (well.1.manager 0).bus.log[7]? ∧
      badly.1.bots.map Bot.runs = [1, 1] := by
  refine ⟨endings_stay_private _ ?_ _, ?_⟩
  · exact .cons ⟨rfl, rfl⟩ (.cons ⟨rfl, rfl⟩ .nil)
  · decide +kernel

end Flotilla
