import Flotilla.Proofs.Aside.Turns
import Flotilla.Proofs.Lockstep.Commands

/-!
# Subscribers have no influence

Managers that differ in their subscribers only do the same in every session in which every settling
comes to its end: each command has the same answer, the same is seen of the managers, the bots and
the waiters, and the same is published, but for what is said of the subscribers themselves
(`Fleet.subscribers_without_influence`).
-/

namespace Flotilla

/-- A plan without subscribers. -/
def ManagerPlan.unattended (p : ManagerPlan) : ManagerPlan := { p with subscribers := [] }

namespace Fleet

variable {f g : Fleet} {managers managers' : List ManagerPlan}

/-! ## Nothing but the subscribers left out -/

namespace SameBut

variable (same : SameBut {} f g)

include same

theorem sameTimers : g.timers = f.timers := by
  have counted (ts : List Timer) : ts.filter (Aside.counts {}) = ts :=
    List.filter_eq_self.mpr fun _ _ => rfl
  have timers := same.timers
  rwa [counted, counted] at timers

theorem sameWaits : g.waits = f.waits :=
  List.ext_getElem? fun _ => same.waits_getElem? nofun

theorem sameNotes : g.notes = f.notes := by
  have each : ∀ n n' : Note, n.SameBut false n' → n' = n := fun _ _ note => by
    cases note with
    | same => rfl
    | called bot replies =>
        cases replies with
        | same => rfl
        | left is | right is => cases is
  have eq := map_eq_of_forall₂ (g := id) (h := id) same.notes each
  rw [List.map_id, List.map_id] at eq
  exact Array.toList_inj.mp eq

theorem agrees : f.Agrees g where
  toAccords := same.accords
  settings := same.settings
  slots := same.slots
  waits := same.sameWaits
  timers := same.sameTimers
  clock := same.clock rfl

end SameBut

theorem MovesInStep.sameBut : MovesInStep (SameBut {}) where
  toWaitsInStep := .sameBut {}
  agrees := SameBut.agrees
  marks := .sameBut {}
  disown same _ := same.disown _

theorem TurnsInStep.sameBut : TurnsInStep (SameBut {}) :=
  { MovesInStep.sameBut, RunsInStep.sameBut {} with
    setSlots := fun same m _ => same.modifyManager (by rw [same.managers m]) (same.told m) }

/-- The turns of listeners and workers make no difference. -/
theorem Meets.sameBut : Meets (fun _ => Aside.hides {}) (SameBut {}) where
  symm := SameBut.symm
  hidden _ := rfl
  shown := SameBut.tasks
  apart {f g t} same turn is := by
    refine same.stepTask_right (same.idle_of_hidden turn is) ?_
    cases t with
    | listener | worker => rfl
    | bot | wait | dismissal => cases is
  together {f g t} same _ _ isnt := by
    refine TurnsInStep.sameBut.stepTask same ?_
    cases t with
    | listener | worker => cases isnt
    | bot | wait | dismissal => rfl
  turn same _ _ shown := { same with tasks := shown }

theorem SameBut.settle (same : SameBut {} f g) (ends : f.settle.tasks.isSettled = true)
    (ends' : g.settle.tasks.isSettled = true) : SameBut {} f.settle g.settle :=
  Meets.sameBut.rest same ends ends'

/-! ## Commands -/

/-- What is shown of two fleets after a command is the same, but for the events and what the
subscribers kept. -/
structure Report.SameView (x y : Report) : Prop where
  answer : y.answer = x.answer
  views : y.managers.map ManagerReport.view = x.managers.map ManagerReport.view
  notes : y.notes = x.notes
  waits : y.waits = x.waits

namespace SameBut

section Commands

variable {a : Aside} (same : SameBut a f g)

include same

theorem viewManager {x y : Manager}
    (rest : y = { x with bus := y.bus, observer := y.observer, relay := y.relay }) :
    g.viewManager y = f.viewManager x := by
  have viewed : g.viewHandle = f.viewHandle := by
    funext h
    unfold viewHandle
    rw [same.bot]
  rw [rest, Fleet.viewManager, viewed]
  rfl

/-- The owner sees the same of every manager. -/
theorem views : (g.managers.map g.reportManager).map ManagerReport.view =
    (f.managers.map f.reportManager).map ManagerReport.view := by
  rw [List.map_map, List.map_map]
  refine List.ext_getElem (by simp [same.count]) fun i inside' inside => ?_
  rw [List.length_map] at inside inside'
  rw [List.getElem_map, List.getElem_map]
  have rest := same.managers i
  simp only [manager, List.getD_eq_getElem?_getD, List.getElem?_eq_getElem inside,
    List.getElem?_eq_getElem inside', Option.getD_some] at rest
  have owned : g.managers[i].owned = f.managers[i].owned := by rw [rest]
  simp only [Function.comp, reportManager, owned, same.viewManager rest]

theorem look : SameBut a (f.move .look) (g.move .look) := (same.look_right.symm.look_right).symm

end Commands

variable (same : SameBut {} f g)

include same

theorem observe (c : Command) (ends : ∀ x ∈ f.rests c, x.tasks.isSettled = true)
    (ends' : ∀ x ∈ g.rests c, x.tasks.isSettled = true) :
    SameBut {} (f.observe c).1 (g.observe c).1 ∧ (f.observe c).2.SameView (g.observe c).2 := by
  obtain ⟨f', g', answer, eq, eq', carried⟩ := MovesInStep.sameBut.carryOut
    (fun same ends ends' => same.settle ends ends')
    (fun same m i times => ((same.releaseSubscriber_right m i times).symm.releaseSubscriber_right
      m i times).symm) same c ends ends'
  unfold Fleet.observe
  dsimp only
  rw [eq, eq']
  refine ⟨carried.look, rfl, carried.views, ?_, ?_⟩
  · dsimp only
    rw [same.sameNotes, carried.sameNotes]
  · dsimp only
    rw [carried.sameWaits]

theorem observeAll {cs : List Command} (ends : ∀ x ∈ f.sessionRests cs, x.tasks.isSettled = true)
    (ends' : ∀ x ∈ g.sessionRests cs, x.tasks.isSettled = true) :
    SameBut {} (f.observeAll cs).1 (g.observeAll cs).1 ∧
      List.Forall₂ Report.SameView (f.observeAll cs).2 (g.observeAll cs).2 := by
  induction cs generalizing f g with
  | nil => exact ⟨same, .nil⟩
  | cons c cs ih =>
      unfold sessionRests at ends ends'
      obtain ⟨now, later⟩ := List.forall_mem_append.mp ends
      obtain ⟨now', later'⟩ := List.forall_mem_append.mp ends'
      obtain ⟨observed, report⟩ := same.observe c now now'
      obtain ⟨rest, reports⟩ := ih observed later later'
      exact ⟨rest, .cons report reports⟩

end SameBut

/-! ## Sessions -/

theorem manager_raw_unattended (managers : List ManagerPlan) (bots : List BotPlan) (m : Nat) :
    (raw managers bots).manager m =
      { (raw (managers.map ManagerPlan.unattended) bots).manager m with
        relay := ((raw managers bots).manager m).relay } := by
  show (managers.map ManagerPlan.build).getD m default =
    { ((managers.map ManagerPlan.unattended).map ManagerPlan.build).getD m default with
      relay := ((managers.map ManagerPlan.build).getD m default).relay }
  simp only [List.getD_eq_getElem?_getD, List.getElem?_map]
  cases managers[m]? <;> rfl

theorem tasks_raw_hidden (managers : List ManagerPlan) (bots : List BotPlan) :
    (raw managers bots).tasks.shown (Aside.hides {}) = ([], none) := by
  refine Scheduler.shown_wakeAll_of_hidden (fun t mem => ?_) _
  obtain ⟨⟨p, m⟩, -, mem⟩ := List.mem_flatMap.mp mem
  rcases cases_of_mem_tasks mem with ⟨i, rfl⟩ | rfl <;> rfl

theorem sameBut_raw
    (same : managers'.map ManagerPlan.unattended = managers.map ManagerPlan.unattended)
    (bots : List BotPlan) : SameBut {} (raw managers bots) (raw managers' bots) where
  managers m := by
    rw [manager_raw_unattended managers, manager_raw_unattended managers', same]
  told m := by
    rw [manager_raw_unattended managers, manager_raw_unattended managers', same]
    rfl
  count := by
    have count := congrArg List.length same
    rw [List.length_map, List.length_map] at count
    show (managers'.map _).length = (managers.map _).length
    rw [List.length_map, List.length_map, count]
  bots := rfl
  inside := nofun
  errands := rfl
  waits _ _ := rfl
  timers := rfl
  dismissal := rfl
  clock _ := rfl
  tasks := by rw [tasks_raw_hidden, tasks_raw_hidden]
  notes := .nil

/-- What two sessions show and leave behind is the same, but for what is said of subscribers. -/
structure SameButSubscribers (x y : Fleet × List Report) : Prop where
  reports : List.Forall₂ Report.SameView x.2 y.2
  tallies : y.1.bots.map tally = x.1.bots.map tally
  history : ∀ m, ((y.1.manager m).history.filter fun e => !e.kind.isDiagnostic) =
    (x.1.manager m).history.filter fun e => !e.kind.isDiagnostic

/-- Managers do the same whatever subscribers they have. -/
theorem subscribers_without_influence
    (same : managers'.map ManagerPlan.unattended = managers.map ManagerPlan.unattended)
    {bots : List BotPlan} {commands : List Command}
    (ends : EverySettlingEnds managers bots commands)
    (ends' : EverySettlingEnds managers' bots commands) :
    SameButSubscribers ((build managers bots).observeAll commands)
      ((build managers' bots).observeAll commands) := by
  have built : SameBut {} (build managers bots) (build managers' bots) :=
    (sameBut_raw same bots).settle (ends _ List.mem_cons_self) (ends' _ List.mem_cons_self)
  obtain ⟨rest, reports⟩ := built.observeAll
    (fun x mem => ends x (List.mem_cons_of_mem _ mem))
    fun x mem => ends' x (List.mem_cons_of_mem _ mem)
  refine ⟨reports, by rw [rest.bots], fun m => ?_⟩
  have heard (es : List Event) :
      es.filter (Aside.hears {}) = es.filter fun e => !e.kind.isDiagnostic :=
    List.filter_congr fun e _ => Bool.and_true _
  have told := rest.told m
  rwa [heard, heard] at told

end Fleet

namespace Sample

/-- A manager with a subscriber that panics at first, and one that takes only a few events. -/
def oneWatched : ManagerPlan :=
  { oneSlot with
    subscribers :=
      [{ name := "a", handling := .panic (.text "boom"), panicsAt := [0] },
        { name := "b", handling := .block, capacity := 1 }] }

/-- A bot is run and then waited for, with a report every five milliseconds. -/
def waitedFor : List Fleet.Command :=
  [.call (.add 0 0), .call (.start 0), .settle, .wait 0 (some (.ofMillis 5)) false, .sleep 12,
    .call (.finish 0 none), .settle]

end Sample

/-- Twelve times something is said of the subscribers, and nothing else is different. -/
theorem Fleet.subscribers_without_influence_of_one :
    EverySettlingEnds [Sample.oneWatched] [Sample.bot false] Sample.waitedFor ∧
      EverySettlingEnds [Sample.oneSlot] [Sample.bot false] Sample.waitedFor ∧
      SameButSubscribers
        ((build [Sample.oneWatched] [Sample.bot false]).observeAll Sample.waitedFor)
        ((build [Sample.oneSlot] [Sample.bot false]).observeAll Sample.waitedFor) ∧
      (((build [Sample.oneWatched] [Sample.bot false]).observeAll Sample.waitedFor).1.manager
          0).bus.published =
        (((build [Sample.oneSlot] [Sample.bot false]).observeAll Sample.waitedFor).1.manager
          0).bus.published + 12 := by
  have ends : EverySettlingEnds [Sample.oneWatched] [Sample.bot false] Sample.waitedFor := by
    decide +kernel
  have ends' : EverySettlingEnds [Sample.oneSlot] [Sample.bot false] Sample.waitedFor := by
    decide +kernel
  have same : [Sample.oneSlot].map ManagerPlan.unattended =
      [Sample.oneWatched].map ManagerPlan.unattended := rfl
  exact ⟨ends, ends', subscribers_without_influence same ends ends', by decide +kernel⟩

end Flotilla
