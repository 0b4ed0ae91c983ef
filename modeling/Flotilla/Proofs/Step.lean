import Flotilla.Proofs.View
import Mathlib.Logic.Relation

/-!
# What can happen to a manager

`Step` lists what can happen to the part of a fleet that concerns one manager, each item with
the condition under which it happens. `Flotilla.Proofs.Simulation` shows that every move of a
fleet is a sequence of such steps, so an invariant of managers is proved by cases on `Step`,
once for each thing that can happen and not once for each function of the fleet.

A `Licence` says which of the rarer things are allowed: a theorem about a move for which no
panic, no run or no stop is licensed is a theorem about moves that do not panic, run or stop.
-/

namespace Flotilla

/-- Which of the rarer things may happen. -/
structure Licence where
  /-- This bot may panic when it is asked its name. -/
  panics : Nat → Prop
  /-- Something else may happen than what a call does. -/
  acts : Prop
  /-- The run of this launch may be called. -/
  runs : RunName → Prop
  /-- This manager may be stopped. -/
  stops : Nat → Prop
  /-- Bots may be registered with this manager, and launched. -/
  enrols : Nat → Prop
  /-- The run of this launch may come to its end with this outcome. -/
  ends : RunName → RunOutcome → Prop

/-- The same licence for what calls do. -/
def Licence.rest (L : Licence) : Licence := { L with acts := False }

/-- The same licence where any call may be made. -/
def Licence.unbound (L : Licence) : Licence :=
  { L with stops := fun _ => True, enrols := fun _ => True }

/-- Everything allowed by the one licence is allowed by the other. -/
structure Licence.Le (L L' : Licence) : Prop where
  panics : ∀ b, L.panics b → L'.panics b
  acts : L.acts → L'.acts
  runs : ∀ r, L.runs r → L'.runs r
  stops : ∀ m, L.stops m → L'.stops m
  enrols : ∀ m, L.enrols m → L'.enrols m
  ends : ∀ r o, L.ends r o → L'.ends r o

/-- An event about no bot and no phase: a report on a subscriber, or the request to end. -/
structure Event.IsAside (e : Event) : Prop where
  kind : e.kind.isDiagnostic = true ∨ e.kind = .shutdownRequested
  bot : e.bot = none
  phase : e.phase = none
  unnumbered : e.seq = 0

/-- Such an event is of no kind but these. -/
theorem Event.IsAside.kind_ne {e : Event} {k : EventKind} (is : e.IsAside)
    (plain : k.isDiagnostic = false) (other : k ≠ .shutdownRequested) : e.kind ≠ k := by
  rintro rfl
  rcases is.kind with diagnostic | asked
  · cases plain.symm.trans diagnostic
  · exact other asked

namespace View

/-! ## What happens -/

/-- A bot is handed to the pool under the next id; it is announced and registered if it gives
its name. -/
def launch (v : View) (m b : Nat) (named : Bool) : View :=
  let id := v.mgr.launches.length
  let v := (v.modify fun mgr =>
    { mgr with launches := mgr.launches ++ [{ bot := b, registered := named }] }).wake
      (.bot ⟨m, id⟩)
  if named then v.publish (.botLaunched id (v.nameOf b)) else v

/-- The pool takes no more bots, and the launches that wait for a slot are woken. -/
def close (v : View) (m : Nat) : View :=
  (v.modify fun mgr => { mgr with closed := true }).wakeAll
    (v.mgr.slotWaiters.map fun id => Task.bot ⟨m, id⟩)

/-- The name of the bot launched under an id. -/
def launchName (v : View) (id : Nat) : String := v.nameOf (v.mgr.launches.getD id default).bot

/-- The manager stops, and announces which of its bots it asked to quit. -/
def stop (v : View) (m : Nat) (asked : List Nat) : View :=
  let v := ((v.modify fun mgr => { mgr with phase := .stopping }).publish
    (.stateChanged .stopping)).close m
  (v.publishAll (asked.map fun id => .quitRequested id (v.launchName id))).terminateIfEmpty

def markAdmitted (v : View) (id : Nat) : View :=
  v.modifyLaunch id fun l => { l with admitted := true }

/-- A launch takes the slot it needs: one that is free, or the one it was handed. -/
def takeSlot (v : View) (id : Nat) : View :=
  match (v.mgr.launches.getD id default).stage with
  | .submitted => v.setSlots (v.mgr.slots.map fun p => (p.acquire id).1)
  | _ => v

/-- A launch gives back what it has: its slot, or its place among those who wait for one. -/
def vacate (v : View) (m id : Nat) : View :=
  match (v.mgr.launches.getD id default).stage with
  | .submitted => v
  | .queued => v.leaveSlotLine id
  | _ => v.releaseSlot m

/-- A launch comes to its end: with an outcome that is announced, or without, if its bot
panics when it is asked its name. `ran` tells whether its run began in this very turn. -/
def leave (v : View) (m id : Nat) (ran : Bool) (outcome : Option RunOutcome) : View :=
  let v := (if ran then v.markAdmitted id else v).vacate m id
  match outcome with
  | some outcome => v.complete m id outcome
  | none => v.endTask m id

def setTimer (v : View) (w due : Nat) : View :=
  { v with timers := (v.timers.filter fun t => t.wait != w) ++ [{ wait := w, due }] }

def dropTimer (v : View) (w : Nat) : View :=
  { v with timers := v.timers.filter fun t => t.wait != w }

def setWaitStage (v : View) (w : Nat) (stage : WaitStage) : View :=
  v.modifyWait w fun wt => { wt with stage }

/-! ## When it happens -/

/-- A launch may be admitted and has its slot, or finds one free. -/
structure CanEnter (v : View) (l : Launch) : Prop where
  isOpen : v.mgr.closed = false
  registered : l.registered = true
  seat : l.stage = .offered ∨ l.stage = .submitted ∧ ∀ p, v.mgr.slots = some p → 0 < p.free

/-- A launch is not run: the pool is closed, or it is not registered when it has its slot. -/
def Refuses (v : View) (l : Launch) : Prop :=
  (l.stage = .submitted ∨ l.stage = .queued ∨ l.stage = .offered) ∧ v.mgr.closed = true ∨
    l.registered = false ∧
      (l.stage = .offered ∨ l.stage = .submitted ∧ ∀ p, v.mgr.slots = some p → 0 < p.free)

/-- Why a launch comes to its end: its run ends, or it is run and ends in one turn, if that
is licensed, or it is not run. -/
def MayLeave (v : View) (l : Launch) (ran : Bool) (outcome : Option RunOutcome)
    (licensed : Prop) : Prop :=
  ran = false ∧ l.stage.isInRun = true ∧ outcome ≠ some .notStarted ∨
    ran = true ∧ v.CanEnter l ∧ outcome ≠ some .notStarted ∧ (outcome = none ∨ licensed) ∨
    ran = false ∧ v.Refuses l ∧ (outcome = none ∨ outcome = some .notStarted)

/-- The task being run has a reason to wait: nothing is left for it to do until it is woken. -/
structure MayPark (v : View) (m : Nat) : Prop where
  launch : ∀ id l, v.running = some (.bot ⟨m, id⟩) → v.launch? id = some l →
    l.stage = .over ∨ (∃ heeds, l.stage = .waiting heeds) ∨
      l.stage = .queued ∧ v.mgr.closed = false
  wait : ∀ w wt due, v.running = some (.wait w) → v.waits[w]? = some wt → wt.manager = m →
    wt.stage = .polling due → wt.cancelled = true ∨ v.mgr.isDrained = true →
      Task.wait w ∈ v.line

end View

open View

/-- One thing that happens to the part of a fleet that concerns a manager. -/
inductive Step (L : Licence) (m : Nat) : View → View → Prop
  | tell {v : View} {e : Event} (aside : e.IsAside) : Step L m v (v.publish e)
  | report {v : View} (held : v.mgr.registry ≠ []) :
    Step L m v (v.publish (.waitingForBots v.mgr.registry.length))
  | enqueue {v : View} {b : Nat} (licensed : L.enrols m) (isNew : v.mgr.phase = .new) :
    Step L m v ((v.modify fun mgr => { mgr with queue := mgr.queue ++ [b] }).publish
      (.botQueued (v.nameOf b)))
  | begin {v : View} (licensed : L.enrols m) (isNew : v.mgr.phase = .new) :
    Step L m v (((v.modify fun mgr => { mgr with phase := .starting }).publish
      (.stateChanged .starting)).modify fun mgr => { mgr with queue := [] })
  | launch {v : View} {b : Nat} {named : Bool} (licensed : L.enrols m)
    (launching : v.mgr.phase = .starting ∨ v.mgr.phase = .running)
    (isOpen : v.mgr.closed = false)
    (mute : named = false → L.panics b ∧ v.mgr.phase = .starting) :
    Step L m v (v.launch m b named)
  | launchLate {v : View} {b : Nat} (licensed : L.enrols m)
    (launching : v.mgr.phase = .starting ∨ v.mgr.phase = .running)
    (isClosed : v.mgr.closed = true) :
    Step L m v (v.modify fun mgr =>
      { mgr with launches := mgr.launches ++ [{ bot := b, stage := .over }] })
  | run {v : View} (licensed : L.enrols m) (isStarting : v.mgr.phase = .starting)
    (named : ∀ id l, v.launch? id = some l → l.registered = true) :
    Step L m v ((v.modify fun mgr => { mgr with phase := .running }).publish
      (.stateChanged .running))
  | stop {v : View} {asked : List Nat} (licensed : L.stops m)
    (isRunning : v.mgr.phase = .running) (sorted : asked.Pairwise (· < ·))
    (registered : ∀ id ∈ asked, ∃ l, v.launch? id = some l ∧ l.registered = true) :
    Step L m v (v.stop m asked)
  | nudge {v : View} {id : Nat} {l : Launch} (found : v.launch? id = some l)
    (begun : l.stage ≠ .submitted) : Step L m v (v.wake (.bot ⟨m, id⟩))
  | nudgeWait {v : View} (w : Nat) : Step L m v (v.wake (.wait w))
  | permit {v : View} {id : Nat} {l : Launch} {heeds : Bool} (found : v.launch? id = some l)
    (waits : l.stage = .waiting heeds) :
    Step L m v ((v.setStage id (.permitted heeds)).wake (.bot ⟨m, id⟩))
  | next {v : View} {t : Task} {rest : List Task} (acts : L.acts) (idle : v.running = none)
    (first : v.line = t :: rest) : Step L m v { v with line := rest, running := some t }
  | elsewhere {v : View} {t : Task} (acts : L.acts) (idle : v.running = none)
    (away : t.concerns m = false) : Step L m v { v with running := some t }
  | park {v : View} (acts : L.acts) (may : v.MayPark m) : Step L m v v.park
  | lineUp {v : View} {id : Nat} {l : Launch} {p : Permits Nat} (acts : L.acts)
    (turn : v.running = some (.bot ⟨m, id⟩)) (found : v.launch? id = some l)
    (first : l.stage = .submitted) (isOpen : v.mgr.closed = false)
    (slots : v.mgr.slots = some p) (full : p.free = 0) :
    Step L m v ((v.setSlots (some (p.acquire id).1)).setStage id .queued)
  | enter {v : View} {id : Nat} {l : Launch} {calls : List Call} (acts : L.acts)
    (licensed : L.runs ⟨m, id⟩) (turn : v.running = some (.bot ⟨m, id⟩))
    (found : v.launch? id = some l) (can : v.CanEnter l) :
    Step L m v (((v.takeSlot id).markAdmitted id).setStage id (.calling calls))
  | proceed {v : View} {id : Nat} {l : Launch} {stage : Stage} (acts : L.acts)
    (turn : v.running = some (.bot ⟨m, id⟩)) (found : v.launch? id = some l)
    (inRun : l.stage.isInRun = true)
    (goal : (∃ calls, stage = .calling calls) ∨ ∃ heeds, stage = .waiting heeds) :
    Step L m v (v.setStage id stage)
  | leave {v : View} {id : Nat} {l : Launch} {ran : Bool} {outcome : Option RunOutcome}
    (acts : L.acts) (turn : v.running = some (.bot ⟨m, id⟩)) (found : v.launch? id = some l)
    (mute : outcome = none → L.panics l.bot)
    (ends : ∀ o, outcome = some o → o ≠ .notStarted → L.ends ⟨m, id⟩ o)
    (why : v.MayLeave l ran outcome (L.runs ⟨m, id⟩)) : Step L m v (v.leave m id ran outcome)
  | spawn {v : View} {wt : Wait} (acts : L.acts) (fresh : wt.stage = .submitted)
    (clamped : Settings.shortestPoll.nanos ≤ wt.poll.nanos) :
    Step L m v ({ v with waits := v.waits ++ [wt] }.wake (.wait v.waits.length))
  | mark {v : View} {w : Nat} {g : Wait → Wait} (acts : L.acts)
    (stage : ∀ wt, (g wt).stage = wt.stage)
    (manager : ∀ wt, (g wt).manager = wt.manager) (poll : ∀ wt, (g wt).poll = wt.poll) :
    Step L m v ((v.modifyWait w g).wake (.wait w))
  | listen {v : View} {w : Nat} {wt : Wait} (acts : L.acts)
    (turn : v.running = some (.wait w)) (found : v.waits[w]? = some wt)
    (first : wt.stage = .submitted) :
    Step L m v (v.setWaitStage w .listening)
  | signal {v : View} {w : Nat} {wt : Wait} {s : Signal} (acts : L.acts)
    (found : v.waits[w]? = some wt) (listens : wt.stage = .listening) :
    Step L m v ((v.setWaitStage w (.signalled s)).wake (.wait w))
  | poll {v : View} {w due : Nat} {wt : Wait} (acts : L.acts)
    (turn : v.running = some (.wait w)) (found : v.waits[w]? = some wt)
    (stopped : wt.manager = m → v.mgr.closed = true ∨ ∃ due', wt.stage = .polling due') :
    Step L m v ((v.setTimer w due).setWaitStage w (.polling due))
  | settle {v : View} {w : Nat} {wt : Wait} {result : WaitResult} (acts : L.acts)
    (turn : v.running = some (.wait w)) (found : v.waits[w]? = some wt)
    (drained : result = .ok → wt.manager = m → v.mgr.isDrained = true) :
    Step L m v ((v.setWaitStage w (.over result)).dropTimer w)

/-- What happens to the part of a fleet that concerns a manager, one thing after another. -/
abbrev Steps (L : Licence) (m : Nat) : View → View → Prop := Relation.ReflTransGen (Step L m)

theorem Step.mono {L L' : Licence} {m : Nat} {v v' : View} (le : L.Le L')
    (h : Step L m v v') : Step L' m v v' := by
  cases h with
  | tell aside => exact .tell aside
  | report held => exact .report held
  | enqueue licensed isNew => exact .enqueue (le.enrols m licensed) isNew
  | begin licensed isNew => exact .begin (le.enrols m licensed) isNew
  | launch licensed launching isOpen mute =>
      exact .launch (le.enrols m licensed) launching isOpen fun h => (mute h).imp_left (le.panics _)
  | launchLate licensed launching isClosed =>
      exact .launchLate (le.enrols m licensed) launching isClosed
  | run licensed isStarting named => exact .run (le.enrols m licensed) isStarting named
  | stop licensed isRunning sorted registered =>
      exact .stop (le.stops m licensed) isRunning sorted registered
  | nudge found begun => exact .nudge found begun
  | nudgeWait w => exact .nudgeWait w
  | permit found waits => exact .permit found waits
  | next acts idle first => exact .next (le.acts acts) idle first
  | elsewhere acts idle away => exact .elsewhere (le.acts acts) idle away
  | park acts may => exact .park (le.acts acts) may
  | lineUp acts turn found first isOpen slots full =>
      exact .lineUp (le.acts acts) turn found first isOpen slots full
  | enter acts licensed turn found can =>
      exact .enter (le.acts acts) (le.runs _ licensed) turn found can
  | proceed acts turn found inRun goal => exact .proceed (le.acts acts) turn found inRun goal
  | leave acts turn found mute ends why =>
      refine .leave (le.acts acts) turn found (fun h => le.panics _ (mute h))
        (fun o is ran => le.ends _ o (ends o is ran)) ?_
      exact why.imp_right (Or.imp_left fun h =>
        ⟨h.1, h.2.1, h.2.2.1, h.2.2.2.imp_right (le.runs _)⟩)
  | spawn acts fresh clamped => exact .spawn (le.acts acts) fresh clamped
  | mark acts stage manager poll => exact .mark (le.acts acts) stage manager poll
  | listen acts turn found first => exact .listen (le.acts acts) turn found first
  | signal acts found listens => exact .signal (le.acts acts) found listens
  | poll acts turn found stopped => exact .poll (le.acts acts) turn found stopped
  | settle acts turn found drained => exact .settle (le.acts acts) turn found drained

theorem Steps.mono {L L' : Licence} {m : Nat} {v v' : View} (le : L.Le L')
    (h : Steps L m v v') : Steps L' m v v' :=
  Relation.ReflTransGen.mono (fun _ _ => Step.mono le) v v' h

end Flotilla
