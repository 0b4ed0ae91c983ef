import Flotilla.Proofs.Simulation.Bots

/-!
# The other tasks as steps

One step of the task of a waiter is a call to its manager and a few steps of its own. The tasks
that pass events on do nothing to a manager but publish reports on its subscribers, and the
task that gives permits to bots wakes their runs.
-/

namespace Flotilla

/-! ## The subscribers of a set

What is done to a set leaves its subscribers as they are. -/

theorem Feed.subscriber_offer (feed : Feed) (e : Event) :
    (feed.offer e).subscriber = feed.subscriber := by
  unfold Feed.offer
  split <;> rfl

theorem Feed.subscriber_work (feed : Feed) (isOpen : Bool) :
    (feed.work isOpen).1.subscriber = feed.subscriber := by
  unfold Feed.work Feed.handOver
  split
  · split
    · dsimp only
      split
      · rfl
      · split <;> rfl
      · rfl
      · rfl
    · split <;> rfl
  · rfl
  · rfl

theorem Fanout.subscribers_offer (fanout : Fanout) (e : Event) :
    (fanout.offer e).feeds.map Feed.subscriber = fanout.feeds.map Feed.subscriber := by
  rw [Fanout.offer, List.map_map]
  exact List.map_congr_left fun feed _ => feed.subscriber_offer e

theorem Fanout.subscribers_work (fanout : Fanout) (i : Nat) :
    (fanout.work i).1.feeds.map Feed.subscriber = fanout.feeds.map Feed.subscriber := by
  unfold Fanout.work
  cases found : fanout.feeds[i]? with
  | none => rfl
  | some feed =>
      obtain ⟨inside, rfl⟩ := List.getElem?_eq_some_iff.mp found
      dsimp only
      rw [List.map_set, Feed.subscriber_work, ← List.map_set, List.set_getElem_self]

theorem Fanout.subscribers_release (fanout : Fanout) (i times : Nat) :
    (fanout.release i times).feeds.map Feed.subscriber = fanout.feeds.map Feed.subscriber := by
  have released (times : Nat) (feed : Feed) :
      (feed.releaseTimes times).subscriber = feed.subscriber := by
    induction times generalizing feed with
    | zero => rfl
    | succ n ih =>
        apply (ih feed.release).trans
        unfold Feed.release
        split <;> rfl
  refine List.ext_getElem? fun j => ?_
  rw [Fanout.release, List.getElem?_map, List.getElem?_map, List.getElem?_modify]
  cases fanout.feeds[j]? with
  | none => rfl
  | some feed =>
      show some (if i = j then feed.releaseTimes times else feed).subscriber = _
      split
      · rw [released]
        rfl
      · rfl

namespace Fleet

variable {L : Licence} {f f' : Fleet} {m m' w : Nat} {wt : Wait}

/-! ## Waiters -/

theorem wait_of_found (found : f.waits[w]? = some wt) : f.wait w = wt := by
  rw [wait, List.getD_eq_getElem?_getD, found]
  rfl

theorem wait_of_absent (absent : f.waits[w]? = none) : f.wait w = default := by
  rw [wait, List.getD_eq_getElem?_getD, absent]
  rfl

theorem found_of_wait {stage : WaitStage} (is : (f.wait w).stage = stage)
    (goesOn : stage.isOver = false) : f.waits[w]? = some (f.wait w) := by
  cases found : f.waits[w]? with
  | none =>
      rw [wait_of_absent found] at is
      rw [← is] at goesOn
      cases goesOn
  | some wt => rw [wait_of_found found]

theorem steady_modifyWait (f : Fleet) (w : Nat) {g : Wait → Wait}
    (same : ∀ wt, (g wt).manager = wt.manager) : Steady f (f.modifyWait w g) := by
  refine ⟨fun _ h => h, fun _ => rfl, fun _ => Iff.rfl, fun wt mem => ?_, fun _ => rfl⟩
  obtain ⟨i, inside, rfl⟩ := List.mem_iff_getElem.mp mem
  have inside' : i < f.waits.length := by simpa [modifyWait] using inside
  refine ⟨f.waits[i], List.getElem_mem inside', ?_⟩
  simp only [modifyWait, List.getElem_modify]
  split
  · exact (same _).symm
  · rfl

theorem steady_setWaitStage (f : Fleet) (w : Nat) (stage : WaitStage) :
    Steady f (f.modifyWait w fun wt => { wt with stage }) :=
  steady_modifyWait f w fun _ => rfl

def setTimers (f : Fleet) (timers : List Timer) : Fleet := { f with timers }

theorem steady_setTimers (f : Fleet) (timers : List Timer) : Steady f (f.setTimers timers) :=
  .of_eq rfl rfl rfl

/-- The task of a waiter may wait where its manager does not need it to go on. -/
theorem mayPark_wait {v : View} (turn : v.running = some (.wait w))
    (rests : ∀ wt due, v.waits[w]? = some wt → wt.manager = m → wt.stage = .polling due →
      wt.cancelled = false ∧ v.mgr.isDrained = false) : v.MayPark m where
  launch := fun id l running => by
    have same := turn.symm.trans running
    simp at same
  wait := by
    intro w' wt due running found eq stage woken
    have same := turn.symm.trans running
    simp only [Option.some.injEq, Task.wait.injEq] at same
    subst same
    obtain ⟨calm, busy⟩ := rests wt due found eq stage
    rw [calm, busy] at woken
    simp at woken

theorem leads_endWait (acts : L.acts) (turn : f.tasks.running = some (.wait w))
    (found : f.waits[w]? = some wt) {result : WaitResult}
    (drained : result = .ok → (f.manager wt.manager).isDrained = true) :
    Leads L f (f.endWait w result) := by
  have view (m : Nat) : (f.endWait w result).view m =
      (((f.view m).setWaitStage w (.over result)).dropTimer w).park := by
    unfold endWait
    dsimp only
    split
    · rfl
    · rw [view_park, view_wakeListener]
      rfl
  have steady : Steady f (f.endWait w result) := by
    have ended : Steady f ((f.modifyWait w fun wt => { wt with stage := .over result }).setTimers
        (f.timers.filter fun t => t.wait != w)) :=
      (steady_setWaitStage f w _).trans (steady_setTimers _ _)
    unfold endWait
    dsimp only
    split
    · exact ended.trans (steady_park _)
    · exact ended.trans ((steady_wakeListener _ _).trans (steady_park _))
  refine steady.leads fun _ m has => ?_
  rw [view]
  refine .head (.settle acts turn found fun ok eq => ?_)
    (.single (.park acts (mayPark_wait turn fun wt' due found' _ stage => ?_)))
  · rw [← eq]
    exact drained ok
  · have ended : ((f.view m).waits.modify w fun wt => { wt with stage := .over result })[w]? =
        some wt' := found'
    have found : (f.view m).waits[w]? = some wt := found
    rw [List.getElem?_modify_eq, found] at ended
    cases ended
    cases stage

theorem leads_lookAround (acts : L.acts) (turn : f.tasks.running = some (.wait w))
    (found : f.waits[w]? = some wt) {goOn : Fleet}
    (goes : wt.cancelled = false → (f.manager wt.manager).isDrained = false →
      Leads L f goOn) : Leads L f (f.lookAround w goOn) := by
  unfold lookAround
  rw [wait_of_found found]
  cases cancelled : wt.cancelled with
  | true =>
      have said := leads_say L f .debug "interrupted while waiting for bots to terminate" [] none
      exact said.trans (leads_endWait (f := f.say _ _ _ _) acts turn found nofun)
  | false =>
      rw [if_neg Bool.false_ne_true]
      cases drained : (f.manager wt.manager).isDrained with
      | true => exact leads_endWait acts turn found fun _ => drained
      | false => exact goes cancelled drained

theorem length_outstandingLabels (f : Fleet) (regs : List (Nat × Launch))
    {labels : List (Nat × String)} (ok : f.outstandingLabels regs = .ok labels) :
    labels.length = regs.length := by
  induction regs generalizing labels with
  | nil =>
      cases ok
      rfl
  | cons x rest ih =>
      obtain ⟨id, l⟩ := x
      rw [outstandingLabels] at ok
      split at ok
      · cases ok
      · cases tail : f.outstandingLabels rest with
        | error text =>
            rw [tail] at ok
            cases ok
        | ok labels' =>
            rw [tail] at ok
            cases ok
            rw [List.length_cons, ih tail, List.length_cons]

theorem length_outstanding {labels : List String} (ok : f.outstanding m = .ok labels) :
    labels.length = (f.manager m).registry.length := by
  unfold outstanding at ok
  cases asked : f.outstandingLabels (f.manager m).walked with
  | error text =>
      rw [asked] at ok
      cases ok
  | ok labelled =>
      rw [asked] at ok
      cases ok
      rw [List.length_map, (sortBy_perm Prod.fst labelled).length_eq,
        length_outstandingLabels f _ asked, (f.manager m).walked_perm.length_eq]

/-- A waiter reports as many bots as are registered, if there are any. -/
theorem leads_reportOutstanding (L : Licence) {labels : List String} (poll : Duration)
    (all : labels.length = (f.manager m).registry.length) :
    Leads L f (f.reportOutstanding m poll labels) := by
  unfold reportOutstanding
  split
  · exact .refl L f
  · rename_i some
    refine (leads_say L f _ _ _ _).trans (leads_publish fun _ _ => ?_)
    rw [all]
    refine .report fun none => some ?_
    have none : (f.manager m).registry = [] := none
    rw [none] at all
    rw [List.length_eq_zero_iff.mp all]
    rfl

theorem view_reportOutstanding (has : f.Has m) (poll : Duration) (labels : List String) :
    (f.reportOutstanding m poll labels).view m =
      if labels.isEmpty then f.view m
      else (f.view m).publish (.waitingForBots labels.length) := by
  unfold reportOutstanding
  split
  · rfl
  · dsimp only
    rw [view_publish (by simpa using has), view_say]

theorem leads_pollBots (acts : L.acts) (turn : f.tasks.running = some (.wait w))
    (found : f.waits[w]? = some wt)
    (stopped : (f.manager wt.manager).closed = true ∨ ∃ due, wt.stage = .polling due) :
    Leads L f (f.pollBots w) := by
  refine .of_ready fun ready => ?_
  unfold pollBots
  rw [wait_of_found found]
  dsimp only
  split
  · exact leads_endWait acts turn found nofun
  · rename_i labels ok
    have has : f.Has wt.manager := ready.owned wt (List.mem_of_getElem? found)
    have reported := leads_reportOutstanding L wt.poll (length_outstanding ok)
    have view := view_reportOutstanding has wt.poll labels
    generalize f.reportOutstanding wt.manager wt.poll labels = g at reported view ⊢
    have same : (f.view wt.manager).Local (g.view wt.manager) := by
      rw [view]
      split
      · exact .refl _
      · exact View.local_modify _ _
    have closed : (g.manager wt.manager).closed = (f.manager wt.manager).closed := by
      show (g.view wt.manager).mgr.closed = (f.view wt.manager).mgr.closed
      rw [view]
      split <;> rfl
    have turn : g.tasks.running = some (.wait w) := same.running.trans turn
    have waits : g.waits = f.waits := same.waits
    have found : g.waits[w]? = some wt := by rw [waits, found]
    refine reported.trans (leads_lookAround acts turn found fun calm busy => ?_)
    generalize g.clock + wt.poll.ceilMillis = due
    have steady : Steady g (((g.setTimers ((g.timers.filter fun t => t.wait != w) ++
        [{ wait := w, due }])).modifyWait w fun wt => { wt with stage := .polling due }).park) :=
      (steady_setTimers g _).trans ((steady_setWaitStage _ w _).trans (steady_park _))
    refine steady.leads fun _ m _ => ?_
    show Steps L m (g.view m) (((g.view m).setTimer w due).setWaitStage w (.polling due)).park
    refine .head (.poll acts turn found fun eq => ?_) (.single (.park acts (mayPark_wait turn
      fun wt' due' found' eq _ => ?_)))
    · rw [← eq]
      exact stopped.imp_left closed.trans
    · have polls : (g.waits.modify w fun wt => { wt with stage := .polling due })[w]? =
          some wt' := found'
      rw [List.getElem?_modify_eq, found] at polls
      cases polls
      rw [← eq]
      exact ⟨calm, busy⟩

/-- What a call does to the task being run and to the waiters is nothing. -/
theorem Leads.idle (h : Leads L.rest f f') (ready : f.Ready L)
    (turn : f.tasks.running = some (.wait w)) (found : f.waits[w]? = some wt) :
    f'.tasks.running = some (.wait w) ∧ f'.waits[w]? = some wt := by
  have steps := h.steps ⟨ready.toSound, ready.named⟩ wt.manager
    (ready.owned wt (List.mem_of_getElem? found))
  have same := steps.local_of_rest id
  have waits : f'.waits = f.waits := same.waits
  exact ⟨same.running.trans turn, by rw [waits, found]⟩

/-- What a waiter does after it started its manager, or failed to, launches nobody. -/
theorem leads_started (acts : L.acts) (ready : f.Ready L)
    (turn : f.tasks.running = some (.wait w)) (found : f.waits[w]? = some wt)
    (first : wt.stage = .submitted) :
    Leads L (f.start wt.manager none).1 (f.beginListening w) := by
  unfold beginListening
  rw [wait_of_found found]
  have started := leads_start (L := L.unbound.rest) (m := wt.manager) trivial f none
  obtain ⟨turn, found⟩ := started.idle ready.unbound turn found
  generalize f.start wt.manager none = result at *
  rcases result with ⟨g, _ | halt⟩
  · have steady : Steady g ((g.modifyWait w fun wt => { wt with stage := .listening }).park) :=
      (steady_setWaitStage g w _).trans (steady_park _)
    refine steady.leads fun _ m _ => ?_
    show Steps L m (g.view m) ((g.view m).setWaitStage w .listening).park
    refine .head (.listen acts turn found first) (.single (.park acts (mayPark_wait turn
      fun wt' due found' _ stage => ?_)))
    have listens : (g.waits.modify w fun wt => { wt with stage := .listening })[w]? =
        some wt' := found'
    rw [List.getElem?_modify_eq, found] at listens
    cases listens
    cases stage
  · exact leads_endWait acts turn found nofun

theorem leads_beginListening (acts : L.acts) (turn : f.tasks.running = some (.wait w))
    (found : f.waits[w]? = some wt) (first : wt.stage = .submitted)
    (enrols : L.enrols wt.manager) : Leads L f (f.beginListening w) :=
  .of_ready fun ready => (leads_start enrols f none).trans
    (leads_started acts ready turn found first)

theorem closed_stop (has : f.Has m) {span : Option Span}
    (succeeded : (f.stop m span).2 = none) : ((f.stop m span).1.manager m).closed = true := by
  by_cases isRunning : (f.manager m).phase = .running
  · obtain ⟨asked, said, woken, stopping⟩ := stop_of_running has isRunning span
    show ((f.stop m span).1.view m).mgr.closed = true
    rw [stopping.here, View.wakeAll_mgr, View.stop_mgr]
  · rw [stop_of_not_running isRunning] at succeeded
    cases succeeded

/-- What a waiter does after it stopped its manager, or failed to, stops nothing. -/
theorem leads_stopped (acts : L.acts) (ready : f.Ready L)
    (turn : f.tasks.running = some (.wait w)) (found : f.waits[w]? = some wt)
    (stops : (f.manager wt.manager).phase = .running → L.stops wt.manager) :
    Leads L (f.stop wt.manager none).1 (f.beginWaiting w) := by
  unfold beginWaiting
  rw [wait_of_found found]
  have stopped := leads_stop (L := L.rest) f wt.manager none stops
  have closed : (f.stop wt.manager none).2 = none → _ :=
    closed_stop (ready.owned wt (List.mem_of_getElem? found))
  obtain ⟨turn, found⟩ := stopped.idle ready turn found
  generalize f.stop wt.manager none = result at *
  rcases result with ⟨g, _ | halt⟩
  · exact leads_pollBots acts turn found (Or.inl (closed rfl))
  · exact leads_endWait acts turn found nofun

theorem leads_beginWaiting (acts : L.acts) (turn : f.tasks.running = some (.wait w))
    (found : f.waits[w]? = some wt)
    (stops : (f.manager wt.manager).phase = .running → L.stops wt.manager) :
    Leads L f (f.beginWaiting w) :=
  .of_ready fun ready => (leads_stop f wt.manager none stops).trans
    (leads_stopped acts ready turn found stops)

/-- A waiter that got a signal has announced it. -/
def heeded (f : Fleet) (m : Nat) (s : Signal) : Fleet :=
  let f := f.say .debug "termination signal observed" [("signal", .text s.label)] none
  let f := f.say .info "shutdown signal received" [f.numberField m] none
  f.publish m .shutdownRequested

theorem heedSignal_eq (f : Fleet) (w : Nat) (s : Signal) :
    f.heedSignal w s = (f.heeded (f.wait w).manager s).beginWaiting w := rfl

theorem leads_heeded (L : Licence) (f : Fleet) (m : Nat) (s : Signal) :
    Leads L f (f.heeded m s) :=
  ((leads_say L f _ _ _ _).trans (leads_say L _ _ _ _ _)).trans
    (leads_publish fun _ _ => .tell ⟨Or.inr rfl, rfl, rfl, rfl⟩)

theorem leads_heedSignal (acts : L.acts) (turn : f.tasks.running = some (.wait w))
    (found : f.waits[w]? = some wt) (s : Signal)
    (stops : ((f.heeded wt.manager s).manager wt.manager).phase = .running →
      L.stops wt.manager) : Leads L f (f.heedSignal w s) := by
  refine .of_ready fun ready => ?_
  rw [heedSignal_eq, wait_of_found found]
  have told := leads_heeded L.rest f wt.manager s
  obtain ⟨turn, found⟩ := told.idle ready turn found
  exact told.of_rest.trans (leads_beginWaiting acts turn found stops)

/-- One step of the task of a waiter is a sequence of steps: its manager is started or stopped
only if that is licensed. -/
theorem leads_stepWait (acts : L.acts) (turn : f.tasks.running = some (.wait w))
    (stops : (f.wait w).stage = .submitted → (f.wait w).purpose = .stop →
      (f.wait w).aborted = false → (f.manager (f.wait w).manager).phase = .running →
        L.stops (f.wait w).manager)
    (signalled : ∀ s, (f.wait w).stage = .signalled s → (f.wait w).aborted = false →
      ((f.heeded (f.wait w).manager s).manager (f.wait w).manager).phase = .running →
        L.stops (f.wait w).manager)
    (starts : (f.wait w).stage = .submitted → (f.wait w).purpose = .untilSignal →
      (f.wait w).aborted = false → L.enrols (f.wait w).manager) : Leads L f (f.stepWait w) := by
  have parks (rests : ∀ wt due, f.waits[w]? = some wt → wt.stage = .polling due →
      wt.cancelled = false ∧ (f.manager wt.manager).isDrained = false) : Leads L f f.park := by
    refine leads_park acts fun _ m _ => mayPark_wait turn fun wt due found eq stage => ?_
    rw [← eq]
    exact rests wt due found stage
  unfold stepWait
  dsimp only
  cases found : f.waits[w]? with
  | none =>
      rw [wait_of_absent found]
      exact parks fun wt due found' => by rw [found] at found'; cases found'
  | some wt =>
      rw [wait_of_found found] at stops signalled starts ⊢
      cases stage : wt.stage with
      | «over» result =>
          refine parks fun wt' due found' stage' => ?_
          cases found.symm.trans found'
          cases stage.symm.trans stage'
      | submitted =>
          cases aborted : wt.aborted with
          | true => exact leads_endWait acts turn found nofun
          | false =>
              cases purpose : wt.purpose with
              | stop => exact leads_beginWaiting acts turn found (stops stage purpose aborted)
              | untilSignal =>
                  exact leads_beginListening acts turn found stage (starts stage purpose aborted)
      | listening =>
          cases aborted : wt.aborted with
          | true => exact leads_endWait acts turn found nofun
          | false =>
              refine parks fun wt' due found' stage' => ?_
              cases found.symm.trans found'
              cases stage.symm.trans stage'
      | signalled s =>
          cases aborted : wt.aborted with
          | true => exact leads_endWait acts turn found nofun
          | false => exact leads_heedSignal acts turn found s (signalled s stage aborted)
      | polling due =>
          cases aborted : wt.aborted with
          | true => exact leads_endWait acts turn found nofun
          | false =>
              refine leads_lookAround acts turn found fun calm busy => ?_
              split
              · exact leads_pollBots acts turn found (Or.inr ⟨due, stage⟩)
              · refine parks fun wt' due' found' _ => ?_
                cases found.symm.trans found'
                exact ⟨calm, busy⟩

/-! ## Listeners and workers -/

theorem mayPark_aside {v : View} {t : Task} (turn : v.running = some t)
    (away : t.concerns m = false) : v.MayPark m where
  launch := fun id l running => by
    rw [turn] at running
    cases running
    simp [Task.concerns] at away
  wait := fun w wt due running => by
    rw [turn] at running
    cases running
    simp [Task.concerns] at away

theorem leads_park_aside {t : Task} (acts : L.acts) (turn : f.tasks.running = some t)
    (away : ∀ m, t.concerns m = false) : Leads L f f.park :=
  leads_park acts fun _ m _ => mayPark_aside turn (away m)

theorem leads_modifyRelay (L : Licence) (f : Fleet) (m : Nat) (g : Relay → Relay)
    (same : ∀ r, (f.manager m).relay = some r → (g r).subscribers = r.subscribers) :
    Leads L f (f.modifyRelay m g) :=
  (steady_modifyManager f m _ (Manager.subscribers_modifyRelay same)).leads_of_view fun _ =>
    view_modifyRelay g

theorem leads_wakeAll_worker (L : Licence) (f : Fleet) (m : Nat) (is : List Nat) :
    Leads L f (f.wakeAll (is.map (Task.worker m))) := by
  refine leads_wakeAll fun g t mem _ => ?_
  obtain ⟨i, -, rfl⟩ := List.mem_map.mp mem
  exact leads_wake_aside L g fun _ => rfl

theorem overflow_isAside {feed : Feed} {e report : Event} (h : feed.overflow? e = some report) :
    report.IsAside := by
  unfold Feed.overflow? at h
  split at h
  · cases h
  · obtain ⟨refusal, -, rfl⟩ := Option.map_eq_some_iff.mp h
    exact ⟨Or.inl rfl, rfl, rfl, rfl⟩

theorem report_isAside {feed : Feed} {isOpen : Bool} {report : Event}
    (h : (feed.work isOpen).2.1 = some report) : report.IsAside := by
  unfold Feed.work at h
  split at h
  · split at h
    · unfold Feed.handOver at h
      dsimp only at h
      split at h
      · cases h
      · split at h <;> cases h
      · cases h
        exact ⟨Or.inl rfl, rfl, rfl, rfl⟩
      · cases h
    · split at h <;> cases h
  · cases h
  · cases h

theorem leads_deliver (L : Licence) {fanout : Fanout} (e : Event)
    (here : ∀ r, (f.manager m).relay = some r → r.fanout = fanout) :
    Leads L f (f.deliver m fanout e) := by
  have offered (r : Relay) (relay : (f.manager m).relay = some r) :
      Relay.subscribers { r with fanout := fanout.offer e } = r.subscribers := by
    rw [← here r relay]
    exact Fanout.subscribers_offer _ e
  refine ((leads_modifyRelay L f m _ offered).trans (leads_wakeAll_worker L _ m _)).trans
    (leads_publishAll L _ m _ fun report mem => ?_)
  obtain ⟨feed, -, overflow⟩ := List.mem_filterMap.mp mem
  exact overflow_isAside overflow

/-- A manager with a relay is there. -/
theorem has_of_relay {relay : Relay} (here : (f.manager m).relay = some relay) : f.Has m := by
  apply Classical.byContradiction
  intro out
  rw [manager_of_not_has out] at here
  cases here

theorem relay_modifyRelay {relay : Relay} (here : (f.manager m).relay = some relay)
    (g : Relay → Relay) : ((f.modifyRelay m g).manager m).relay = some (g relay) := by
  unfold modifyRelay
  rw [manager_modifyManager_self (has_of_relay here), Manager.modifyRelay, here]
  rfl

theorem leads_stepListener (acts : L.acts) (turn : f.tasks.running = some (.listener m)) :
    Leads L f (f.stepListener m) := by
  have parks {g : Fleet} (lead : Leads L f g) (still : g.tasks.running = f.tasks.running) :
      Leads L f g.park :=
    lead.trans (leads_park_aside acts (still.trans turn) fun _ => rfl)
  unfold stepListener
  split
  · exact parks (.refl L f) rfl
  · rename_i relay here
    dsimp only
    split
    · split
      · refine (leads_modifyRelay L f m _ fun _ _ => by rfl).trans
          (leads_deliver L _ fun r relayed => ?_)
        cases (relay_modifyRelay here _).symm.trans relayed
        rfl
      · exact (leads_modifyRelay L f m _ fun _ _ => by rfl).trans (leads_say L _ _ _ _ _)
      · unfold listenerRests
        split
        · exact ((leads_modifyRelay L f m _ fun _ _ => by rfl).trans
            (leads_modifyRelay L _ m _ fun _ _ => by rfl)).trans
              (leads_park_aside acts turn fun _ => rfl)
        · exact (leads_modifyRelay L f m _ fun _ _ => by rfl).trans
            (leads_modifyRelay L _ m _ fun _ _ => by rfl)
    · refine (leads_modifyRelay L f m _ fun r _ => ?_).trans (leads_wakeAll_worker L _ m _)
      unfold Relay.subscribers Fanout.close
      rw [List.map_map]
      rfl
    · exact parks (leads_modifyRelay L f m _ fun _ _ => by rfl) rfl
    · exact parks (.refl L f) rfl
    · exact parks (.refl L f) rfl

theorem running_publish (f : Fleet) (m : Nat) (e : Event) :
    (f.publish m e).tasks.running = f.tasks.running := by
  unfold publish wakeListener
  split
  · exact Scheduler.running_wake _ _
  · rfl

theorem running_publishAll (f : Fleet) (m : Nat) (es : List Event) :
    (f.publishAll m es).tasks.running = f.tasks.running := by
  induction es generalizing f with
  | nil => rfl
  | cons e es ih => exact (ih _).trans (running_publish f m e)

theorem leads_stepWorker {i : Nat} (acts : L.acts)
    (turn : f.tasks.running = some (.worker m i)) : Leads L f (f.stepWorker m i) := by
  unfold stepWorker
  split
  · exact leads_park_aside acts turn fun _ => rfl
  · rename_i relay here
    have aside : ∀ report ∈ (relay.fanout.work i).2.1.toList, report.IsAside := by
      intro report mem
      rw [Option.mem_toList] at mem
      unfold Fanout.work at mem
      split at mem
      · cases mem
      · exact report_isAside mem
    have kept := Fanout.subscribers_work relay.fanout i
    generalize relay.fanout.work i = worked at aside kept ⊢
    rcases worked with ⟨fanout, report, pace⟩
    dsimp only at aside ⊢
    have worked := leads_modifyRelay L f m (fun r => { r with fanout }) fun r relayed => by
      cases here.symm.trans relayed
      exact kept
    have told := worked.trans (leads_publishAll L _ m report.toList aside)
    have still := (running_publishAll (f.modifyRelay m fun r => { r with fanout }) m
      report.toList).trans turn
    generalize (f.modifyRelay m fun r => { r with fanout }).publishAll m report.toList = g
      at told still ⊢
    cases pace with
    | again => exact told
    | waits => exact told.trans (leads_park_aside acts still fun _ => rfl)
    | «over» =>
        apply told.trans
        dsimp only
        unfold workerGone
        split
        · refine (leads_wake_aside L g fun _ => rfl).trans
            (leads_park_aside (t := .worker m i) acts ?_ fun _ => rfl)
          exact (Scheduler.running_wake _ _).trans still
        · exact leads_park_aside (t := .worker m i) acts still fun _ => rfl

/-! ## Dismissals -/

theorem leads_addPermits (L : Licence) (f : Fleet) (bots : List Nat) :
    Leads L f (f.addPermits bots) := by
  induction bots generalizing f with
  | nil => exact .refl L f
  | cons b bots ih => exact (leads_addPermit L f b).trans (ih _)

theorem running_addPermits (f : Fleet) (bots : List Nat) :
    (f.addPermits bots).tasks.running = f.tasks.running := by
  induction bots generalizing f with
  | nil => rfl
  | cons b bots ih =>
      apply (ih _).trans
      unfold addPermit
      split
      · rfl
      · exact Scheduler.running_wake _ _

theorem leads_setDismissal (L : Licence) (f : Fleet) (d : Dismissal) :
    Leads L f { f with dismissal := d } :=
  Steady.leads_of_view (.of_eq rfl rfl rfl) fun _ => rfl

theorem leads_stepDismissal (acts : L.acts) (turn : f.tasks.running = some .dismissal) :
    Leads L f f.stepDismissal := by
  have parks {g : Fleet} (lead : Leads L f g) (still : g.tasks.running = f.tasks.running) :
      Leads L f g.park :=
    lead.trans (leads_park_aside acts (still.trans turn) fun _ => rfl)
  have wakes (g : Fleet) : Leads L g (g.wake .dismissal) := leads_wake_aside L g fun _ => rfl
  unfold stepDismissal
  dsimp only
  split
  · exact parks (.refl L f) rfl
  · exact parks ((leads_setDismissal L f _).trans (wakes _)) (Scheduler.running_wake _ _)
  · split
    · exact parks (((leads_setDismissal L f _).trans (leads_addPermits L _ _)).trans (wakes _))
        ((Scheduler.running_wake _ _).trans (running_addPermits _ _))
    · exact parks ((leads_setDismissal L f _).trans (leads_addPermits L _ _))
        (running_addPermits _ _)

end Fleet

end Flotilla
