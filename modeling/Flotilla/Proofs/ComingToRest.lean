import Flotilla.Proofs.Effort
import Flotilla.Proofs.Reach

/-!
# Listeners and workers come to rest

The reports of listeners and workers go to the bus that the listeners read, so they are offered
to the subscribers in turn. Where no handler panics in all its calls the listeners and workers
come to rest nevertheless: each of their turns lowers `Fleet.effort` (`Fleet.effort_turn_lt`), so
they have no more turns, and publish no more events, than that says, as long as no other task
has a turn (`Fleet.Undisturbed`), which is so where nothing else can go on
(`Fleet.OnlyRelays.undisturbed`). In a run the subscribers are those the managers were built
with, so this holds at every point of a run (`Fleet.comes_to_rest`).
-/

namespace Flotilla

/-- Whether a task passes events on to subscribers. -/
def Task.isRelay : Task → Bool
  | .listener _ | .worker _ _ => true
  | _ => false

/-- A manager just built has the subscribers it is built with. -/
theorem ManagerPlan.subscribers_build (p : ManagerPlan) : p.build.subscribers = p.subscribers := by
  unfold ManagerPlan.build Manager.build Manager.subscribers
  dsimp only
  split
  · rename_i none
    split at none
    · rename_i empty
      exact (List.isEmpty_iff.mp empty).symm
    · cases none
  · rename_i relay some
    split at some
    · cases some
    · cases some
      unfold Relay.subscribers Fanout.ofSubscribers
      rw [List.map_map]
      exact List.map_id _

namespace Fleet

/-- A task is being run or stands in line. -/
def IsDue (f : Fleet) (t : Task) : Prop := f.tasks.running = some t ∨ t ∈ f.tasks.ready

/-- Two fleets have the same clock, timers and waiters. -/
structure SameTimes (f g : Fleet) : Prop where
  clock : g.clock = f.clock
  timers : g.timers = f.timers
  waits : g.waits = f.waits

/-- Nothing but the tasks that pass events on can go on. -/
def OnlyRelays (f : Fleet) : Prop := ∀ t, f.IsDue t → t.isRelay = true

/-- The task being run, if there is one, passes events on. -/
def RunsRelay (f : Fleet) : Prop := ∀ t, f.tasks.running = some t → t.isRelay = true

/-- In the next so many turns, only the tasks that pass events on are run. -/
def Undisturbed (f : Fleet) (n : Nat) : Prop :=
  ∀ k, k < n → (f.play (List.replicate k .turn)).RunsRelay

variable {f g : Fleet} {m i : Nat} {t : Task}

theorem SameTimes.refl (f : Fleet) : f.SameTimes f := ⟨rfl, rfl, rfl⟩

theorem SameTimes.trans {h : Fleet} (first : f.SameTimes g) (next : g.SameTimes h) :
    f.SameTimes h :=
  ⟨next.clock.trans first.clock, next.timers.trans first.timers, next.waits.trans first.waits⟩

/-! ## What a listener or a worker does to others -/

/-- What a listener or a worker of a manager does to the rest of the fleet: whoever stands in
line still does, nothing but listeners and workers becomes due, and the other managers, those who
wait and the time are as they were. -/
structure PassesOn (m : Nat) (f g : Fleet) : Prop where
  line : ∀ t ∈ f.tasks.ready, t ∈ g.tasks.ready
  due : ∀ t, g.IsDue t → f.IsDue t ∨ t.isRelay = true
  others : ∀ m', m ≠ m' → g.manager m' = f.manager m'
  times : f.SameTimes g

theorem PassesOn.refl (m : Nat) (f : Fleet) : PassesOn m f f :=
  ⟨fun _ => id, fun _ => Or.inl, fun _ _ => rfl, .refl f⟩

theorem PassesOn.trans {h : Fleet} (first : PassesOn m f g) (next : PassesOn m g h) :
    PassesOn m f h :=
  ⟨fun t mem => next.line t (first.line t mem),
    fun t due => (next.due t due).elim (first.due t) Or.inr,
    fun m' ne => (next.others m' ne).trans (first.others m' ne), first.times.trans next.times⟩

theorem passesOn_modifyManager (f : Fleet) (m : Nat) (change : Manager → Manager) :
    PassesOn m f (f.modifyManager m change) :=
  ⟨fun _ => id, fun _ => Or.inl, fun _ ne => manager_modifyManager_ne ne change, ⟨rfl, rfl, rfl⟩⟩

theorem passesOn_wake (m : Nat) (f : Fleet) (is : t.isRelay = true) : PassesOn m f (f.wake t) := by
  refine ⟨fun u mem => Scheduler.mem_ready_wake.mpr (Or.inl mem), fun u due => ?_, fun _ _ => rfl,
    ⟨rfl, rfl, rfl⟩⟩
  rcases due with turn | mem
  · exact Or.inl (Or.inl ((Scheduler.running_wake f.tasks t).symm.trans turn))
  · rcases Scheduler.mem_ready_wake.mp mem with mem | rfl
    · exact Or.inl (Or.inr mem)
    · exact Or.inr is

theorem passesOn_wakeAll (f : Fleet) (m : Nat) (is : List Nat) :
    PassesOn m f (f.wakeAll (is.map (Task.worker m))) := by
  induction is generalizing f with
  | nil => exact .refl m f
  | cons i is ih => exact (passesOn_wake m f rfl).trans (ih (f.wake (.worker m i)))

theorem passesOn_park (m : Nat) (f : Fleet) : PassesOn m f f.park := by
  refine ⟨fun _ => id, fun u due => ?_, fun _ _ => rfl, ⟨rfl, rfl, rfl⟩⟩
  rcases due with turn | mem
  · cases turn
  · exact Or.inl (Or.inr mem)

theorem passesOn_publish (f : Fleet) (m : Nat) (e : Event) : PassesOn m f (f.publish m e) := by
  unfold publish wakeListener
  split
  · exact ((passesOn_modifyManager f m _).trans (passesOn_modifyManager _ m _)).trans
      (passesOn_wake m _ rfl)
  · exact passesOn_modifyManager f m _

theorem passesOn_publishAll (f : Fleet) (m : Nat) (es : List Event) :
    PassesOn m f (f.publishAll m es) := by
  induction es generalizing f with
  | nil => exact .refl m f
  | cons e es ih => exact (passesOn_publish f m e).trans (ih (f.publish m e))

theorem passesOn_stepListener (f : Fleet) (m : Nat) : PassesOn m f (f.stepListener m) := by
  have changed (g : Fleet) (change : Relay → Relay) : PassesOn m g (g.modifyRelay m change) :=
    passesOn_modifyManager g m _
  unfold stepListener
  split
  · exact passesOn_park m f
  · dsimp only
    split
    · split
      · exact (((changed f _).trans (changed _ _)).trans (passesOn_wakeAll _ m _)).trans
          (passesOn_publishAll _ m _)
      · exact ⟨fun _ => id, fun _ => Or.inl, fun _ ne => manager_modifyManager_ne ne _,
          ⟨rfl, rfl, rfl⟩⟩
      · unfold listenerRests
        split
        · exact ((changed f _).trans (changed _ _)).trans (passesOn_park m _)
        · exact (changed f _).trans (changed _ _)
    · exact (changed f _).trans (passesOn_wakeAll _ m _)
    · exact (changed f _).trans (passesOn_park m _)
    · exact passesOn_park m f
    · exact passesOn_park m f

theorem passesOn_stepWorker (f : Fleet) (m i : Nat) : PassesOn m f (f.stepWorker m i) := by
  unfold stepWorker
  split
  · exact passesOn_park m f
  · rename_i relay _
    rcases relay.fanout.work i with ⟨fanout, report, pace⟩
    have told : PassesOn m f ((f.modifyRelay m fun r => { r with fanout }).publishAll m
        report.toList) :=
      (passesOn_modifyManager f m _).trans (passesOn_publishAll _ m _)
    cases pace with
    | again => exact told
    | waits => exact told.trans (passesOn_park m _)
    | «over» =>
        refine told.trans ?_
        dsimp only
        unfold workerGone
        split
        · exact (passesOn_wake m _ rfl).trans (passesOn_park m _)
        · exact passesOn_park m _

/-! ## Nothing else can go on -/

theorem ready_of_next {tasks tasks' : Scheduler Task} (next : tasks.next? = some tasks') :
    ∃ t, tasks.ready = t :: tasks'.ready ∧ tasks'.running = some t := by
  unfold Scheduler.next? at next
  split at next
  · cases next
  · rename_i t rest first
    cases next
    exact ⟨t, first, rfl⟩

theorem PassesOn.onlyRelays (passes : PassesOn m f g) (only : f.OnlyRelays) : g.OnlyRelays :=
  fun t due => (passes.due t due).elim (only t) id

/-- The first in line is run next, and nothing else becomes due. -/
theorem isDue_of_next {tasks : Scheduler Task} (next : f.tasks.next? = some tasks)
    (idle : f.tasks.running = none) : IsDue { f with tasks } t ↔ f.IsDue t := by
  obtain ⟨u, first, turn⟩ := ready_of_next next
  unfold IsDue
  rw [first, idle, List.mem_cons]
  show tasks.running = some t ∨ _ ↔ _
  rw [turn, Option.some.injEq, eq_comm]
  simp only [reduceCtorEq, false_or]

/-- Where only listeners and workers can go on, a turn leaves it at that. -/
theorem onlyRelays_turn (only : f.OnlyRelays) : (f.move .turn).OnlyRelays := by
  unfold move step?
  cases turn : f.tasks.running with
  | none =>
      cases next : f.tasks.next? with
      | none => exact only
      | some tasks => exact fun t due => only t ((isDue_of_next next turn).mp due)
  | some t =>
      have relay := only t (Or.inl turn)
      cases t with
      | listener m => exact (passesOn_stepListener f m).onlyRelays only
      | worker m i => exact (passesOn_stepWorker f m i).onlyRelays only
      | bot | wait | dismissal => cases relay

theorem OnlyRelays.runsRelay (only : f.OnlyRelays) : f.RunsRelay :=
  fun t turn => only t (Or.inl turn)

/-- Where nothing but listeners and workers can go on, no other task comes to have a turn. -/
theorem OnlyRelays.undisturbed (only : f.OnlyRelays) (n : Nat) : f.Undisturbed n := by
  rintro k -
  induction k generalizing f with
  | zero => exact only.runsRelay
  | succ k ih =>
      rw [List.replicate_succ, play_cons]
      exact ih (onlyRelays_turn only)

/-! ## Coming to rest -/

/-- The handlers of a fleet's subscribers panic in finitely many calls only. -/
def PanicsFinitely (f : Fleet) : Prop := ∀ m, ∀ s ∈ f.subscribers m, s.PanicsFinitely

theorem tasksEffort_pos {tasks : Scheduler Task} (goesOn : tasks.isSettled = false) :
    0 < tasksEffort tasks := by
  have task (t : Task) : 1 ≤ t.effort := by cases t <;> simp [Task.effort]
  unfold tasksEffort
  cases turn : tasks.running with
  | some t => exact Nat.lt_of_lt_of_le (task t) (Nat.le_add_left _ _)
  | none =>
      cases line : tasks.ready with
      | nil => simp [Scheduler.isSettled, line, turn] at goesOn
      | cons t ts =>
          rw [List.map_cons, List.sum_cons]
          omega

theorem tasksEffort_next_lt {tasks tasks' : Scheduler Task} (idle : tasks.running = none)
    (next : tasks.next? = some tasks') : tasksEffort tasks' < tasksEffort tasks := by
  obtain ⟨t, first, turn⟩ := ready_of_next next
  simp only [tasksEffort, idle, first, turn, List.map_cons, List.sum_cons, Option.map_some,
    Option.map_none, Option.getD_some, Option.getD_none]
  omega

/-- The subscribers are those a manager was built with. -/
theorem subscribers_move (sound : f.Sound) (mv : Move) (m : Nat) :
    (f.move mv).subscribers m = f.subscribers m := by
  cases mv with
  | arm | disarm => rfl
  | _ =>
      exact (leads_move f (fun _ _ eq => by cases eq) fun _ _ eq => by cases eq).subscribers
        (sound.ready fun _ panics => panics) m

theorem subscribers_play (sound : f.Sound) (ms : List Move) (m : Nat) :
    (f.play ms).subscribers m = f.subscribers m := by
  induction ms generalizing f with
  | nil => rfl
  | cons mv ms ih => exact (ih (steps_move sound mv).1).trans (subscribers_move sound mv m)

/-- A turn of a listener or a worker, or the turn that gives one the next turn, lowers the
measure. -/
theorem effort_turn_lt (relays : f.RunsRelay) (finite : f.PanicsFinitely)
    (goesOn : f.tasks.isSettled = false) : (f.move .turn).effort < f.effort := by
  unfold move step?
  cases turn : f.tasks.running with
  | none =>
      cases next : f.tasks.next? with
      | none =>
          rw [Scheduler.next?_eq_none_iff] at next
          simp [Scheduler.isSettled, next, turn] at goesOn
      | some tasks => exact Nat.add_lt_add_left (tasksEffort_next_lt turn next) _
  | some t =>
      have relay := relays t turn
      cases t with
      | listener m => exact effort_stepListener_lt turn
      | worker m i => exact effort_stepWorker_lt turn (finite m)
      | bot | wait | dismissal => cases relay

theorem move_of_settled (settled : f.tasks.isSettled = true) : f.move .turn = f := by
  obtain ⟨ready, running⟩ := Bool.and_eq_true_iff.mp settled
  unfold move step?
  rw [Option.isNone_iff_eq_none.mp running]
  dsimp only
  rw [Scheduler.next?_eq_none_iff.mpr (List.isEmpty_iff.mp ready)]
  rfl

theorem play_of_settled (settled : f.tasks.isSettled = true) (n : Nat) :
    f.play (List.replicate n .turn) = f := by
  induction n with
  | zero => rfl
  | succ n ih => rw [List.replicate_succ, play_cons, move_of_settled settled, ih]

/-- Going on until nothing can go on is making turns. -/
theorem runToRest_eq_play (n : Nat) (f : Fleet) :
    runToRest step? n f = f.play (List.replicate n .turn) :=
  runToRest_eq_foldl (fun _ => rfl) n f

theorem published_le_effort (f : Fleet) (m : Nat) : (f.manager m).bus.published ≤ f.effort := by
  unfold manager
  rw [List.getD_eq_getElem?_getD]
  cases found : f.managers[m]? with
  | none => exact Nat.zero_le _
  | some mgr =>
      have own : mgr.bus.published ≤ mgr.effort := Nat.le_add_right _ _
      have part := le_sum_map Manager.effort (List.mem_of_getElem? found)
      exact Nat.le_trans (Nat.le_trans own part) (Nat.le_add_right _ _)

/-- The listeners and workers of a fleet come to rest. As long as no other task is run they have
no more turns, and no more events are published, than the measure says; and however many turns
other tasks have before, once there are no more of those the fleet settles. -/
structure ComesToRest (f : Fleet) : Prop where
  settles : ∀ n, f.effort ≤ n → f.Undisturbed n → (runToRest step? n f).tasks.isSettled = true
  published : ∀ n, f.Undisturbed n → ∀ m,
    ((runToRest step? n f).manager m).bus.published ≤ f.effort
  ends : (∃ N, ∀ n, N ≤ n → (f.play (List.replicate n .turn)).RunsRelay) →
    ∃ n, (runToRest step? n f).tasks.isSettled = true

theorem Undisturbed.of_succ {n : Nat} (undisturbed : f.Undisturbed (n + 1)) :
    f.RunsRelay ∧ (f.move .turn).Undisturbed n :=
  ⟨undisturbed 0 (Nat.succ_pos n), fun k lt => undisturbed (k + 1) (Nat.succ_lt_succ lt)⟩

/-- The measure bounds the turns of listeners and workers, and does not rise with them. -/
theorem effort_turns {n : Nat} (sound : f.Sound) (finite : f.PanicsFinitely)
    (undisturbed : f.Undisturbed n) :
    (f.play (List.replicate n .turn)).effort ≤ f.effort ∧
      (f.effort ≤ n → (f.play (List.replicate n .turn)).tasks.isSettled = true) := by
  induction n generalizing f with
  | zero =>
      refine ⟨Nat.le_refl _, fun none => ?_⟩
      -- Some task stands in line or is run, or the fleet is settled.
      cases settled : f.tasks.isSettled with
      | true => exact settled
      | false =>
          have some := tasksEffort_pos settled
          unfold effort at none
          omega
  | succ n ih =>
      cases settled : f.tasks.isSettled with
      | true =>
          rw [play_of_settled settled]
          exact ⟨Nat.le_refl _, fun _ => settled⟩
      | false =>
          obtain ⟨relays, later⟩ := undisturbed.of_succ
          have less := effort_turn_lt relays finite settled
          have finite' : (f.move .turn).PanicsFinitely := fun m => by
            rw [subscribers_move sound]
            exact finite m
          obtain ⟨le, ends⟩ := ih (steps_move sound .turn).1 finite' later
          rw [List.replicate_succ, play_cons]
          exact ⟨by omega, fun enough => ends (by omega)⟩

theorem comesToRest (sound : f.Sound) (finite : f.PanicsFinitely) : f.ComesToRest := by
  refine ⟨fun n enough undisturbed => ?_, fun n undisturbed m => ?_, fun ⟨N, relays⟩ => ?_⟩
  · rw [runToRest_eq_play]
    exact (effort_turns sound finite undisturbed).2 enough
  · rw [runToRest_eq_play]
    exact Nat.le_trans (published_le_effort _ m) (effort_turns sound finite undisturbed).1
  · have later (n : Nat) : f.play (List.replicate (N + n) .turn) =
        (f.play (List.replicate N .turn)).play (List.replicate n .turn) := by
      rw [← List.replicate_append_replicate, play_append]
    -- The turns after the last one of another task are counted by the measure as it is there.
    generalize reached : f.play (List.replicate N .turn) = g at later
    have sound' : g.Sound := by
      rw [← reached]
      exact (steps_play_any sound _).1
    have finite' : g.PanicsFinitely := fun m => by
      rw [← reached, subscribers_play sound]
      exact finite m
    have undisturbed : g.Undisturbed g.effort := fun k _ => by
      rw [← later]
      exact relays (N + k) (Nat.le_add_right N k)
    refine ⟨N + g.effort, ?_⟩
    rw [runToRest_eq_play, later]
    exact (effort_turns sound' finite' undisturbed).2 (Nat.le_refl _)

theorem mem_subscribers_raw {managers : List ManagerPlan} {bots : List BotPlan} {s : Subscriber}
    (mem : s ∈ (raw managers bots).subscribers m) : ∃ p ∈ managers, s ∈ p.subscribers := by
  have built : (raw managers bots).manager m =
      (managers.map ManagerPlan.build).getD m default := rfl
  rw [subscribers, built, List.getD_eq_getElem?_getD, List.getElem?_map] at mem
  cases found : managers[m]? with
  | none =>
      rw [found] at mem
      cases mem
  | some p =>
      rw [found] at mem
      exact ⟨p, List.mem_of_getElem? found, ManagerPlan.subscribers_build p ▸ mem⟩

/-- Where no handler panics in all its calls, the listeners and workers come to rest at every
point of every run. -/
theorem comes_to_rest (managers : List ManagerPlan) (bots : List BotPlan) (ms : List Move)
    (finite : ∀ p ∈ managers, ∀ s ∈ p.subscribers, s.PanicsFinitely) :
    ((raw managers bots).play ms).ComesToRest := by
  refine comesToRest (sound_play managers bots ms) fun m s mem => ?_
  rw [subscribers_play (sound_raw managers bots)] at mem
  obtain ⟨p, planned, mem⟩ := mem_subscribers_raw mem
  exact finite p planned s mem

end Fleet

/-- A manager with one subscriber, which panics in these calls, or in all if there are none of
them. -/
def Sample.onePanicking (panicsAt : List Nat) : ManagerPlan where
  settings := { maxConcurrent := 1 }
  number := 0
  subscribers := [{ name := "s", handling := .panic (.text "boom"), panicsAt }]

/-- A subscriber that panics at the event on a bot and at the report on that comes to rest, and
three events are published until then. -/
theorem Fleet.comes_to_rest_of_twice :
    let f := (raw [Sample.onePanicking [0, 1]] [Sample.bot true]).play [.call (.add 0 0)]
    (∀ p ∈ [Sample.onePanicking [0, 1]], ∀ s ∈ p.subscribers, s.PanicsFinitely) ∧
      f.ComesToRest ∧ (runToRest step? 40 f).tasks.isSettled = true ∧
        ((runToRest step? 40 f).manager 0).bus.published = 3 := by
  have finite : ∀ p ∈ [Sample.onePanicking [0, 1]], ∀ s ∈ p.subscribers, s.PanicsFinitely := by
    simp [Sample.onePanicking, Subscriber.PanicsFinitely]
  exact ⟨finite, comes_to_rest _ _ _ finite, by decide +kernel, by decide +kernel⟩

end Flotilla
