import Flotilla.Proofs.Simulation

/-!
# Every run is a sequence of steps

A run begins with a fleet just built and makes any moves. `Fleet.invariant`: what holds of a
manager at first and is kept by every step holds at every point of every run.

Some invariants of a manager hold only as long as none of the bots that it launches panics when it
is asked its name (`Fleet.Answering`): nothing isolates such a panic, so it ends a call or a task
half way.
-/

namespace Flotilla

namespace Fleet

/-- At no point of a run would this bot panic if it were asked its name. -/
def Answers (f : Fleet) (b : Nat) (ms : List Move) : Prop :=
  ∀ pre, pre <+: ms → (f.play pre).panicOf? b .name = none

/-- At no point of a run would a bot that the manager launches in it panic if it were asked its
name. -/
def Answering (f : Fleet) (m : Nat) (ms : List Move) : Prop :=
  ∀ l ∈ ((f.play ms).manager m).launches, f.Answers l.bot ms

end Fleet

namespace Licence

/-- Everything may happen, but of the bots only these may panic when they are asked their
names. -/
def all (panics : Nat → Prop) : Licence where
  panics := panics
  acts := True
  runs := fun _ => True
  stops := fun _ => True
  enrols := fun _ => True
  ends := fun _ _ => True

/-- Everything may happen, but of the bots only those may panic that would, at some point of a
run, panic if they were asked their names. -/
def ofRun (f : Fleet) (ms : List Move) : Licence := .all fun b => ¬ f.Answers b ms

end Licence

namespace Fleet

variable {managers : List ManagerPlan} {bots : List BotPlan} {ms : List Move}
  {panics : Nat → Prop} {m : Nat}

theorem Answers.append_iff {f : Fleet} {b : Nat} {ms ms' : List Move} :
    f.Answers b (ms ++ ms') ↔ f.Answers b ms ∧ (f.play ms).Answers b ms' := by
  constructor
  · intro answers
    refine ⟨fun pre sub => answers pre (sub.trans (List.prefix_append ms ms')), ?_⟩
    rintro pre ⟨post, rfl⟩
    rw [← play_append]
    exact answers (ms ++ pre) ⟨post, by rw [List.append_assoc]⟩
  · intro both pre sub
    rcases both with ⟨first, later⟩
    rcases List.prefix_or_prefix_of_prefix sub (List.prefix_append ms ms') with inside | beyond
    · exact first pre inside
    · obtain ⟨pre', rfl⟩ := beyond
      rw [play_append]
      exact later pre' ((List.prefix_append_right_inj ms).mp sub)

/-! ## The beginning -/

theorem manager_raw (has : m < managers.length) (bots : List BotPlan) :
    (raw managers bots).manager m = managers[m].build := by
  show (managers.map ManagerPlan.build).getD m default = _
  rw [List.getD_eq_getElem?_getD, List.getElem?_map, List.getElem?_eq_getElem has]
  rfl

/-- The tasks of a manager just built are workers and the listener. -/
theorem cases_of_mem_tasks {p : ManagerPlan} {t : Task} (mem : t ∈ p.tasks m) :
    (∃ i, t = .worker m i) ∨ t = .listener m := by
  unfold ManagerPlan.tasks at mem
  split at mem
  · cases mem
  · rcases List.mem_append.mp mem with mem | mem
    · obtain ⟨i, -, rfl⟩ := List.mem_map.mp mem
      exact Or.inl ⟨i, rfl⟩
    · exact Or.inr (List.mem_singleton.mp mem)

/-- At first a manager is as it was built, and nothing that concerns it is to be done. -/
theorem view_raw (has : m < managers.length) (bots : List BotPlan) :
    (raw managers bots).view m =
      { mgr := managers[m].build.core
        line := []
        running := none
        waits := []
        timers := []
        nameOf := ((raw managers bots).view m).nameOf } := by
  have line : ((raw managers bots).tasks.ready.filter (Task.concerns m)) = [] := by
    rw [List.filter_eq_nil_iff]
    intro t mem near
    rcases Scheduler.mem_ready_wakeAll.mp mem with mem | mem
    · cases mem
    · obtain ⟨x, -, mem⟩ := List.mem_flatMap.mp mem
      rcases cases_of_mem_tasks mem with ⟨i, rfl⟩ | rfl <;> cases near
  have running : (raw managers bots).tasks.running = none := Scheduler.running_wakeAll _ _
  unfold view
  rw [manager_raw has, line, running]
  rfl

theorem has_raw : (raw managers bots).Has m ↔ m < managers.length := by
  show m < (managers.map ManagerPlan.build).length ↔ _
  rw [List.length_map]

theorem sound_raw (managers : List ManagerPlan) (bots : List BotPlan) :
    (raw managers bots).Sound := by
  refine ⟨fun r known => ?_, fun wt mem => absurd mem List.not_mem_nil, fun m has _ => ?_⟩
  · obtain ⟨b, known⟩ := known
    have idle : ((raw managers bots).bot b).permits.waiting = [] ∧
        ((raw managers bots).bot b).liveness.watchers = [] := by
      show ((bots.map BotPlan.build).getD b default).permits.waiting = [] ∧ _
      rw [bot]
      show ((bots.map BotPlan.build).getD b default).permits.waiting = [] ∧
        ((bots.map BotPlan.build).getD b default).liveness.watchers = []
      rw [List.getD_eq_getElem?_getD, List.getElem?_map]
      cases bots[b]? with
      | none => exact ⟨rfl, rfl⟩
      | some plan =>
          refine ⟨rfl, ?_⟩
          show (Bot.build plan.plan plan.ending).liveness.watchers = []
          unfold Bot.build
          dsimp only
          split <;> rfl
    rw [idle.1, idle.2] at known
    rcases known with known | known <;> cases known
  · show ((raw managers bots).view m).mgr.launches = []
    rw [view_raw (has_raw.mp has)]
    rfl

/-- At first every bot gives its name. -/
theorem answers_raw (managers : List ManagerPlan) (bots : List BotPlan) (b : Nat) :
    (raw managers bots).panicOf? b .name = none := by
  have unarmed : ((raw managers bots).bot b).armed = [] := by
    show ((bots.map BotPlan.build).getD b default).armed = []
    rw [List.getD_eq_getElem?_getD, List.getElem?_map]
    cases bots[b]? <;> rfl
  unfold panicOf?
  rw [unarmed]
  rfl

/-! ## Runs -/

theorem licence_le_all {f : Fleet} (named : ∀ b, ¬ panics b → f.panicOf? b .name = none)
    (mv : Move) : (f.licence mv).Le (.all panics) :=
  ⟨fun b panicked => Classical.byContradiction fun calm => panicked (named b calm),
    fun _ => trivial, fun _ _ => trivial, fun _ _ => trivial, fun _ _ => trivial,
    fun _ _ _ => trivial⟩

/-- Whatever a run does is, for every manager, a sequence of steps. -/
theorem steps_play {f : Fleet} (sound : f.Sound) (calm : ∀ b, ¬ panics b → f.Answers b ms) :
    (f.play ms).Sound ∧ (∀ m, (f.play ms).Has m ↔ f.Has m) ∧
      ∀ m, f.Has m → Steps (.all panics) m (f.view m) ((f.play ms).view m) := by
  induction ms using List.reverseRecOn with
  | nil => exact ⟨sound, fun _ => Iff.rfl, fun _ _ => .refl⟩
  | append_singleton ms mv ih =>
      obtain ⟨sound', has, steps⟩ := ih fun b h => (Answers.append_iff.mp (calm b h)).1
      obtain ⟨sound'', has', steps'⟩ := steps_move sound' mv
      rw [play_append]
      refine ⟨sound'', fun m => (has' m).trans (has m), fun m there => (steps m there).trans ?_⟩
      refine (steps' m ((has m).mpr there)).mono (licence_le_all (fun b h => ?_) mv)
      exact calm b h ms (List.prefix_append ms [mv])

/-- The same for a run in which any bot may panic. -/
theorem steps_play_any {f : Fleet} (sound : f.Sound) (ms : List Move) :
    (f.play ms).Sound ∧ (∀ m, (f.play ms).Has m ↔ f.Has m) ∧
      ∀ m, f.Has m → Steps (.all fun _ => True) m (f.view m) ((f.play ms).view m) :=
  steps_play sound fun _ calm => absurd trivial calm

theorem sound_play (managers : List ManagerPlan) (bots : List BotPlan) (ms : List Move) :
    ((raw managers bots).play ms).Sound :=
  (steps_play_any (sound_raw managers bots) ms).1

/-- A run in which a bot is not made to panic when it is asked its name. -/
theorem answers_of_unarmed (managers : List ManagerPlan) (bots : List BotPlan) {b : Nat}
    (unarmed : Move.arm b .name ∉ ms) : (raw managers bots).Answers b ms := by
  rintro pre ⟨post, rfl⟩
  induction pre using List.reverseRecOn with
  | nil => exact answers_raw managers bots b
  | append_singleton pre mv ih =>
      rw [play_append]
      refine answers_move (sound_play managers bots pre) (ih fun mem => unarmed ?_)
        fun eq => unarmed ?_
      · rcases List.mem_append.mp mem with mem | mem <;> simp [mem]
      · simp [eq]

/-- A run in which no bot is made to panic when it is asked its name. -/
theorem answering_of_unarmed (managers : List ManagerPlan) (bots : List BotPlan)
    (unarmed : ∀ b, Move.arm b .name ∉ ms) : (raw managers bots).Answering m ms :=
  fun l _ => answers_of_unarmed managers bots (unarmed l.bot)

theorem has_play : ((raw managers bots).play ms).Has m ↔ m < managers.length :=
  ((steps_play_any (sound_raw managers bots) ms).2.1 m).trans has_raw

/-! ## The bots that answer -/

section Answering

variable {f : Fleet} {pre : List Move}

/-- Whoever is launched in the course of a run is still there when it ends. -/
theorem Answering.answers (answers : f.Answering m ms) (sound : f.Sound) (sub : pre <+: ms)
    {l : Launch} (mem : l ∈ ((f.play pre).manager m).launches) : f.Answers l.bot ms := by
  obtain ⟨post, rfl⟩ := sub
  obtain ⟨id, found⟩ := List.mem_iff_getElem?.mp mem
  have later := (steps_play_any (steps_play_any sound pre).1 post).2.2 m (has_of_launch? found)
  obtain ⟨l', found', bot⟩ := later.launch (P := fun l' => l'.bot = l.bot)
    (fun change was => change.bot.trans was) found rfl
  rw [← bot]
  refine answers l' ?_
  rw [play_append]
  exact List.mem_of_getElem? found'

theorem Answering.mono (answers : f.Answering m ms) (sound : f.Sound) (sub : pre <+: ms) :
    f.Answering m pre :=
  fun _ mem pre' sub' => answers.answers sound sub mem pre' (sub'.trans sub)

/-- Nobody whom the manager has launched panics in the run. -/
theorem Answering.calm (answers : f.Answering m ms) (sound : f.Sound) (sub : pre <+: ms) :
    ((f.play pre).view m).Calm (.ofRun f ms) :=
  fun _ _ found mute => mute (answers.answers sound sub (List.mem_of_getElem? found))

theorem ready_ofRun (sound : f.Sound) (sub : pre <+: ms) : (f.play pre).Ready (.ofRun f ms) :=
  (steps_play_any sound pre).1.ready fun _ panicked answers => panicked (answers pre sub)

/-- The rest of a run, from any of its points. -/
theorem steps_ofRun_append (sound : f.Sound) (has : f.Has m) (ms ms' : List Move) :
    Steps (.ofRun f (ms ++ ms')) m ((f.play ms).view m) ((f.play (ms ++ ms')).view m) := by
  obtain ⟨sound', has', -⟩ := steps_play_any sound ms
  rw [play_append]
  exact (steps_play sound' fun _ answers => (Answers.append_iff.mp
    (Classical.not_not.mp answers)).2).2.2 m ((has' m).mpr has)

theorem steps_ofRun (sound : f.Sound) (has : f.Has m) (ms : List Move) :
    Steps (.ofRun f ms) m (f.view m) ((f.play ms).view m) :=
  steps_ofRun_append sound has [] ms

end Answering

end Fleet

/-- What is kept by every step holds after any number of steps. -/
theorem Steps.invariant {L : Licence} {m : Nat} {v v' : View} {Inv : View → Prop}
    (h : Steps L m v v') (kept : ∀ {x x' : View}, Step L m x x' → Inv x → Inv x')
    (first : Inv v) : Inv v' := by
  induction h with
  | refl => exact first
  | tail _ step ih => exact kept step ih

/-- What holds of a manager at first and is kept by every step holds at every point of every
run. -/
theorem Fleet.invariant {managers : List ManagerPlan} {bots : List BotPlan} {ms : List Move}
    {m : Nat} {Inv : View → Prop} (has : m < managers.length)
    (kept : ∀ {v v' : View}, Step (.all fun _ => True) m v v' → Inv v → Inv v')
    (first : Inv ((raw managers bots).view m)) :
    Inv (((raw managers bots).play ms).view m) :=
  ((steps_play_any (sound_raw managers bots) ms).2.2 m (has_raw.mpr has)).invariant kept first

/-! ## A bot that does not give its name -/

namespace Sample

/-- A manager that runs one bot at a time. -/
def oneSlot : ManagerPlan := { settings := { maxConcurrent := 1 }, number := 0, subscribers := [] }

/-- A bot that waits for a permit in its run, and may heed a request to quit. -/
def bot (quittable : Bool) : BotPlan where
  plan :=
    { name := "a"
      make := .custom false true true
      waits := true
      quittable
      calls := [] }
  ending := .ok

/-- A bot is launched and panics when it is about to be run: its task is over, and it stays
registered. -/
def mute : List Move := [.call (.start 0), .call (.add 0 0), .arm 0 .name, .turn, .turn]

/-- A bot is run and panics when it is asked to quit: `stop` does not get to its end, but the
manager comes to its end with the run. -/
def jumpy : List Move :=
  [.call (.start 0), .call (.add 0 0), .turn, .turn, .turn, .arm 0 .quit, .call (.stop 0),
    .call (.finish 0 none), .turn, .turn]

end Sample

end Flotilla
