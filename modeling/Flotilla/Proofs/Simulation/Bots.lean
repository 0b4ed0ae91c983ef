import Flotilla.Proofs.Simulation.Stop

/-!
# The task of a launch as steps

One step of the task of a launch is a few steps of its manager: it lines up for a slot, enters
its run, goes on in it, or leaves. A launch leaves in several ways, which differ in what it has
to give back; `Fleet.leads_leave` is what they share. For every other manager nothing happens,
except that waiters may be woken.
-/

namespace Flotilla

namespace Fleet

variable {L : Licence} {f f' g : Fleet} {m m' b : Nat} {r : RunName} {l : Launch}

/-! ## Waiting -/

theorem view_park (f : Fleet) (m : Nat) : f.park.view m = (f.view m).park := rfl

theorem leads_park (acts : L.acts) (may : f.Ready L → ∀ m, f.Has m → (f.view m).MayPark m) :
    Leads L f f.park :=
  (steady_park f).leads fun ready m has => .single (.park acts (may ready m has))

/-- The task of a launch may wait where no manager needs it to go on. -/
theorem mayPark_bot {v : View} (turn : v.running = some (.bot r))
    (rests : ∀ l, r.manager = m → v.launch? r.id = some l →
      l.stage = .over ∨ (∃ heeds, l.stage = .waiting heeds) ∨
        l.stage = .queued ∧ v.mgr.closed = false) : v.MayPark m where
  launch := by
    intro id l running found
    have same := turn.symm.trans running
    simp only [Option.some.injEq, Task.bot.injEq] at same
    subst same
    exact rests l rfl found
  wait := fun w wt due running => by
    have same := turn.symm.trans running
    simp at same

/-! ## The end of a task -/

theorem view_endTask (has : f.Has r.manager) :
    (f.endTask r).view r.manager = ((f.view r.manager).endTask r.manager r.id).park := by
  have drained : ((f.setStage r .over).view r.manager).mgr.isDrained =
      ((f.setStage r .over).manager r.manager).isDrained := rfl
  unfold endTask View.endTask View.tellDrained
  rw [← view_setStage has, drained]
  dsimp only
  split
  · rw [view_park, view_wakeAll, List.filter_eq_self.mpr]
    · rfl
    · intro t mem
      obtain ⟨w, -, rfl⟩ := List.mem_map.mp mem
      rfl
  · rfl

theorem view_endTask_ne (ne : r.manager ≠ m) :
    ∃ ws : List Nat, (f.endTask r).view m = ((f.view m).wakeAll (ws.map Task.wait)).park := by
  unfold endTask
  dsimp only
  split
  · refine ⟨(f.setStage r .over).drainWaiters r.manager, ?_⟩
    rw [view_park, view_wakeAll, List.filter_eq_self.mpr, view_setStage_ne ne]
    intro t mem
    obtain ⟨w, -, rfl⟩ := List.mem_map.mp mem
    rfl
  · refine ⟨[], ?_⟩
    rw [view_park, view_setStage_ne ne]
    rfl

theorem view_sayOutcome (id : Nat) (name : String) (outcome : RunOutcome) :
    (f.sayOutcome id name outcome).view m = f.view m := by
  cases outcome <;> rfl

theorem has_sayOutcome (id : Nat) (name : String) (outcome : RunOutcome) :
    (f.sayOutcome id name outcome).Has m ↔ f.Has m := by
  cases outcome <;> exact Iff.rfl

theorem view_unregister (has : f.Has r.manager) (name : String) :
    (f.unregister r name).view r.manager = (f.view r.manager).unregister r.id name := by
  have registered : ((f.view r.manager).mgr.launches.getD r.id default).registered =
      (f.launch r).registered := rfl
  unfold unregister View.unregister
  rw [registered]
  split
  · dsimp only
    rw [view_terminateIfEmpty (by simpa using has), view_publish (by simpa using has),
      view_modify has (fun m => m.modifyLaunch r.id fun l => { l with registered := false })
        fun _ => rfl]
    rfl
  · rfl

theorem view_unregister_ne (ne : r.manager ≠ m) (name : String) :
    (f.unregister r name).view m = f.view m := by
  unfold unregister
  split
  · dsimp only
    rw [view_terminateIfEmpty_ne ne, view_publish_ne ne, view_modifyManager_ne ne]
  · rfl

theorem view_complete (has : f.Has r.manager) (outcome : RunOutcome)
    (answers : f.panicOf? (f.launch r).bot .name = none) : (f.complete r outcome).view r.manager =
      ((f.view r.manager).complete r.manager r.id outcome).park := by
  unfold complete askName
  rw [answers]
  dsimp only
  have hasPublished : ((f.sayOutcome r.id (f.bot (f.launch r).bot).plan.name outcome).publish
      r.manager (outcomeEvent r.id (f.bot (f.launch r).bot).plan.name outcome)).Has
        r.manager := by
    simpa [has_sayOutcome] using has
  rw [view_endTask ((steady_unregister _ r _).has _ |>.mpr hasPublished),
    view_unregister hasPublished, view_publish ((has_sayOutcome _ _ _).mpr has), view_sayOutcome]
  rfl

theorem complete_of_panic {text : String} (outcome : RunOutcome)
    (panicked : f.panicOf? (f.launch r).bot .name = some text) :
    f.complete r outcome = f.endTask r := by
  unfold complete askName
  rw [panicked]

theorem view_complete_ne (ne : r.manager ≠ m) (outcome : RunOutcome) :
    ∃ ws : List Nat,
      (f.complete r outcome).view m = ((f.view m).wakeAll (ws.map Task.wait)).park := by
  unfold complete
  split
  · exact view_endTask_ne ne
  · rename_i name answered
    obtain ⟨ws, eq⟩ := view_endTask_ne (f := ((f.sayOutcome r.id name outcome).publish r.manager
      (outcomeEvent r.id name outcome)).unregister r name) ne
    refine ⟨ws, ?_⟩
    rw [eq, view_unregister_ne ne, view_publish_ne ne, view_sayOutcome]

theorem steps_nudgeWaits (L : Licence) (m : Nat) (v : View) (ws : List Nat) :
    Steps L m v (v.wakeAll (ws.map Task.wait)) := by
  induction ws generalizing v with
  | nil => exact .refl
  | cons w ws ih => exact .head (.nudgeWait w) (ih _)

/-- A launch leaves: `g` is the fleet after it gave back what it had, and `f'` the fleet in
the end. -/
theorem leads_leave (ran : Bool) (outcome : Option RunOutcome) (acts : L.acts)
    (turn : f.tasks.running = some (.bot r))
    (found : (f.view r.manager).launch? r.id = some l)
    (mute : f.Ready L → outcome = none → L.panics l.bot)
    (ends : ∀ o, outcome = some o → o ≠ .notStarted → L.ends r o)
    (why : (f.view r.manager).MayLeave l ran outcome (L.runs r)) (steady : Steady f f')
    (here : f'.view r.manager = ((f.view r.manager).leave r.manager r.id ran outcome).park)
    (away : ∀ m, r.manager ≠ m →
      ∃ ws : List Nat, f'.view m = ((f.view m).wakeAll (ws.map Task.wait)).park) :
    Leads L f f' := by
  refine steady.leads fun ready m has => ?_
  by_cases eq : r.manager = m
  · subst eq
    have left : Step L r.manager (f.view r.manager)
        ((f.view r.manager).leave r.manager r.id ran outcome) :=
      .leave acts turn found (mute ready) ends why
    have still := (View.local_leave (f.view r.manager) r.manager r.id ran outcome).running
    rw [here]
    refine .head left (.single (.park acts (mayPark_bot (still.trans turn) fun l' _ found' => ?_)))
    have ended := View.launch?_leave (f.view r.manager) r.manager r.id ran outcome r.id
    rw [found', found, Option.map_some, if_pos rfl] at ended
    exact Or.inl (by rw [Option.some.inj ended])
  · obtain ⟨ws, after⟩ := away m eq
    rw [after]
    have still : ((f.view m).wakeAll (ws.map Task.wait)).running = some (.bot r) :=
      (View.wakeAll_running _ _).trans turn
    exact (steps_nudgeWaits L m _ ws).tail (.park acts (mayPark_bot still fun _ same =>
      absurd same eq))

/-- A launch that gave back what it had is completed; if its bot panics then, its task is over
all the same. -/
theorem leads_complete (ran : Bool) (acts : L.acts) (turn : f.tasks.running = some (.bot r))
    (found : (f.view r.manager).launch? r.id = some l) (outcome : RunOutcome)
    (ends : outcome ≠ .notStarted → L.ends r outcome)
    (why : ∀ o, o = none ∨ o = some outcome →
      (f.view r.manager).MayLeave l ran o (L.runs r))
    (steady : Steady f g)
    (here : g.view r.manager =
      (if ran then (f.view r.manager).markAdmitted r.id else f.view r.manager).vacate
        r.manager r.id)
    (away : ∀ m, r.manager ≠ m → g.view m = f.view m) :
    Leads L f (g.complete r outcome) := by
  have has : g.Has r.manager := (steady.has _).mpr (has_of_launch? found)
  have elsewhere (m : Nat) (ne : r.manager ≠ m) : ∃ ws : List Nat,
      (g.complete r outcome).view m = ((f.view m).wakeAll (ws.map Task.wait)).park := by
    rw [← away m ne]
    exact view_complete_ne ne outcome
  have ended := steady.trans (steady_complete g r outcome)
  cases panicked : g.panicOf? (g.launch r).bot .name with
  | none =>
      refine leads_leave ran (some outcome) acts turn found (fun _ => nofun)
        (fun o is => by cases is; exact ends) (why _ (Or.inr rfl)) ended ?_ elsewhere
      rw [view_complete has outcome panicked, here]
      rfl
  | some text =>
      refine leads_leave ran none acts turn found (fun ready _ => ?_) (fun _ => nofun)
        (why _ (Or.inl rfl)) ended ?_ elsewhere
      · have bot : (g.launch r).bot = l.bot := by
          have same := (View.vacated_getD (f.view r.manager) r.manager r.id ran).2
          rw [View.getD_launches found] at same
          rw [← same, View.vacated, ← here]
          rfl
        rw [panicOf?_steady steady, bot] at panicked
        exact ready.panics_of panicked
      · rw [complete_of_panic outcome panicked, view_endTask has, here]
        rfl

/-- A launch that is not to be run comes to its end once it gave back what it had. -/
theorem leads_refused (acts : L.acts) (turn : f.tasks.running = some (.bot r))
    (found : (f.view r.manager).launch? r.id = some l) (refuses : (f.view r.manager).Refuses l)
    (steady : Steady f g) (here : g.view r.manager = (f.view r.manager).vacate r.manager r.id)
    (away : ∀ m, r.manager ≠ m → g.view m = f.view m) : Leads L f (g.complete r .notStarted) :=
  leads_complete false acts turn found _ (absurd rfl)
    (fun _ known => Or.inr (Or.inr ⟨rfl, refuses, known⟩)) steady here away

/-! ## The end of a run -/

theorem vacate_of_inRun {v : View} {id : Nat} (found : v.launch? id = some l)
    (inRun : l.stage.isInRun = true) : v.vacate m id = v.releaseSlot m := by
  unfold View.vacate
  rw [View.getD_launches found]
  cases stage : l.stage with
  | submitted | queued =>
      rw [stage] at inRun
      cases inRun
  | _ => rfl

theorem outcome_ne_notStarted (ending : Ending) :
    RunOutcome.ofEnding ending ≠ .notStarted := by
  unfold RunOutcome.ofEnding
  split <;> nofun

theorem keeps_exit (x : Bot) : Bot.Keeps x x.exit := by
  unfold Bot.exit
  split <;> exact .of_eq rfl rfl rfl rfl

theorem keeps_enter (x : Bot) : Bot.Keeps x x.enter := by
  unfold Bot.enter
  split <;> exact .of_eq rfl rfl rfl rfl

/-- The outcome of the run of a launch if it ends now. -/
def outcomeOf (f : Fleet) (r : RunName) : RunOutcome :=
  .ofEnding (f.bot (f.launch r).bot).ending

theorem outcomeOf_congr (bot : (g.launch r).bot = (f.launch r).bot)
    (ending : ∀ b, (g.bot b).ending = (f.bot b).ending) : g.outcomeOf r = f.outcomeOf r := by
  unfold outcomeOf
  rw [bot, ending]

theorem ending_modifyBot (f : Fleet) (b : Nat) {h : Bot → Bot}
    (same : (h (f.bot b)).ending = (f.bot b).ending) (b' : Nat) :
    ((f.modifyBot b h).bot b').ending = (f.bot b').ending := by
  rw [bot_modifyBot]
  split
  · rename_i inside
    rw [← inside.1]
    exact same
  · rfl

theorem outcomeOf_modifyBot (f : Fleet) (b : Nat) {h : Bot → Bot}
    (same : (h (f.bot b)).ending = (f.bot b).ending) :
    (f.modifyBot b h).outcomeOf r = f.outcomeOf r :=
  outcomeOf_congr rfl (ending_modifyBot f b same)

theorem ending_enter (x : Bot) : x.enter.ending = x.ending := by
  unfold Bot.enter
  split <;> rfl

theorem leads_finishRun (acts : L.acts) (turn : f.tasks.running = some (.bot r))
    (found : (f.view r.manager).launch? r.id = some l) (inRun : l.stage.isInRun = true)
    (ends : L.ends r (f.outcomeOf r)) : Leads L f (f.finishRun r) := by
  have has : f.Has r.manager := has_of_launch? found
  have exits (m : Nat) : (f.modifyBot (f.launch r).bot Bot.exit).view m = f.view m :=
    view_modifyBot _ _ (keeps_exit _).plan
  refine leads_complete false acts turn found _ (fun _ => ends)
    (fun o known => Or.inl ⟨rfl, inRun, ?_⟩)
    ((steady_modifyBot f _ (keeps_exit _)).trans (steady_releaseSlot _ _)) ?_ fun m ne => ?_
  · rcases known with rfl | rfl
    · nofun
    · exact fun same => outcome_ne_notStarted _ (Option.some.inj same)
  · rw [view_releaseSlot (f := f.modifyBot _ _) has, exits]
    exact (vacate_of_inRun found inRun).symm
  · rw [view_releaseSlot_ne ne, exits]

/-! ## Admission -/

/-- `g` is the fleet after a launch took the slot it needs. -/
structure Seated (f g : Fleet) (r : RunName) : Prop where
  steady : Steady f g
  bots : g.bots = f.bots
  here : g.view r.manager = (f.view r.manager).takeSlot r.id
  away : ∀ m, r.manager ≠ m → g.view m = f.view m

theorem takeSlot_markAdmitted (v : View) (id : Nat) :
    (v.markAdmitted id).takeSlot id = (v.takeSlot id).markAdmitted id := by
  unfold View.takeSlot
  rw [View.getD_markAdmitted_stage]
  split <;> rfl

/-- A slot that is taken and given back in one turn is as it was. -/
theorem releaseSlot_takeSlot {v : View} {id : Nat} (found : v.launch? id = some l)
    (seat : l.stage = .offered ∨
      l.stage = .submitted ∧ ∀ p, v.mgr.slots = some p → 0 < p.free) :
    (v.takeSlot id).releaseSlot m = v.vacate m id := by
  unfold View.takeSlot View.vacate
  rw [View.getD_launches found]
  rcases seat with offered | ⟨submitted, free⟩
  · rw [offered]
  · rw [submitted]
    dsimp only
    cases slots : v.mgr.slots with
    | none =>
        have same : v.setSlots none = v := by rw [← slots, View.setSlots_self]
        rw [Option.map_none, same, View.releaseSlot, slots]
    | some p =>
        rw [Option.map_some, View.releaseSlot, View.setSlots_slots]
        dsimp only
        rw [Permits.release_acquire (free p slots)]
        show v.setSlots (some p) = v
        rw [← slots, View.setSlots_self]

theorem markAdmitted_found {v : View} {id : Nat} (found : v.launch? id = some l) :
    (v.markAdmitted id).launch? id = some { l with admitted := true } := by
  rw [View.markAdmitted, View.launch?_modifyLaunch, found, Option.map_some, if_pos rfl]

/-- `g` is the fleet after a launch took the slot it needs and was admitted. -/
structure Admitted (f g : Fleet) (r : RunName) : Prop where
  steady : Steady f g
  bots : g.bots = f.bots
  here : g.view r.manager = ((f.view r.manager).takeSlot r.id).markAdmitted r.id
  away : ∀ m, r.manager ≠ m → g.view m = f.view m

theorem Seated.admitted (seated : Seated f g r) (has : g.Has r.manager) :
    Admitted f (g.modifyManager r.manager fun m => m.modifyLaunch r.id fun l =>
      { l with admitted := true }) r where
  steady := seated.steady.trans (steady_modifyManager g r.manager _ rfl)
  bots := seated.bots
  here := by
    rw [view_modify has (fun m => m.modifyLaunch r.id fun l => { l with admitted := true })
      fun _ => rfl, seated.here]
    rfl
  away m ne := by rw [view_modifyManager_ne ne, seated.away m ne]

theorem Admitted.bot (admitted : Admitted f g r)
    (found : (f.view r.manager).launch? r.id = some l) : (g.launch r).bot = l.bot := by
  have marked : (g.view r.manager).launch? r.id = some { l with admitted := true } := by
    rw [admitted.here]
    exact markAdmitted_found ((View.launch?_takeSlot _ _ _).trans found)
  rw [launch_of_found marked]

/-- A launch that ends in the turn in which it was admitted gives back the slot it took. -/
theorem Admitted.givesBack (admitted : Admitted f g r)
    (found : (f.view r.manager).launch? r.id = some l) (can : (f.view r.manager).CanEnter l) :
    (g.view r.manager).releaseSlot r.manager =
      ((f.view r.manager).markAdmitted r.id).vacate r.manager r.id := by
  rw [admitted.here, ← takeSlot_markAdmitted]
  exact releaseSlot_takeSlot (markAdmitted_found found) can.seat

/-- The run of a launch that has its slot is called. -/
theorem leads_enterRun (acts : L.acts) (turn : f.tasks.running = some (.bot r))
    (found : (f.view r.manager).launch? r.id = some l)
    (can : (f.view r.manager).CanEnter l) (licensed : L.runs r)
    (ends : L.ends r (f.outcomeOf r)) (admitted : Admitted f g r) :
    Leads L f (g.enterRun r) := by
  have has : g.Has r.manager := (admitted.steady.has _).mpr (has_of_launch? found)
  have enters := keeps_enter (g.bot (g.launch r).bot)
  have entered (m : Nat) : (g.modifyBot (g.launch r).bot Bot.enter).view m = g.view m :=
    view_modifyBot _ _ enters.plan
  have steadyEntered := admitted.steady.trans (steady_modifyBot g (g.launch r).bot enters)
  unfold enterRun
  dsimp only
  split
  · -- The bot panics before its work begins: the run ends in the turn in which it was called.
    have exits (x : Fleet) (b m : Nat) : (x.modifyBot b Bot.exit).view m = x.view m :=
      view_modifyBot _ _ (keeps_exit _).plan
    have outcome : RunOutcome.ofEnding
        ((g.modifyBot (g.launch r).bot Bot.enter).bot (g.launch r).bot).ending =
          f.outcomeOf r := by
      rw [ending_modifyBot g _ (ending_enter _), admitted.bot found, ← launch_of_found found]
      show RunOutcome.ofEnding (g.bots.getD _ default).ending = _
      rw [admitted.bots]
      rfl
    refine leads_complete true acts turn found _ (fun _ => outcome ▸ ends)
      (fun o known => Or.inr (Or.inl ⟨rfl, can, ?_, Or.inr licensed⟩))
      (steadyEntered.trans ((steady_modifyBot _ _ (keeps_exit _)).trans (steady_releaseSlot _ _)))
      ?_ fun m ne => ?_
    · rcases known with rfl | rfl
      · nofun
      · exact fun same => outcome_ne_notStarted _ (Option.some.inj same)
    · rw [view_releaseSlot (f := (g.modifyBot _ _).modifyBot _ _) has, exits, entered, if_pos rfl]
      exact admitted.givesBack found can
    · rw [view_releaseSlot_ne ne, exits, entered, admitted.away m ne]
  · have counted (x : Fleet) (b m : Nat) :
        (x.modifyBot b fun bot => { bot with runs := bot.runs + 1 }).view m = x.view m :=
      view_modifyBot _ _ rfl
    refine ((steadyEntered.trans (steady_modifyBot _ _ (.of_eq rfl rfl rfl rfl))).trans
      ((steady_note _ _).trans (steady_setStage _ _ _))).leads fun _ m has' => ?_
    by_cases eq : r.manager = m
    · subst eq
      rw [view_setStage (by simpa using has), view_note, counted, entered, admitted.here]
      exact .single (.enter acts licensed turn found can)
    · rw [view_setStage_ne eq, view_note, counted, entered, admitted.away m eq]

/-- The bot of a launch that was admitted panics when it is asked its name: the launch gives its
slot back and its task is over. -/
theorem leads_endAdmitted (acts : L.acts) (turn : f.tasks.running = some (.bot r))
    (found : (f.view r.manager).launch? r.id = some l) (can : (f.view r.manager).CanEnter l)
    (panicked : f.panicOf? l.bot .name = some text) (admitted : Admitted f g r) :
    Leads L f ((g.releaseSlot r.manager).endTask r) := by
  have has : g.Has r.manager := (admitted.steady.has _).mpr (has_of_launch? found)
  refine leads_leave true none acts turn found (fun ready _ => ready.panics_of panicked)
    (fun _ => nofun) (Or.inr (Or.inl ⟨rfl, can, nofun, Or.inl rfl⟩))
    (admitted.steady.trans ((steady_releaseSlot _ _).trans (steady_endTask _ _))) ?_
    fun m ne => ?_
  · rw [view_endTask ((steady_releaseSlot _ _).has _ |>.mpr has), view_releaseSlot has,
      admitted.givesBack found can]
    rfl
  · obtain ⟨ws, eq⟩ := view_endTask_ne (f := g.releaseSlot r.manager) ne
    rw [view_releaseSlot_ne ne, admitted.away m ne] at eq
    exact ⟨ws, eq⟩

/-- A launch that has its slot while the pool is open is admitted and run, unless it is not
registered or its bot panics. -/
theorem leads_beginRun (acts : L.acts) (turn : f.tasks.running = some (.bot r))
    (found : (f.view r.manager).launch? r.id = some l)
    (isOpen : (f.view r.manager).mgr.closed = false)
    (seat : l.stage = .offered ∨
      l.stage = .submitted ∧ ∀ p, (f.view r.manager).mgr.slots = some p → 0 < p.free)
    (seated : Seated f g r)
    (licensed : (f.view r.manager).CanEnter l → f.panicOf? l.bot .name = none → L.runs r)
    (ends : L.ends r (f.outcomeOf r)) : Leads L f (g.beginRun r) := by
  have has : g.Has r.manager := (seated.steady.has _).mpr (has_of_launch? found)
  have sameLaunch : g.launch r = l := by
    apply launch_of_found
    rw [seated.here, View.launch?_takeSlot, found]
  have sameClosed : (g.manager r.manager).closed = false := by
    rw [← isOpen]
    show (g.view r.manager).mgr.closed = _
    rw [seated.here]
    unfold View.takeSlot
    split <;> rfl
  unfold beginRun isAdmissible
  rw [sameLaunch, sameClosed]
  cases registered : l.registered with
  | false =>
      simp only [Bool.not_false, Bool.and_false, Bool.false_eq_true, ↓reduceIte]
      refine leads_refused acts turn found (Or.inr ⟨registered, seat⟩)
        (seated.steady.trans (steady_releaseSlot _ _)) ?_ fun m ne => ?_
      · rw [view_releaseSlot has, seated.here]
        exact releaseSlot_takeSlot found seat
      · rw [view_releaseSlot_ne ne, seated.away m ne]
  | true =>
      simp only [Bool.not_false, Bool.and_self, ↓reduceIte]
      have can : (f.view r.manager).CanEnter l := ⟨isOpen, registered, seat⟩
      have admitted := seated.admitted has
      rw [admitted.bot found]
      unfold askName
      rw [panicOf?_steady admitted.steady]
      cases panicked : f.panicOf? l.bot .name with
      | none => exact leads_enterRun acts turn found can (licensed can panicked) ends admitted
      | some text => exact leads_endAdmitted acts turn found can panicked admitted

/-- A launch that finds no free slot waits in line for one. -/
theorem leads_lineUp (acts : L.acts) (turn : f.tasks.running = some (.bot r))
    (found : (f.view r.manager).launch? r.id = some l) (first : l.stage = .submitted)
    (isOpen : (f.view r.manager).mgr.closed = false) {p : Permits Nat}
    (limited : (f.view r.manager).mgr.slots = some p) (full : p.free = 0) :
    Leads L f (((f.modifyManager r.manager fun m =>
      { m with slots := some (p.acquire r.id).1 }).setStage r .queued).park) := by
  have has : f.Has r.manager := has_of_launch? found
  refine ((steady_modifyManager f _ _ (by rfl)).trans ((steady_setStage _ r _).trans
    (steady_park _))).leads fun _ m _ => ?_
  by_cases eq : r.manager = m
  · subst eq
    have lines : Step L r.manager (f.view r.manager) (((f.view r.manager).setSlots
        (some (p.acquire r.id).1)).setStage r.id .queued) :=
      .lineUp acts turn found first isOpen limited full
    rw [view_park, view_setStage (by simpa using has),
      view_modify has (fun m => { m with slots := some (p.acquire r.id).1 }) fun _ => rfl]
    refine .head lines (.single (.park acts (mayPark_bot turn fun l' _ found' => ?_)))
    rw [View.launch?_setStage] at found'
    obtain ⟨l₀, -, rfl⟩ := Option.map_eq_some_iff.mp found'
    rw [if_pos rfl]
    exact Or.inr (Or.inr ⟨rfl, isOpen⟩)
  · rw [view_park, view_setStage_ne eq, view_modifyManager_ne eq]
    exact .single (.park acts (mayPark_bot turn fun _ same => absurd same eq))

theorem leads_seekSlot (acts : L.acts) (turn : f.tasks.running = some (.bot r))
    (found : (f.view r.manager).launch? r.id = some l) (first : l.stage = .submitted)
    (licensed : (f.view r.manager).CanEnter l → f.panicOf? l.bot .name = none → L.runs r)
    (ends : L.ends r (f.outcomeOf r)) : Leads L f (f.seekSlot r) := by
  have has : f.Has r.manager := has_of_launch? found
  have slots : (f.view r.manager).mgr.slots = (f.manager r.manager).slots := rfl
  have closed : (f.view r.manager).mgr.closed = (f.manager r.manager).closed := rfl
  have takes : (f.view r.manager).takeSlot r.id = (f.view r.manager).setSlots
      ((f.manager r.manager).slots.map fun p => (p.acquire r.id).1) := by
    unfold View.takeSlot
    rw [View.getD_launches found, first]
    rfl
  unfold seekSlot
  dsimp only
  cases isClosed : (f.manager r.manager).closed with
  | true =>
      refine leads_refused acts turn found (Or.inl ⟨Or.inl first, isClosed⟩) (.refl f) ?_
        fun _ _ => rfl
      show f.view r.manager = (f.view r.manager).vacate r.manager r.id
      unfold View.vacate
      rw [View.getD_launches found, first]
  | false =>
      rw [if_neg Bool.false_ne_true]
      cases isLimited : (f.manager r.manager).slots with
      | none =>
          refine leads_beginRun acts turn found isClosed (Or.inr ⟨first, ?_⟩)
            ⟨.refl f, rfl, ?_, fun _ _ => rfl⟩ licensed ends
          · rw [slots, isLimited]
            nofun
          · rw [takes, isLimited, Option.map_none, ← isLimited, ← slots]
            rfl
      | some p =>
          dsimp only
          by_cases full : p.free = 0
          · have lines := leads_lineUp acts turn found first isClosed isLimited full
            obtain ⟨waits, -, -⟩ := Permits.acquire_of_zero full r.id
            rcases acquired : p.acquire r.id with ⟨q, b⟩
            rw [acquired] at waits lines
            cases waits
            exact lines
          · have seated := view_modify has (fun m => { m with slots := some (p.acquire r.id).1 })
              fun _ => rfl
            obtain ⟨taken, -, -⟩ := Permits.acquire_of_pos (Nat.pos_of_ne_zero full) r.id
            rcases acquired : p.acquire r.id with ⟨q, b⟩
            rw [acquired] at taken seated
            cases taken
            dsimp only
            refine leads_beginRun acts turn found isClosed (Or.inr ⟨first, ?_⟩)
              ⟨steady_modifyManager f _ _ (by rfl), rfl, ?_, fun m ne => view_modifyManager_ne ne _⟩
              licensed ends
            · rw [slots, isLimited]
              rintro _ ⟨⟩
              exact Nat.pos_of_ne_zero full
            · rw [seated, takes, isLimited, Option.map_some, acquired]
              rfl

/-! ## In a run -/

/-- A run goes on, and waits. -/
theorem leads_waiting (acts : L.acts) (turn : f.tasks.running = some (.bot r))
    (found : (f.view r.manager).launch? r.id = some l) (inRun : l.stage.isInRun = true)
    (b : Nat) {g : Bot → Bot} (heedsQuit : Bool) (plan : (g (f.bot b)).plan = (f.bot b).plan)
    (armed : (g (f.bot b)).armed = (f.bot b).armed)
    (waiting : ∀ r', r' ∈ (g (f.bot b)).permits.waiting →
      r' ∈ (f.bot b).permits.waiting ∨ r' = r)
    (watchers : ∀ r', r' ∈ (g (f.bot b)).liveness.watchers →
      r' ∈ (f.bot b).liveness.watchers ∨ r' = r) :
    Leads L f ((f.modifyBot b g).setStage r (.waiting heedsQuit)).park := by
  have has : f.Has r.manager := has_of_launch? found
  have here : (((f.modifyBot b g).setStage r (.waiting heedsQuit)).park).view r.manager =
      ((f.view r.manager).setStage r.id (.waiting heedsQuit)).park := by
    rw [view_park, view_setStage (by simpa using has), view_modifyBot b g plan]
  have found' : ((f.view r.manager).setStage r.id (.waiting heedsQuit)).launch? r.id =
      some { l with stage := .waiting heedsQuit } := by
    rw [View.launch?_setStage, found, Option.map_some, if_pos rfl]
  have bots (b' : Nat) : (((f.modifyBot b g).setStage r (.waiting heedsQuit)).park).bot b' =
      if b = b' ∧ b' < f.bots.length then g (f.bot b') else f.bot b' := bot_modifyBot f b' b g
  refine .of_steps (fun _ r' known => ?_) (fun b' => ?_) (fun m => has_setStage _)
    (fun ready wt mem => ready.owned wt mem)
    (steady_setStage (f.modifyBot b g) r _).subscribers fun _ m has' => ?_
  · have begun : (((f.modifyBot b g).setStage r (.waiting heedsQuit)).park).Begun r :=
      ⟨{ l with stage := .waiting heedsQuit }, by rw [here]; exact found', nofun⟩
    obtain ⟨b', known⟩ := known
    rw [bots] at known
    split at known
    · rename_i inside
      rw [← inside.1] at known
      rcases known with waits | watches
      · rcases waiting r' waits with waits | rfl
        · exact Or.inl ⟨b, Or.inl waits⟩
        · exact Or.inr begun
      · rcases watchers r' watches with watches | rfl
        · exact Or.inl ⟨b, Or.inr watches⟩
        · exact Or.inr begun
    · exact Or.inl ⟨b', known⟩
  · rw [bots]
    split
    · rename_i inside
      rw [← inside.1]
      exact armed
    · rfl
  · by_cases eq : r.manager = m
    · subst eq
      rw [here]
      refine .head (.proceed acts turn found inRun (Or.inr ⟨heedsQuit, rfl⟩)) (.single (.park acts
        (mayPark_bot turn fun l' _ found'' => ?_)))
      rw [found'] at found''
      cases found''
      exact Or.inr (Or.inl ⟨heedsQuit, rfl⟩)
    · rw [view_park, view_setStage_ne eq, view_modifyBot b g plan]
      exact .single (.park acts (mayPark_bot turn fun _ same => absurd same eq))

/-- A run takes a permit of its bot and ends, or waits for one. -/
theorem leads_awaitPermit (acts : L.acts) (turn : f.tasks.running = some (.bot r))
    (found : (f.view r.manager).launch? r.id = some l) (inRun : l.stage.isInRun = true)
    (ends : L.ends r (f.outcomeOf r)) (heedsQuit : Bool) :
    Leads L f (f.awaitPermit r heedsQuit) := by
  unfold awaitPermit
  dsimp only
  by_cases none : (f.bot (f.launch r).bot).permits.free = 0
  · obtain ⟨waits, -, line⟩ := Permits.acquire_of_zero none r
    rcases acquired : (f.bot (f.launch r).bot).permits.acquire r with ⟨permits, b⟩
    rw [acquired] at waits line
    cases waits
    refine leads_waiting acts turn found inRun _ heedsQuit rfl rfl (fun r' mem => ?_)
      fun r' mem => ?_
    · dsimp only at mem line
      rw [line] at mem
      simpa using mem
    · dsimp only at mem
      split at mem
      · simpa [Liveness.watch] using mem
      · exact Or.inl mem
  · obtain ⟨taken, -, line⟩ := Permits.acquire_of_pos (Nat.pos_of_ne_zero none) r
    rcases acquired : (f.bot (f.launch r).bot).permits.acquire r with ⟨permits, b⟩
    rw [acquired] at taken line
    cases taken
    have keeps : Bot.Keeps (f.bot (f.launch r).bot)
        { f.bot (f.launch r).bot with permits } :=
      ⟨rfl, rfl, fun r' mem => by dsimp only at mem line; rwa [line] at mem, fun _ h => h⟩
    refine (leads_modifyBot L f _ keeps).trans (leads_finishRun acts turn ?_ inRun ?_)
    · rw [view_modifyBot _ _ rfl]
      exact found
    · exact (outcomeOf_modifyBot f _ (h := fun bot => { bot with permits }) rfl).symm ▸ ends

theorem outcomeOf_dismiss (f : Fleet) (b : Nat) : (f.dismiss b).outcomeOf r = f.outcomeOf r := by
  unfold dismiss
  dsimp only
  split <;> rfl

theorem leads_quitRun (acts : L.acts) (turn : f.tasks.running = some (.bot r))
    (found : (f.view r.manager).launch? r.id = some l) (inRun : l.stage.isInRun = true)
    (ends : L.ends r (f.outcomeOf r)) : Leads L f (f.quitRun r) := by
  refine (leads_dismiss L f _).trans (leads_awaitPermit acts ?_ ?_ inRun
    ((outcomeOf_dismiss f _).symm ▸ ends) false)
  · show ((f.dismiss _).view r.manager).running = _
    rw [view_dismiss]
    exact turn
  · rw [view_dismiss]
    exact found

theorem leads_afterCalls (acts : L.acts) (turn : f.tasks.running = some (.bot r))
    (found : (f.view r.manager).launch? r.id = some l) (inRun : l.stage.isInRun = true)
    (ends : L.ends r (f.outcomeOf r)) : Leads L f (f.afterCalls r) := by
  unfold afterCalls
  dsimp only
  split
  · split
    · exact leads_quitRun acts turn found inRun ends
    · exact leads_awaitPermit acts turn found inRun ends _
  · exact leads_finishRun acts turn found inRun ends

theorem keeps_unwatch (x : Bot) (r : RunName) :
    Bot.Keeps x { x with liveness := x.liveness.unwatch r } :=
  ⟨rfl, rfl, fun _ h => h, fun _ h => List.mem_of_mem_erase h⟩

theorem keeps_giveUp (x : Bot) (r : RunName) : Bot.Keeps x
    { x with liveness := x.liveness.unwatch r, permits := x.permits.leave r } :=
  ⟨rfl, rfl, fun _ h => List.mem_of_mem_erase h, fun _ h => List.mem_of_mem_erase h⟩

theorem leads_resumeWaiting (acts : L.acts) (turn : f.tasks.running = some (.bot r))
    (found : (f.view r.manager).launch? r.id = some l) {heedsQuit : Bool}
    (waits : l.stage = .waiting heedsQuit) (ends : L.ends r (f.outcomeOf r)) :
    Leads L f (f.resumeWaiting r heedsQuit) := by
  unfold resumeWaiting
  dsimp only
  split
  · refine (leads_modifyBot L f _ (keeps_giveUp _ r)).trans
      (leads_quitRun (l := l) acts turn ?_ (by rw [waits]; rfl) ?_)
    · rw [view_modifyBot _ _ rfl]
      exact found
    · exact (outcomeOf_modifyBot f _ (h := fun bot => { bot with
        liveness := bot.liveness.unwatch r, permits := bot.permits.leave r }) rfl).symm ▸ ends
  · refine leads_park acts fun _ m _ => mayPark_bot turn fun l' same found' => ?_
    subst same
    cases found.symm.trans found'
    exact Or.inr (Or.inl ⟨heedsQuit, waits⟩)

/-- While no task goes on, a run that has its turn keeps it and stays in its run. -/
theorem Leads.stays (h : Leads L.rest f f') (ready : f.Ready L)
    (turn : f.tasks.running = some (.bot r))
    (found : (f.view r.manager).launch? r.id = some l) (inRun : l.stage.isInRun = true) :
    f'.tasks.running = some (.bot r) ∧ ∃ l', (f'.view r.manager).launch? r.id = some l' ∧
      l'.stage.isInRun = true := by
  have steps := h.steps ⟨ready.toSound, ready.named⟩ r.manager (has_of_launch? found)
  refine ⟨(steps.local_of_rest id).running.trans turn, ?_⟩
  exact steps.launch (fun change => change.inRun id) found inRun

theorem bot_setStage (f : Fleet) (r' : RunName) (stage : Stage) :
    ((f.setStage r' stage).launch r).bot = (f.launch r).bot := by
  unfold launch setStage
  by_cases same : r'.manager = r.manager ∧ f.Has r.manager
  · rw [same.1, manager_modifyManager_self same.2]
    simp only [Manager.modifyLaunch, List.getD_eq_getElem?_getD, List.getElem?_modify]
    cases (f.manager r.manager).launches[r.id]? with
    | none => rfl
    | some l =>
        simp only [Option.getD_some]
        split <;> rfl
  · by_cases eq : r'.manager = r.manager
    · have out : ¬ f.Has r'.manager := fun has => same ⟨eq, eq ▸ has⟩
      unfold Has at out
      rw [modifyManager, List.modify_eq_self (by omega)]
    · rw [manager_modifyManager_ne eq]

theorem outcomeOf_addPermit (f : Fleet) (b : Nat) :
    (f.addPermit b).outcomeOf r = f.outcomeOf r := by
  unfold addPermit
  rcases (f.bot b).permits.release with ⟨permits, _ | r'⟩
  · exact outcomeOf_modifyBot f b rfl
  · dsimp only
    refine outcomeOf_congr ?_
      (ending_modifyBot f b (h := fun bot => { bot with permits }) rfl)
    exact bot_setStage (f.modifyBot b _) r' _

theorem leads_resumePermitted (acts : L.acts) (turn : f.tasks.running = some (.bot r))
    (found : (f.view r.manager).launch? r.id = some l) {heedsQuit : Bool}
    (permitted : l.stage = .permitted heedsQuit) (ends : L.ends r (f.outcomeOf r)) :
    Leads L f (f.resumePermitted r heedsQuit) := by
  have inRun : l.stage.isInRun = true := by
    rw [permitted]
    rfl
  unfold resumePermitted
  dsimp only
  generalize forgets : (if heedsQuit then
    f.modifyBot (f.launch r).bot fun bot => { bot with liveness := bot.liveness.unwatch r }
    else f) = g
  have forgotten : Leads L f g := by
    rw [← forgets]
    split
    · exact leads_modifyBot L f _ (keeps_unwatch _ r)
    · exact .refl L f
  have turn : g.tasks.running = some (.bot r) := by
    rw [← forgets]
    split <;> exact turn
  have found : (g.view r.manager).launch? r.id = some l := by
    rw [← forgets]
    split
    · rw [view_modifyBot _ _ rfl]
      exact found
    · exact found
  have ends : L.ends r (g.outcomeOf r) := by
    rw [← forgets]
    split
    · exact (outcomeOf_modifyBot f _ (h := fun bot => { bot with
        liveness := bot.liveness.unwatch r }) rfl).symm ▸ ends
    · exact ends
  apply forgotten.trans
  split
  · refine .of_ready fun ready => ?_
    have given := leads_addPermit L.rest g (f.launch r).bot
    obtain ⟨turn, l', found, inRun⟩ := given.stays ready turn found inRun
    exact given.of_rest.trans
      (leads_quitRun acts turn found inRun ((outcomeOf_addPermit g _).symm ▸ ends))
  · exact leads_finishRun acts turn found inRun ends

/-- A run that made a call and got its answer goes on. -/
theorem leads_calling (acts : L.acts) (turn : f.tasks.running = some (.bot r))
    (found : (f.view r.manager).launch? r.id = some l) (inRun : l.stage.isInRun = true)
    (n : Note) (left : List Call) : Leads L f ((f.note n).setStage r (.calling left)) := by
  refine ((steady_note f n).trans (steady_setStage _ r _)).leads fun _ m has => ?_
  by_cases eq : r.manager = m
  · subst eq
    rw [view_setStage (by simpa using has), view_note]
    exact .single (.proceed acts turn found inRun (Or.inl ⟨left, rfl⟩))
  · rw [view_setStage_ne eq, view_note]

/-- One step of the task of a launch is a sequence of steps: its run is called or comes to its
end, and within it a manager is stopped or bots are registered or launched, only if that is
licensed. -/
theorem leads_stepBot (acts : L.acts) (turn : f.tasks.running = some (.bot r))
    (runs : (f.view r.manager).CanEnter (f.launch r) →
      f.panicOf? (f.launch r).bot .name = none → L.runs r)
    (stops : ∀ m left, (f.launch r).stage = .calling (.stop m :: left) → f.isHeld m = true →
      (f.manager m).phase = .running → L.stops m)
    (enrols : ∀ m c left, (f.launch r).stage = .calling (c :: left) → enrolling? c = some m →
      f.isHeld m = true → L.enrols m)
    (ends : L.ends r (f.outcomeOf r)) : Leads L f (f.stepBot r) := by
  unfold stepBot
  cases found : (f.view r.manager).launch? r.id with
  | none =>
      rw [launch_of_absent found]
      refine leads_park acts fun _ m _ => mayPark_bot turn fun l' same found' => ?_
      subst same
      rw [found] at found'
      cases found'
  | some l =>
      have same := launch_of_found found
      rw [same] at runs stops enrols ⊢
      have rests (rest : l.stage = .over ∨ (∃ heeds, l.stage = .waiting heeds) ∨
          l.stage = .queued ∧ (f.view r.manager).mgr.closed = false) : Leads L f f.park := by
        refine leads_park acts fun _ m _ => mayPark_bot turn fun l' same found' => ?_
        subst same
        cases found.symm.trans found'
        exact rest
      have has : f.Has r.manager := has_of_launch? found
      cases stage : l.stage with
      | submitted => exact leads_seekSlot acts turn found stage runs ends
      | queued =>
          dsimp only
          cases isClosed : (f.manager r.manager).closed with
          | false => exact rests (Or.inr (Or.inr ⟨stage, isClosed⟩))
          | true =>
              refine leads_refused acts turn found (Or.inl ⟨Or.inr (Or.inl stage), isClosed⟩)
                (steady_modifyManager f _ _ (by rfl)) ?_ fun m ne => view_modifyManager_ne ne _
              unfold leaveSlotLine
              rw [view_modify has (fun m => { m with slots := m.slots.map fun p => p.leave r.id })
                fun _ => rfl]
              show _ = (f.view r.manager).vacate r.manager r.id
              unfold View.vacate
              rw [View.getD_launches found, stage]
              rfl
      | offered =>
          dsimp only
          cases isClosed : (f.manager r.manager).closed with
          | false =>
              refine leads_beginRun acts turn found isClosed (Or.inl stage)
                ⟨.refl f, rfl, ?_, fun _ _ => rfl⟩ runs ends
              unfold View.takeSlot
              rw [View.getD_launches found, stage]
          | true =>
              refine leads_refused acts turn found (Or.inl ⟨Or.inr (Or.inr stage), isClosed⟩)
                (steady_releaseSlot f _) ?_ fun m ne => view_releaseSlot_ne ne
              rw [view_releaseSlot has]
              show _ = (f.view r.manager).vacate r.manager r.id
              unfold View.vacate
              rw [View.getD_launches found, stage]
      | calling left =>
          have inRun : l.stage.isInRun = true := by
            rw [stage]
            rfl
          cases left with
          | nil => exact leads_afterCalls acts turn found inRun ends
          | cons c rest =>
              refine .of_ready fun ready => ?_
              have made : Leads L.rest f (f.perform (some (f.spanOf r)) c).1 := by
                refine leads_perform f _ c (fun m eq held isRunning => ?_)
                  fun m => enrols m c rest stage
                subst eq
                exact stops m rest stage held isRunning
              obtain ⟨turn, l', found, inRun⟩ := made.stays ready turn found inRun
              exact made.of_rest.trans (leads_calling acts turn found inRun _ rest)
      | waiting heedsQuit => exact leads_resumeWaiting acts turn found stage ends
      | permitted heedsQuit => exact leads_resumePermitted acts turn found stage ends
      | «over» => exact rests (Or.inl stage)

end Fleet

end Flotilla
