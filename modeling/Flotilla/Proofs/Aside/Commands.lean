import Flotilla.Proofs.Aside.Clock
import Flotilla.Proofs.Unheard

/-!
# Commands, with a waiter left out

Two fleets that are the same but for a waiter are so after every command that does not cancel the
token of this waiter, and after one that does on either side alone. The answer is the same too, but
for what is asked of the manager after its owner has dropped it: then there may be somebody on one
side only who still has it.
-/

namespace Flotilla.Fleet

/-- Whether a command cancels the token of a waiter. -/
def Command.cancels (w : Nat) : Command → Bool
  | .cancel w' => w' == w
  | _ => false

/-- Whether somebody comes to wait for a manager. -/
def Command.comesFor (m : Nat) : Command → Bool
  | .wait m' _ _ | .runUntilSignal m' => m' == m
  | _ => false

/-- Whether something is asked of a manager. -/
def Command.asks (m : Nat) : Command → Bool
  | .call c => callee? c == some m
  | .compare a b => a.1 == m || b.1 == m
  | _ => false

/-- Two answers are the same, or the manager asked is there on one side only. -/
inductive Answer.SameBut (forsaken : Bool) : Answer → Answer → Prop
  | same (x : Answer) : SameBut forsaken x x
  | reply {r r' : Reply} (replies : r.SameBut forsaken r') :
    SameBut forsaken (.reply r) (.reply r')
  | left (is : forsaken = true) (x : Answer) : SameBut forsaken .noHandle x
  | right (is : forsaken = true) (x : Answer) : SameBut forsaken x .noHandle

variable {f g f' g' : Fleet} {m w : Nat} {forsaken : Bool} {mv : Move} {c : Command}
  {t : Task}

/-! ## Owners -/

/-- The owner has a manager until it drops it. -/
theorem isOwned_dropManager (f : Fleet) (m' m : Nat) :
    (f.dropManager m').isOwned m = (f.isOwned m && m' != m) := by
  have disowned : (f.modifyManager m' fun x => { x with owned := false }).isOwned m =
      (f.isOwned m && m' != m) := by
    unfold isOwned modifyManager
    rw [List.getElem?_modify]
    cases f.managers[m]? with
    | none => rfl
    | some x => by_cases same : m' = m <;> simp [same]
  have woken := keepsOwned_wakeListener (f.modifyManager m' fun x => { x with owned := false }) m'
  unfold dropManager
  dsimp only
  split
  · exact disowned
  · exact (isOwned_of_owned woken.1 (woken.2 m)).trans disowned

/-- The owner loses no manager but by dropping it. -/
theorem isOwned_move (kept : mv ≠ .drop m) (stays : mv ≠ .turn) :
    (f.move mv).isOwned m = f.isOwned m := by
  have of_owned (owned : f.KeepsOwned (f.move mv)) : (f.move mv).isOwned m = f.isOwned m :=
    isOwned_of_owned owned.1 (owned.2 m)
  cases mv with
  | call c =>
      have lock := (WaiterInStep.keepsOwned f 0).toLockstep
      have same : Both f.KeepsOwned f f := ⟨rfl, rfl, fun _ => rfl⟩
      exact of_owned (lock.perform_of_agrees same (.refl f) none c).fleets.2
  | wait m' poll cancelled =>
      show (f.spawnWait m' poll cancelled).1.isOwned m = _
      unfold spawnWait
      split <;> rfl
  | runUntilSignal m' =>
      show (f.spawnRun m').1.isOwned m = _
      unfold spawnRun
      split <;> rfl
  | cancel w =>
      show (f.cancelWait w).1.isOwned m = _
      rcases cancelWait_cases f w with eq | eq <;> rw [eq]
      rfl
  | abort w =>
      show (f.abortWait w).1.isOwned m = _
      rcases abortWait_cases f w with eq | eq <;> rw [eq]
      rfl
  | signal s w =>
      show (f.signalWait s w).isOwned m = _
      unfold signalWait
      split <;> rfl
  | drop m' =>
      refine (isOwned_dropManager f m' m).trans ?_
      have ne : m' ≠ m := fun same => kept (congrArg Move.drop same)
      simp [ne]
  | release m' i times =>
      have same : SameBut {} f f := .refl nofun
      exact (same.releaseSubscriber_right m' i times).accords.isOwned m
  | look =>
      have same : SameBut {} f f := .refl nofun
      exact same.look_right.accords.isOwned m
  | turn => exact absurd rfl stays
  | arm | disarm | strike | setClock => rfl

/-! ## Moves that do not concern the waiter -/

/-- A waiter stays as it is in all moves that are not made to it. -/
theorem wait_move (inside : w < f.waits.length) (stays : mv ≠ .turn)
    (other : mv.concerns w = false) :
    (f.move mv).wait w = f.wait w := by
  cases waitMove (f := f) stays with
  | stays times => exact times.wait w
  | comes wt first times => rw [times.wait, wait_addWait_ne (Nat.ne_of_lt inside)]
  | changes w' change made keeps times =>
      have ne : w' ≠ w := by
        rintro rfl
        cases made.symm.trans other
      rw [times.wait, wait_modifyWait_ne ne]
  | passes time is waits => exact wait_of_waits waits w

namespace SameButWait

variable (alike : SameButWait m w forsaken true f g)

include alike

theorem inside : w < f.waits.length := alike.same.inside w rfl

theorem inside' : w < g.waits.length := alike.same.number.symm ▸ alike.inside

/-- What does not concern the waiter keeps the two sides the same, if it keeps what is compared. -/
theorem moved (mv : Move) (kept : mv ≠ .drop m) (stays : mv ≠ .turn)
    (other : mv.concerns w = false)
    (same : SameBut (f.besides w forsaken true) (f.move mv) (g.move mv)) :
    SameButWait m w forsaken true (f.move mv) (g.move mv) := by
  have wait := wait_move alike.inside stays other
  have wait' := wait_move alike.inside' stays other
  exact
    { same := by rwa [besides_of_wait wait]
      order := alike.order.move mv
      order' := alike.order'.move mv
      owned := alike.owned.trans (congrArg (!·) (isOwned_move kept stays)).symm
      errand := (congrArg Wait.errand wait).trans alike.errand
      stands := alike.stands.kept wait wait' (fun due => due.move fun is => absurd is stays)
        (fun due => due.move fun is => absurd is stays)
        (fun closed => alike.order.closed_move closed mv)
        fun closed => alike.order'.closed_move closed mv
      still := nofun }

end SameButWait

/-! ## Moves that concern the waiter -/

theorem wake_of_mem (mem : t ∈ f.tasks.ready) : f.wake t = f := by
  have stays : f.tasks.wake t = f.tasks := dif_pos mem
  rw [wake, stays]

theorem Stands.past_or_due (stands : Stands m w f g) :
    (f.wait w).stage.hasStopped = true ∨ f.IsDue (.wait w) ∧ g.IsDue (.wait w) := by
  cases stands with
  | unbegun _ _ _ due due' => exact Or.inr ⟨due, due'⟩
  | stopped past => exact Or.inl past
  | early _ done => exact Or.inl (by rw [done]; rfl)

theorem abortWait_of_submitted (first : (f.wait w).stage = .submitted) :
    (f.abortWait w).1 = (f.modifyWait w fun wt => { wt with aborted := true }).wake (.wait w) := by
  unfold abortWait
  rw [found_of_wait first rfl]
  dsimp only
  rw [first]
  rfl

theorem abortWait_answer (inside : w < f.waits.length) :
    (f.abortWait w).2 = .reply .nothing := by
  unfold abortWait
  rw [List.getElem?_eq_getElem inside]
  dsimp only
  split <;> rfl

namespace SameButWait

variable (alike : SameButWait m w forsaken true f g)

include alike

/-- The owner drops a manager. -/
theorem dropManager (m' : Nat) :
    SameButWait m w (!(f.dropManager m').isOwned m) true (f.dropManager m')
      (g.dropManager m') := by
  have wait := (sameTimes_dropManager f m').wait w
  have wait' := (sameTimes_dropManager g m').wait w
  have dropped : SameBut (f.besides w forsaken true) (f.dropManager m') (g.dropManager m') :=
    (WaitsInStep.sameBut _).leave (alike.same.disown m') m'
  have more : forsaken = true → (!(f.dropManager m').isOwned m) = true := by
    rw [alike.owned, isOwned_dropManager]
    cases f.isOwned m <;> simp
  have line (h : Fleet) (due : h.IsDue (.wait w)) : (h.move (.drop m')).IsDue (.wait w) :=
    due.move nofun
  exact
    { same := by
        rw [besides_of_wait wait]
        exact dropped.mono rfl id more id
      order := alike.order.move (.drop m')
      order' := alike.order'.move (.drop m')
      owned := rfl
      errand := (congrArg Wait.errand wait).trans alike.errand
      stands := alike.stands.kept wait wait' (line f) (line g)
        (fun closed => alike.order.closed_move closed (.drop m'))
        fun closed => alike.order'.closed_move closed (.drop m')
      still := nofun }

/-- The waiter's token is cancelled on one side, or its task is dropped there after its first turn. -/
theorem marked_right (idle : g.tasks.running = none) {k : Wait → Wait} (mv : Move)
    (stays : mv ≠ .turn) (eq : g.move mv = (g.modifyWait w k).wake (.wait w))
    (errand : ∀ wt, (k wt).errand = wt.errand) (stage : ∀ wt, (k wt).stage = wt.stage)
    (aborted : (g.wait w).stage = .submitted → ∀ wt, (k wt).aborted = wt.aborted) :
    SameButWait m w forsaken true f (g.move mv) := by
  have changed : (g.move mv).wait w = k (g.wait w) := by
    rw [eq]
    exact wait_modifyWait alike.inside' k
  have modified := alike.same.modifyWait_right (k := k) rfl errand
  refine { alike with
    same := ?_
    order' := alike.order'.move mv
    stands := ?_ }
  · rw [eq]
    rcases alike.stands.past_or_due with past | due
    · exact modified.wake_right (Aside.hides_waiter rfl past)
    · -- It stands in line since it came.
      have ready := due.2.resolve_left (by rw [idle]; nofun)
      rw [wake_of_mem (f := g.modifyWait w k) ready]
      exact modified
  · have due' (due : g.IsDue (.wait w)) : (g.move mv).IsDue (.wait w) :=
      due.move fun is => absurd is stays
    cases alike.stands with
    | unbegun first first' same due isDue' =>
        refine .unbegun first (by rw [changed, stage, first']) ?_ due (due' isDue')
        rw [changed, aborted first', same]
    | stopped past past' closed closed' =>
        exact .stopped past (by rw [changed, stage, past']) closed (alike.order'.closed_move closed' mv)
    | early ends done done' => exact .early ends done (by rw [changed, stage, done'])

/-- The waiter's token is cancelled on one side only. -/
theorem cancel_right (idle : g.tasks.running = none) :
    SameButWait m w forsaken true f (g.cancelWait w).1 := by
  rcases cancelWait_cases g w with eq | eq
  · rwa [eq]
  · exact alike.marked_right idle (.cancel w) nofun eq (fun _ => rfl) (fun _ => rfl) fun _ _ => rfl

/-- The waiter's task is dropped on one side only, after its first turn. -/
theorem abort_right (idle : g.tasks.running = none) (past : (g.wait w).stage ≠ .submitted) :
    SameButWait m w forsaken true f (g.abortWait w).1 := by
  rcases abortWait_cases g w with eq | eq
  · rwa [eq]
  · exact alike.marked_right idle (.abort w) nofun eq (fun _ => rfl) (fun _ => rfl) fun first =>
      absurd first past

/-- The waiter's task is dropped on both sides before its first turn. -/
theorem abort_of_submitted (first : (f.wait w).stage = .submitted)
    (first' : (g.wait w).stage = .submitted) :
    SameButWait m w forsaken true (f.move (.abort w)) (g.move (.abort w)) := by
  have eq : f.move (.abort w) = _ := abortWait_of_submitted first
  have eq' : g.move (.abort w) = _ := abortWait_of_submitted first'
  have changed : (f.move (.abort w)).wait w = { f.wait w with aborted := true } := by
    rw [eq]
    exact wait_modifyWait alike.inside _
  have changed' : (g.move (.abort w)).wait w = { g.wait w with aborted := true } := by
    rw [eq']
    exact wait_modifyWait alike.inside' _
  have owned : (f.move (.abort w)).isOwned m = f.isOwned m := isOwned_move nofun nofun
  refine
    { same := ?_
      order := alike.order.move (.abort w)
      order' := alike.order'.move (.abort w)
      owned := alike.owned.trans (congrArg (!·) owned).symm
      errand := by
        rw [changed]
        exact alike.errand
      stands := .unbegun (by rw [changed]; exact first) (by rw [changed']; exact first')
        (by rw [changed, changed']) ?_ ?_
      still := nofun }
  · have asides : (f.move (.abort w)).besides w forsaken true = f.besides w forsaken true := by
      rw [besides, changed]
      rfl
    rw [asides, eq, eq']
    exact (alike.same.modifyWait (h := fun wt => { wt with aborted := true })
      (k := fun wt => { wt with aborted := true }) (fun _ => rfl) (fun _ => rfl) fun _ => rfl).wake _
  · rw [eq]
    exact isDue_wake _ _
  · rw [eq']
    exact isDue_wake _ _

/-- The waiter's task is dropped on both sides. -/
theorem abort (idle : f.tasks.running = none) (idle' : g.tasks.running = none) :
    SameButWait m w forsaken true (f.abortWait w).1 (g.abortWait w).1 := by
  have later (past : (f.wait w).stage ≠ .submitted) (past' : (g.wait w).stage ≠ .submitted) :=
    ((alike.abort_right idle' past').symm.abort_right idle past).symm
  cases alike.stands with
  | unbegun first first' => exact alike.abort_of_submitted first first'
  | stopped past past' =>
      exact later (fun first => nomatch (congrArg WaitStage.hasStopped first).symm.trans past)
        fun first => nomatch (congrArg WaitStage.hasStopped first).symm.trans past'
  | early _ done done' =>
      exact later (fun first => nomatch first.symm.trans done) fun first =>
        nomatch first.symm.trans done'

/-! ## Signals -/

theorem deaf : (f.wait w).stage ≠ .listening := by
  intro listens
  cases alike.stands with
  | unbegun first => cases first.symm.trans listens
  | stopped past => cases (congrArg WaitStage.hasStopped listens).symm.trans past
  | early _ done => cases done.symm.trans listens

/-- The waiter does not heed signals. -/
theorem signal (s : Signal) (w' : Nat) :
    SameButWait m w forsaken true (f.signalWait s w') (g.signalWait s w') := by
  by_cases own : w' = w
  · subst own
    rw [signalWait_of_not_listening alike.deaf, signalWait_of_not_listening alike.symm.deaf]
    exact alike
  · refine alike.moved (.signal s w') nofun nofun (by simpa [Move.concerns] using own) ?_
    exact (MarksInStep.sameBut _ w').signalWait alike.same
      (alike.same.waits w' fun same => own (Option.some.inj same).symm) s

theorem signals (s : Signal) (ws : List Nat) :
    SameButWait m w forsaken true (ws.foldl (Fleet.signalWait s) f)
      (ws.foldl (Fleet.signalWait s) g) := by
  induction ws generalizing f g with
  | nil => exact alike
  | cons w' ws ih => exact ih (alike.signal s w')

theorem listens_of_listens (listens : f.someoneListens = true) : g.someoneListens = true := by
  obtain ⟨wt, mem, waits⟩ := List.any_eq_true.mp listens
  obtain ⟨w', found⟩ := List.mem_iff_getElem?.mp mem
  have other : w ≠ w' := by
    rintro rfl
    have here : f.wait w = wt := wait_of_found found
    have stops : wt.purpose = .stop := here ▸ congrArg Prod.snd alike.errand
    simp [stops] at waits
  rw [← alike.same.waits_getElem? fun same => other (Option.some.inj same)] at found
  exact List.any_eq_true.mpr ⟨wt, List.mem_of_getElem? found, waits⟩

theorem someoneListens : g.someoneListens = f.someoneListens :=
  Bool.eq_iff_iff.mpr ⟨alike.symm.listens_of_listens, alike.listens_of_listens⟩

/-- A signal is raised on both sides. -/
theorem raise {s : Signal} (ends : ∀ x ∈ f.rests (.raise s), x.tasks.isSettled = true)
    (ends' : ∀ x ∈ g.rests (.raise s), x.tasks.isSettled = true) :
    Alongside (SameButWait m w forsaken true) (f.raise s) (g.raise s) := by
  unfold rests at ends ends'
  have settled := alike.settle (ends _ List.mem_cons_self) (ends' _ List.mem_cons_self)
  rw [settled.someoneListens, settled.same.number] at ends'
  unfold Fleet.raise
  dsimp only
  rw [settled.someoneListens, settled.same.number]
  cases listening : f.settle.someoneListens with
  | false => exact .intro settled _
  | true =>
      rw [listening] at ends ends'
      exact .intro ((settled.signals s _).settle
        (ends _ (List.mem_cons_of_mem _ List.mem_cons_self))
        (ends' _ (List.mem_cons_of_mem _ List.mem_cons_self))) _

/-! ## Comparisons -/

/-- A handle is the same on both sides, unless its manager was forsaken. -/
theorem handleAt (place : Nat × Nat) : g.handleAt? place = f.handleAt? place ∨
    (forsaken = true ∧ place.1 = m) ∧ (f.handleAt? place = none ∨ g.handleAt? place = none) := by
  unfold handleAt?
  rw [alike.same.accords.handles]
  rcases alike.held place.1 with held | ⟨is, gone, -, -⟩
  · rw [held]
    exact Or.inl rfl
  · cases f.isHeld place.1 with
    | false => exact Or.inr ⟨⟨gone, is⟩, Or.inl rfl⟩
    | true =>
        cases g.isHeld place.1 with
        | false => exact Or.inr ⟨⟨gone, is⟩, Or.inr rfl⟩
        | true => exact Or.inl rfl

end SameButWait

theorem compareHandles_of_none {a b : Nat × Nat}
    (none : f.handleAt? a = none ∨ f.handleAt? b = none) : f.compareHandles a b = .noHandle := by
  unfold compareHandles
  split
  · rename_i x y left right
    rw [left, right] at none
    rcases none with none | none <;> cases none
  · rfl

theorem SameButWait.compareHandles (alike : SameButWait m w forsaken true f g) (a b : Nat × Nat) :
    (f.compareHandles a b).SameBut (forsaken && (Command.compare a b).asks m)
      (g.compareHandles a b) := by
  have missing (gone : forsaken = true) (asks : (Command.compare a b).asks m = true)
      (none : (f.handleAt? a = none ∨ f.handleAt? b = none) ∨
        (g.handleAt? a = none ∨ g.handleAt? b = none)) :
      (f.compareHandles a b).SameBut (forsaken && (Command.compare a b).asks m)
        (g.compareHandles a b) := by
    have is : (forsaken && (Command.compare a b).asks m) = true := by rw [gone, asks]; rfl
    rw [is]
    rcases none with here | there
    · rw [compareHandles_of_none here]
      exact .left rfl _
    · rw [compareHandles_of_none there]
      exact .right rfl _
  rcases alike.handleAt a with same | ⟨⟨gone, is⟩, none⟩
  · rcases alike.handleAt b with same' | ⟨⟨gone, is⟩, none⟩
    · have eq : g.compareHandles a b = f.compareHandles a b := by
        rw [Fleet.compareHandles, same, same']
        rfl
      rw [eq]
      exact .same _
    · exact missing gone (by simp [Command.asks, is]) (none.imp Or.inr Or.inr)
  · exact missing gone (by simp [Command.asks, is]) (none.imp Or.inl Or.inl)

/-! ## Commands -/

/-- What a command leaves and answers is the same in two fleets but for a waiter. -/
structure Carried (m w : Nat) (c : Command) (x y : Fleet × Answer) : Prop where
  fleets : SameButWait m w (!x.1.isOwned m) true x.1 y.1
  answers : x.2.SameBut (!x.1.isOwned m && c.asks m) y.2

namespace SameButWait

variable (alike : SameButWait m w forsaken true f g)

include alike

theorem again : SameButWait m w (!f.isOwned m) true f g := alike.owned ▸ alike

/-- A command that is a move that does not concern the waiter. -/
theorem carried (mv : Move) (eq : ∀ h : Fleet, (h.carryOut c).1 = h.move mv) (kept : mv ≠ .drop m)
    (stays : mv ≠ .turn) (other : mv.concerns w = false)
    (along : Alongside (SameBut (f.besides w forsaken true)) (f.carryOut c) (g.carryOut c)) :
    Carried m w c (f.carryOut c) (g.carryOut c) := by
  have same := along.fleets
  rw [eq, eq] at same
  refine ⟨?_, along.answers ▸ .same _⟩
  rw [eq, eq]
  exact (alike.moved mv kept stays other same).again

theorem call (c : Call) : Carried m w (.call c) (f.carryOut (.call c)) (g.carryOut (.call c)) := by
  obtain ⟨f', g', r, r', eq, eq', same, replies⟩ := alike.perform none c
  have moved := alike.moved (.call c) nofun nofun rfl (by
    simpa only [Fleet.move, eq, eq'] using same)
  simp only [Fleet.move, eq, eq'] at moved
  simp only [Fleet.carryOut, eq, eq']
  exact ⟨moved.again, .reply (moved.owned ▸ replies)⟩

/-- Both sides carry out the same command, which does not cancel the waiter's token. Who comes for
the manager comes while its owner has it. -/
theorem carryOut (between : f.Between m) (between' : g.Between m) (others : c.cancels w = false)
    (comes : c.comesFor m = true → f.isOwned m = true)
    (ends : ∀ x ∈ f.rests c, x.tasks.isSettled = true)
    (ends' : ∀ x ∈ g.rests c, x.tasks.isSettled = true) :
    Carried m w c (f.carryOut c) (g.carryOut c) := by
  have marks (w' : Nat) := MarksInStep.sameBut (f.besides w forsaken true) w'
  have waits := WaitsInStep.sameBut (f.besides w forsaken true)
  have held (m' : Nat) (comes : m' = m → f.isOwned m = true) : g.isHeld m' = f.isHeld m' := by
    refine (alike.held m').resolve_right fun ⟨is, gone, _⟩ => ?_
    rw [alike.owned, comes is] at gone
    cases gone
  have compared {w' : Nat} (other : w' ≠ w) : g.waits[w']? = f.waits[w']? :=
    alike.same.waits_getElem? fun same => other (Option.some.inj same).symm
  cases c with
  | call c => exact alike.call c
  | settle =>
      have settled := alike.settle (ends _ List.mem_cons_self) (ends' _ List.mem_cons_self)
      exact ⟨settled.again, .same _⟩
  | sleep millis =>
      have slept := alike.sleep between.toTimely between'.toTimely ends ends'
      exact ⟨slept.again, .same _⟩
  | wait m' poll cancelled =>
      exact alike.carried (.wait m' poll cancelled) (fun _ => rfl) nofun nofun rfl
        (waits.spawnWait alike.same (held m' fun is => comes (beq_iff_eq.mpr is)) poll cancelled)
  | runUntilSignal m' =>
      exact alike.carried (.runUntilSignal m') (fun _ => rfl) nofun nofun rfl
        (waits.spawnRun alike.same (held m' fun is => comes (beq_iff_eq.mpr is)))
  | cancel w' =>
      have other : w' ≠ w := by simpa [Command.cancels] using others
      exact alike.carried (.cancel w') (fun _ => rfl) nofun nofun
        (by simpa [Move.concerns] using other) ((marks w').cancelWait alike.same (compared other))
  | abort w' =>
      by_cases own : w' = w
      · subst own
        have aborted := alike.abort between.idle between'.idle
        refine ⟨aborted.again, ?_⟩
        show (f.abortWait w').2.SameBut _ (g.abortWait w').2
        rw [abortWait_answer alike.inside, abortWait_answer alike.inside']
        exact .same _
      · exact alike.carried (.abort w') (fun _ => rfl) nofun nofun
          (by simpa [Move.concerns] using own) ((marks w').abortWait alike.same (compared own))
  | raise s =>
      have raised := alike.raise ends ends'
      exact ⟨raised.fleets.again, raised.answers ▸ .same _⟩
  | drop m' => exact ⟨alike.dropManager m', .same _⟩
  | release m' i times =>
      refine alike.carried (.release m' i times) (fun _ => rfl) nofun nofun rfl (.intro ?_ _)
      exact ((alike.same.releaseSubscriber_right m' i times).symm.releaseSubscriber_right
        m' i times).symm
  | arm b what =>
      exact alike.carried (.arm b what) (fun _ => rfl) nofun nofun rfl
        (.intro (waits.arm alike.same b what) _)
  | disarm b what =>
      exact alike.carried (.disarm b what) (fun _ => rfl) nofun nofun rfl
        (.intro (waits.disarm alike.same b what) _)
  | compare a b =>
      refine ⟨alike.again, ?_⟩
      have answers := alike.compareHandles a b
      rw [alike.owned] at answers
      exact answers

/-! ## Reports -/

theorem look : SameButWait m w forsaken true (f.move .look) (g.move .look) :=
  alike.moved .look nofun nofun rfl alike.same.look

/-- The waiter's token is cancelled on one side only, and the owner looks. -/
theorem observe_cancel_right (between' : g.Between m) :
    SameButWait m w forsaken true f (g.observe (.cancel w)).1 := by
  have cancelled := alike.cancel_right between'.idle
  exact { cancelled with
    same := cancelled.same.look_right
    order' := cancelled.order'.move .look
    stands := cancelled.stands.kept rfl rfl id id id fun closed =>
      cancelled.order'.closed_move closed .look }

end SameButWait

/-- Whether the owner does not see a manager. -/
def Report.forsakes (x : Report) (m : Nat) : Bool := ((x.managers[m]?).bind ManagerReport.view).isNone

/-- What is shown after a command is the same but for a waiter, the events, the log and what the
subscribers kept. Once the owner has dropped the manager, what is asked of it may have different
answers. -/
structure Report.SameButWait (m w : Nat) (c : Command) (x y : Report) : Prop where
  answer : x.answer.SameBut (x.forsakes m && c.asks m) y.answer
  views : y.managers.map ManagerReport.view = x.managers.map ManagerReport.view
  notes : List.Forall₂ (Note.SameBut (x.forsakes m)) x.notes y.notes
  count : y.waits.length = x.waits.length
  waits : ∀ k, k ≠ w → y.waits[k]? = x.waits[k]?

theorem forsakes_observe (f : Fleet) (c : Command) (m : Nat) :
    (f.observe c).2.forsakes m = !(f.observe c).1.isOwned m := by
  show ((((f.carryOut c).1.managers.map _)[m]?).bind _).isNone =
    !((((f.carryOut c).1.managers.map lookAt)[m]?).map Manager.owned).getD false
  rw [List.getElem?_map, List.getElem?_map]
  cases (f.carryOut c).1.managers[m]? with
  | none => rfl
  | some x =>
      show (if x.owned then _ else none).isNone = !x.owned
      cases x.owned <;> rfl

theorem waits_observe (f : Fleet) (c : Command) :
    (f.observe c).2.waits = (f.carryOut c).1.waits.map waitResult? := rfl

theorem notes_observe (f : Fleet) (c : Command) :
    (f.observe c).2.notes = (f.carryOut c).1.notes.toList.drop f.notes.size := by
  show ((f.carryOut c).1.notes.extract f.notes.size (f.carryOut c).1.notes.size).toList = _
  rw [Array.toList_extract, List.extract_eq_take_drop]
  exact List.take_of_length_le (by simp)

namespace SameButWait

variable (alike : SameButWait m w forsaken true f g)

include alike

theorem observe (between : f.Between m) (between' : g.Between m) (others : c.cancels w = false)
    (comes : c.comesFor m = true → f.isOwned m = true)
    (ends : ∀ x ∈ f.rests c, x.tasks.isSettled = true)
    (ends' : ∀ x ∈ g.rests c, x.tasks.isSettled = true) :
    SameButWait m w (!(f.observe c).1.isOwned m) true (f.observe c).1 (g.observe c).1 ∧
      (f.observe c).2.SameButWait m w c (g.observe c).2 := by
  obtain ⟨fleets, answers⟩ := alike.carryOut between between' others comes ends ends'
  have looked := fleets.look.again
  have owned : ((f.carryOut c).1.move .look).isOwned m = (f.carryOut c).1.isOwned m :=
    isOwned_move nofun nofun
  refine ⟨looked, ?_⟩
  have forsakes := forsakes_observe f c m
  exact
    { answer := by
        rw [forsakes.trans (congrArg (!·) owned)]
        exact answers
      views := fleets.same.views
      notes := by
        rw [notes_observe, notes_observe, forsakes.trans (congrArg (!·) owned),
          ← Array.length_toList, ← Array.length_toList, ← alike.same.notes.length_eq]
        exact List.forall₂_drop _ fleets.same.notes
      count := by
        rw [waits_observe, waits_observe, List.length_map, List.length_map, fleets.same.number]
      waits := fun k other => by
        rw [waits_observe, waits_observe, List.getElem?_map, List.getElem?_map,
          fleets.same.waits_getElem? fun same => other (Option.some.inj same).symm] }

end SameButWait

end Flotilla.Fleet
