import Flotilla.Closure
import Flotilla.Proofs.Feeds
import Mathlib.Data.List.Induction
import Mathlib.Data.List.Nodup

/-!
# Runs of one bot that overlap

The runs of a bot made from a function share one flag, which a run sets when it begins and clears
when it ends. This module cuts what the commands of such a bot do into moves (`exists_play_after`),
notes of each move which run began in it and which ended (`signs`), and says what the flag tells at
every point of every run of moves (`connected_iff_since`): the bot reports itself as connected
exactly if some run began and no run has ended since. So it never does without a run under way, and
it always does while no run ends beside another; but a run that ends takes the flag from the
others (`not_connected_of_crossing`).
-/

namespace Flotilla.Closure

/-- Something that a run of a bot does: it begins its work, or having begun it comes to its end. -/
inductive Sign where
  | begun (run : Nat)
  | ended (run : Nat)
  deriving DecidableEq

/-- The run that does it. -/
def Sign.run : Sign → Nat
  | .begun r => r
  | .ended r => r

/-- What is told of one run. -/
def about (r : Nat) (told : List Sign) : List Sign := told.filter fun x => x.run = r

/-- What a run does in passing from where it is to where it is then. One that is dropped before it
began does nothing. -/
def signsOf (r : Nat) : Option Stage → Option Stage → List Sign
  | some .submitted, some .submitted => []
  | some .submitted, some (.over .aborted) => []
  | some .submitted, some (.over _) => [.begun r, .ended r]
  | some .submitted, some _ => [.begun r]
  | some (.over _), _ => []
  | some _, some (.over _) => [.ended r]
  | _, _ => []

namespace State

/-! ## Moves -/

/-- One thing that happens to a bot. -/
inductive Move where
  | run (id : Nat)
  | quit
  | finish (ending : Option Ending)
  | abort (run : Nat)
  /-- Somebody looks at the bot. -/
  | look
  /-- One step of the run whose turn it is, or the first run in line gets its turn. -/
  | turn

/-- What a move does. -/
def move (s : State) : Move → State
  | .run id => (s.perform (.run id)).1
  | .quit => (s.perform .quit).1
  | .finish ending => (s.perform (.finish ending)).1
  | .abort r => (s.perform (.abort r)).1
  | .look => { s with begun := [] }
  | .turn => s.step?.getD s

/-- Makes moves in order. -/
def play (s : State) (ms : List Move) : State := ms.foldl move s

/-- A bot that was never run. -/
def fresh (name : String) (behaviour : Behaviour) (ending : Ending) : State :=
  { name, behaviour, ending }

/-- What commands carried out in order make of a bot. -/
def after (s : State) (cs : List Command) : State := cs.foldl (fun s c => (s.observe c).1) s

/-- Where a run is, if there is one of that number. -/
def stage? (s : State) (r : Nat) : Option Stage := s.runs[r]?.map Run.stage

/-- A run has begun and not come to its end. -/
def Underway (s : State) (r : Nat) : Prop := (s.stage? r).any Stage.isBegun = true

instance (s : State) (r : Nat) : Decidable (s.Underway r) :=
  inferInstanceAs (Decidable ((s.stage? r).any Stage.isBegun = true))

/-- What the run whose turn it is does in a move. -/
def signs (s : State) : Move → List Sign
  | .turn =>
    match s.tasks.running with
    | some r => signsOf r (s.stage? r) ((s.move .turn).stage? r)
    | none => []
  | _ => []

/-- What the runs of a bot do in the course of moves, in order. -/
def record (s : State) (ms : List Move) : List Sign := noted move signs s ms

theorem play_append (s : State) (ms ms' : List Move) : s.play (ms ++ ms') = (s.play ms).play ms' :=
  List.foldl_append

theorem play_snoc (s : State) (ms : List Move) (mv : Move) :
    s.play (ms ++ [mv]) = (s.play ms).move mv :=
  play_append s ms [mv]

theorem record_snoc (s : State) (ms : List Move) (mv : Move) :
    s.record (ms ++ [mv]) = s.record ms ++ (s.play ms).signs mv :=
  noted_snoc move signs s ms mv

/-! ## Where the runs are -/

variable {s s' : State} {told : List Sign} {r : Nat} {before after : Stage}

theorem stage?_setStage (s : State) (r q : Nat) (stage : Stage) :
    (s.setStage r stage).stage? q =
      if q = r then (s.stage? r).map fun _ => stage else s.stage? q := by
  unfold stage? setStage
  rw [List.getElem?_modify]
  split
  · rename_i same
    rw [if_pos same.symm, same, Option.map_map]
    cases s.runs[q]? <;> rfl
  · rename_i other
    rw [if_neg (Ne.symm other)]
    simp

theorem stage?_setStage_of_some (here : s.stage? r = some before) (stage : Stage) (q : Nat) :
    (s.setStage r stage).stage? q = if q = r then some stage else s.stage? q := by
  rw [stage?_setStage, here]
  rfl

theorem stage?_endRun (here : s.stage? r = some before) (outcome : Outcome) (q : Nat) :
    (s.endRun r outcome).stage? q = if q = r then some (.over outcome) else s.stage? q :=
  stage?_setStage_of_some (s := { s with liveness := s.liveness.disconnect }) here
    (.over outcome) q

end State

/-! ## What is told fits where the runs are -/

/-- Whether the last thing told is that a run began. -/
def leavesConnected (told : List Sign) : Bool :=
  match told.getLast? with
  | some (.begun _) => true
  | _ => false

theorem leavesConnected_concat_begun (told : List Sign) (r : Nat) :
    leavesConnected (told ++ [.begun r]) = true := by
  simp [leavesConnected]

theorem leavesConnected_concat_ended (told : List Sign) (r : Nat) :
    leavesConnected (told ++ [.ended r]) = false := by
  simp [leavesConnected]

theorem leavesConnected_iff (told : List Sign) :
    leavesConnected told = true ↔
      ∃ older r newer, told = older ++ .begun r :: newer ∧ ∀ q, .ended q ∉ newer := by
  constructor
  · intro connected
    rcases List.eq_nil_or_concat told with rfl | ⟨older, r | r, rfl⟩
    · cases connected
    · exact ⟨older, r, [], List.concat_eq_append, fun q => List.not_mem_nil⟩
    · rw [List.concat_eq_append, leavesConnected_concat_ended] at connected
      cases connected
  · rintro ⟨older, r, newer, rfl, noEnd⟩
    rcases List.eq_nil_or_concat newer with rfl | ⟨newer, q | q, rfl⟩
    · exact leavesConnected_concat_begun older r
    · rw [List.concat_eq_append, ← List.cons_append, ← List.append_assoc]
      exact leavesConnected_concat_begun _ q
    · exact absurd (by simp) (noEnd q)

/-- What is told of a run that is at a stage, if there is a run of that number. -/
def Fits (r : Nat) : Option Stage → List Sign → Prop
  | none, told | some .submitted, told => told = []
  | some (.over _), told => told = [] ∨ told = [.begun r, .ended r]
  | some _, told => told = [.begun r]

/-- How far a stage is on the way of a run. -/
def Stage.rank : Stage → Nat
  | .submitted => 0
  | .awaitingQuit | .awaitingPermit | .permitted => 1
  | .over _ => 2

section

variable {told : List Sign} {r q : Nat} {before after : Stage}

theorem signsOf_self (r : Nat) (stage : Option Stage) : signsOf r stage stage = [] := by
  rcases stage with _ | stage
  · rfl
  · cases stage <;> rfl

theorem run_of_mem_signsOf {before after : Option Stage} {x : Sign}
    (mem : x ∈ signsOf r before after) : x.run = r := by
  unfold signsOf at mem
  split at mem <;> simp at mem
  all_goals rcases mem with rfl | rfl
  all_goals rfl

theorem about_append (r : Nat) (told told' : List Sign) :
    about r (told ++ told') = about r told ++ about r told' :=
  List.filter_append ..

theorem mem_about {x : Sign} {told : List Sign} (doer : x.run = r) :
    x ∈ about r told ↔ x ∈ told := by
  simp [about, doer]

theorem about_signsOf (r : Nat) (before after : Option Stage) :
    about r (signsOf r before after) = signsOf r before after := by
  refine List.filter_eq_self.mpr fun x mem => ?_
  simpa using run_of_mem_signsOf mem

theorem about_signsOf_of_ne {before after : Option Stage} (other : q ≠ r) :
    about q (signsOf r before after) = [] := by
  refine List.filter_eq_nil_iff.mpr fun x mem => ?_
  rw [run_of_mem_signsOf mem]
  simpa using other.symm

/-- A run that goes on from one stage to another does what fits. -/
theorem Fits.pass {told : List Sign} (fits : Fits r (some before) told)
    (forward : before.rank ≤ after.rank) :
    Fits r (some after) (told ++ signsOf r (some before) (some after)) := by
  cases before with
  | submitted =>
      cases after with
      | «over» outcome => cases outcome <;> simp_all [Fits, signsOf]
      | _ => simp_all [Fits, signsOf]
  | «over» outcome =>
      cases after with
      | «over» => simpa [Fits, signsOf] using fits
      | _ => simp [Stage.rank] at forward
  | _ => cases after <;> simp_all [Fits, signsOf, Stage.rank]

theorem Fits.underway_iff {stage : Option Stage} {told : List Sign} (fits : Fits r stage told) :
    stage.any Stage.isBegun = true ↔ .begun r ∈ told ∧ .ended r ∉ told := by
  rcases stage with _ | stage
  · simp_all [Fits]
  · cases stage with
    | «over» =>
        rcases fits with rfl | rfl <;> simp [Stage.isBegun]
    | _ => simp_all [Fits, Stage.isBegun]

/-- A run does not end before it begins. -/
theorem Fits.notMem_ended {stage : Option Stage} {older newer : List Sign}
    (fits : Fits r stage (older ++ .begun r :: newer)) : .ended r ∉ older := by
  rcases stage with _ | stage
  · simp [Fits] at fits
  · cases stage with
    | «over» =>
        rcases older with _ | ⟨x, older⟩
        · exact List.not_mem_nil
        · simp_all [Fits, List.append_eq_singleton_iff]
    | _ => simp_all [Fits, List.append_eq_singleton_iff]

end

namespace State

/-- What is told fits the state. -/
structure Sound (s : State) (told : List Sign) : Prop where
  /-- Nobody waits for two permits. -/
  once : s.permits.waiting.Nodup
  waits : ∀ r ∈ s.permits.waiting, s.stage? r = some .awaitingPermit
  fits : ∀ r, Fits r (s.stage? r) (about r told)
  flag : s.liveness.connected = leavesConnected told

/-- What is told fits the state after run `r` went on, when it is told what this run did. -/
def GoesOn (s : State) (told : List Sign) (r : Nat) (s' : State) : Prop :=
  Sound s' (told ++ signsOf r (s.stage? r) (s'.stage? r))

variable {s s' : State} {told : List Sign} {r : Nat} {before after : Stage}

namespace Sound

theorem kept (sound : Sound s told) (stages : ∀ q, s'.stage? q = s.stage? q)
    (line : s'.permits.waiting = s.permits.waiting)
    (flag : s'.liveness.connected = s.liveness.connected) : Sound s' told where
  once := line ▸ sound.once
  waits q mem := (stages q).trans (sound.waits q (line ▸ mem))
  fits q := stages q ▸ sound.fits q
  flag := flag.trans sound.flag

theorem rests (sound : Sound s' told) (stage : s'.stage? r = s.stage? r) : GoesOn s told r s' := by
  unfold GoesOn
  rwa [stage, signsOf_self, List.append_nil]

/-- One run goes on, and the others stay where they are. -/
theorem pass (sound : Sound s told) (here : s.stage? r = some before)
    (stages : ∀ q, s'.stage? q = if q = r then some after else s.stage? q)
    (forward : before.rank ≤ after.rank) (once : s'.permits.waiting.Nodup)
    (waits : ∀ q ∈ s'.permits.waiting, s'.stage? q = some .awaitingPermit)
    (flag : s'.liveness.connected =
      leavesConnected (told ++ signsOf r (some before) (some after))) :
    Sound s' (told ++ signsOf r (some before) (some after)) := by
  refine ⟨once, waits, fun q => ?_, flag⟩
  rw [stages q, about_append]
  split
  · rename_i same
    subst same
    rw [about_signsOf]
    exact (here ▸ sound.fits q).pass forward
  · rename_i other
    rw [about_signsOf_of_ne other, List.append_nil]
    exact sound.fits q

theorem goesOn (sound : Sound s' (told ++ signsOf r (some before) (some after)))
    (here : s.stage? r = some before)
    (stages : ∀ q, s'.stage? q = if q = r then some after else s.stage? q) :
    GoesOn s told r s' := by
  have there : s'.stage? r = some after := (stages r).trans (if_pos rfl)
  unfold GoesOn
  rwa [here, there]

theorem notMem (sound : Sound s told) (here : s.stage? r = some before)
    (elsewhere : before ≠ .awaitingPermit) : r ∉ s.permits.waiting := fun mem =>
  elsewhere (Option.some.inj (here.symm.trans (sound.waits r mem)))

/-- Where the run that goes on does not wait for a permit, those that do wait on. -/
theorem waits_of_notMem (sound : Sound s told)
    (stages : ∀ q, s'.stage? q = if q = r then some after else s.stage? q)
    (clear : r ∉ s.permits.waiting) :
    ∀ q ∈ s.permits.waiting, s'.stage? q = some .awaitingPermit := by
  intro q mem
  have other : q ≠ r := fun same => clear (same ▸ mem)
  exact (stages q).trans ((if_neg other).trans (sound.waits q mem))

/-! ## Permits -/

theorem leave (sound : Sound s told) (r : Nat) :
    Sound { s with permits := s.permits.leave r } told where
  once := sound.once.erase r
  waits q mem := sound.waits q (List.mem_of_mem_erase mem)
  fits := sound.fits
  flag := sound.flag

theorem notMem_leave (sound : Sound s told) (r : Nat) : r ∉ (s.permits.leave r).waiting :=
  sound.once.not_mem_erase

/-- The first in line gets the permit that is added. -/
theorem addPermit (sound : Sound s told) : Sound s.addPermit told := by
  have line := s.permits.release_waiting
  have next := s.permits.release_next
  unfold State.addPermit
  generalize s.permits.release = released at line next ⊢
  rcases released with ⟨permits, _ | r⟩
  · refine { sound with once := ?_, waits := fun q mem => ?_ }
    · exact line ▸ sound.once.tail
    · exact sound.waits q (List.mem_of_mem_tail (line ▸ mem))
  · obtain ⟨rest, queue⟩ := List.head?_eq_some_iff.mp next.symm
    have left : permits.waiting = rest := line.trans (congrArg List.tail queue)
    have order : (r :: rest).Nodup := queue ▸ sound.once
    have here : s.stage? r = some .awaitingPermit :=
      sound.waits r (queue ▸ List.mem_cons_self)
    have stages := stage?_setStage_of_some
      (s := { s with permits, tasks := s.tasks.wake r }) here .permitted
    have passed := sound.pass here stages (Nat.le_refl 1) (left ▸ order.of_cons)
      (fun q mem => ?_) (sound.flag.trans (congrArg leavesConnected (List.append_nil told).symm))
    · exact List.append_nil told ▸ passed
    · have behind : q ∈ rest := left ▸ mem
      have other : q ≠ r := fun same => (List.nodup_cons.mp order).1 (same ▸ behind)
      rw [stages q, if_neg other]
      exact sound.waits q (queue ▸ List.mem_cons_of_mem r behind)

/-- A permit that is added goes to somebody who waits for it. -/
theorem stage?_addPermit (sound : Sound s told) (here : s.stage? r = some before)
    (elsewhere : before ≠ .awaitingPermit) : s.addPermit.stage? r = s.stage? r := by
  have next := s.permits.release_next
  unfold State.addPermit
  generalize s.permits.release = released at next ⊢
  rcases released with ⟨permits, _ | q⟩
  · rfl
  · have other : r ≠ q := fun same =>
      sound.notMem here elsewhere (same ▸ List.mem_of_mem_head? next.symm)
    exact (stage?_setStage _ q r .permitted).trans (if_neg other)

/-! ## What a run does in its turn -/

theorem park (sound : Sound s told) (r : Nat) : GoesOn s told r s.park := by
  have parked : Sound s.park told := sound.kept (fun _ => rfl) rfl rfl
  exact parked.rests rfl

/-- A run under way comes to its end. -/
theorem endRun (sound : Sound s told) (here : s.stage? r = some before)
    (begun : before.isBegun = true) (clear : r ∉ s.permits.waiting) (outcome : Outcome) :
    GoesOn s told r (s.endRun r outcome) := by
  have stages := stage?_endRun here outcome
  have does : signsOf r (some before) (some (.over outcome)) = [.ended r] := by
    cases before <;> first | rfl | cases begun
  have waits := sound.waits_of_notMem stages clear
  refine (sound.pass here stages ?_ sound.once waits ?_).goesOn here stages
  · cases before <;> first | exact Nat.le_succ 1 | cases begun
  · rw [does]
    exact (leavesConnected_concat_ended told r).symm

/-- A run begins and comes to its end in the same turn. -/
theorem finishAtOnce (sound : Sound s told) (here : s.stage? r = some .submitted)
    (runs : s'.runs = s.runs) (line : s'.permits.waiting = s.permits.waiting) :
    GoesOn s told r (s'.finishRun r) := by
  have same : ∀ q, s'.stage? q = s.stage? q := fun q => congrArg (·[q]?.map Run.stage) runs
  have stages : ∀ q, (s'.finishRun r).stage? q =
      if q = r then some (.over (.ofEnding s'.ending)) else s.stage? q := fun q =>
    same q ▸ stage?_endRun ((same r).trans here) _ q
  have does : signsOf r (some .submitted) (some (.over (.ofEnding s'.ending))) =
      [.begun r] ++ [.ended r] := by
    cases s'.ending <;> rfl
  have clear := sound.notMem here Stage.noConfusion
  have waits := sound.waits_of_notMem stages clear
  refine (sound.pass here stages (Nat.zero_le 2) (line ▸ sound.once)
    (fun q mem => waits q (line ▸ mem)) ?_).goesOn here stages
  rw [does, ← List.append_assoc]
  exact (leavesConnected_concat_ended (told ++ [.begun r]) r).symm

/-- A run begins and waits. -/
theorem beginWaiting (sound : Sound s told) (here : s.stage? r = some .submitted)
    (stages : ∀ q, s'.stage? q = if q = r then some after else s.stage? q)
    (begun : after.isBegun = true) (once : s'.permits.waiting.Nodup)
    (waits : ∀ q ∈ s'.permits.waiting, s'.stage? q = some .awaitingPermit)
    (connected : s'.liveness.connected = true) : GoesOn s told r s' := by
  have does : signsOf r (some .submitted) (some after) = [.begun r] := by
    cases after <;> first | rfl | cases begun
  refine (sound.pass here stages (Nat.zero_le _) once waits ?_).goesOn here stages
  rw [does, connected]
  exact (leavesConnected_concat_begun told r).symm

theorem beginRun (sound : Sound s told) (here : s.stage? r = some .submitted) (id : Nat) :
    GoesOn s told r (s.beginRun r id) := by
  have clear := sound.notMem here Stage.noConfusion
  unfold State.beginRun
  extract_lets s₁
  split
  · exact sound.finishAtOnce here rfl rfl
  · exact sound.finishAtOnce here rfl rfl
  · exact sound.finishAtOnce here rfl rfl
  · split
    · exact sound.finishAtOnce here rfl rfl
    · have stages := stage?_setStage_of_some (s := { s₁ with liveness := s₁.liveness.watch r }) here
        .awaitingQuit
      exact sound.beginWaiting here stages rfl sound.once (sound.waits_of_notMem stages clear) rfl
  · have line := s₁.permits.acquire_waiting r
    generalize s₁.permits.acquire r = acquired at line ⊢
    rcases acquired with ⟨permits, _ | _⟩
    · have longer : permits.waiting = s.permits.waiting ++ [r] := line
      have stages := stage?_setStage_of_some (s := { s₁ with permits }) here .awaitingPermit
      refine sound.beginWaiting here stages rfl ?_ (fun q mem => ?_) rfl
      · rw [← List.concat_eq_append] at longer
        exact longer ▸ List.Nodup.concat clear sound.once
      · refine (stages q).trans ?_
        split
        · rfl
        · rename_i other
          have mem' : q ∈ s.permits.waiting ++ [r] := longer ▸ mem
          rw [List.mem_append, List.mem_singleton] at mem'
          exact sound.waits q (mem'.resolve_right other)
    · exact sound.finishAtOnce here rfl line

/-- A run is dropped in its turn. -/
theorem dropRun (sound : Sound s told) (here : s.stage? r = some before) :
    GoesOn s told r (s.dropRun r before) := by
  cases before with
  | submitted =>
      have clear := sound.notMem here Stage.noConfusion
      have stages : ∀ q, (s.dropRun r .submitted).stage? q =
          if q = r then some (.over .aborted) else s.stage? q :=
        stage?_setStage_of_some here (.over .aborted)
      have waits := sound.waits_of_notMem stages clear
      refine (sound.pass here stages (Nat.zero_le 2) sound.once waits ?_).goesOn here stages
      -- It never began, so it does nothing and leaves the flag alone.
      exact sound.flag.trans (congrArg leavesConnected (List.append_nil told).symm)
  | awaitingQuit =>
      have left : Sound { s with liveness := s.liveness.unwatch r } told :=
        sound.kept (fun _ => rfl) rfl rfl
      exact left.endRun here rfl (sound.notMem here Stage.noConfusion) .aborted
  | awaitingPermit => exact (sound.leave r).endRun here rfl (sound.notMem_leave r) .aborted
  | permitted =>
      have same := sound.stage?_addPermit here Stage.noConfusion
      have here' := same.trans here
      have given := sound.addPermit
      have ended := given.endRun here' rfl (given.notMem here' Stage.noConfusion) .aborted
      unfold GoesOn at ended ⊢
      rwa [same] at ended
  | «over» outcome => exact sound.park r

theorem advance (sound : Sound s told) (r : Nat) : GoesOn s told r (s.advance r) := by
  unfold State.advance
  cases found : s.runs[r]? with
  | none => exact sound.park r
  | some run =>
      have here : s.stage? r = some run.stage := congrArg (Option.map Run.stage) found
      dsimp only
      split
      · exact sound.dropRun here
      · cases stage : run.stage with
        | submitted => exact sound.beginRun (stage ▸ here) run.id
        | awaitingQuit =>
            rw [stage] at here
            dsimp only
            split
            · have left : Sound { s with liveness := s.liveness.unwatch r } told :=
                sound.kept (fun _ => rfl) rfl rfl
              exact left.endRun here rfl (sound.notMem here Stage.noConfusion) _
            · exact sound.park r
        | permitted =>
            rw [stage] at here
            exact sound.endRun here rfl (sound.notMem here Stage.noConfusion) _
        | awaitingPermit | «over» => exact sound.park r

/-! ## What a move does -/

theorem run (sound : Sound s told) (id : Nat) : Sound (s.perform (.run id)).1 told := by
  have stages : ∀ q, (s.perform (.run id)).1.stage? q =
      if q = s.runs.length then some .submitted else s.stage? q := fun q => by
    unfold stage? perform
    dsimp only
    rcases Nat.lt_trichotomy q s.runs.length with lt | rfl | gt
    · rw [List.getElem?_append_left lt, if_neg (Nat.ne_of_lt lt)]
    · rw [List.getElem?_concat_length, if_pos rfl]
      rfl
    · rw [List.getElem?_eq_none (by simp; omega), List.getElem?_eq_none (Nat.le_of_lt gt),
        if_neg (Nat.ne_of_gt gt)]
  have absent : s.stage? s.runs.length = none := by
    simp [stage?]
  refine ⟨sound.once, fun q mem => ?_, fun q => ?_, sound.flag⟩
  · rw [stages q]
    split
    · rename_i same
      cases absent.symm.trans (same ▸ sound.waits q mem)
    · exact sound.waits q mem
  · rw [stages q]
    split
    · rename_i same
      subst same
      have fits := sound.fits s.runs.length
      rw [absent] at fits
      exact fits
    · exact sound.fits q

theorem abort (sound : Sound s told) (r : Nat) : Sound (s.perform (.abort r)).1 told := by
  unfold State.perform
  dsimp only
  split
  · exact sound
  · split
    · exact sound
    · refine sound.kept (fun q => ?_) rfl rfl
      show (s.runs.modify r _)[q]?.map Run.stage = s.runs[q]?.map Run.stage
      rw [List.getElem?_modify]
      split
      · cases s.runs[q]? <;> rfl
      · simp

theorem turn (sound : Sound s told) : Sound (s.move .turn) (told ++ s.signs .turn) := by
  unfold signs State.move step?
  cases s.tasks.running with
  | some r => exact sound.advance r
  | none =>
      rw [List.append_nil]
      cases s.tasks.next? with
      | none => exact sound
      | some tasks => exact sound.kept (fun _ => rfl) rfl rfl

theorem move (sound : Sound s told) (mv : Move) : Sound (s.move mv) (told ++ s.signs mv) := by
  cases mv with
  | turn => exact sound.turn
  | run id => exact (List.append_nil told).symm ▸ sound.run id
  | abort r => exact (List.append_nil told).symm ▸ sound.abort r
  | quit =>
      have kept : Sound (s.move .quit) told := sound.kept (fun _ => rfl) rfl rfl
      exact (List.append_nil told).symm ▸ kept
  | look =>
      have kept : Sound (s.move .look) told := sound.kept (fun _ => rfl) rfl rfl
      exact (List.append_nil told).symm ▸ kept
  | finish ending =>
      have kept : Sound { s with ending := ending.getD s.ending } told :=
        sound.kept (fun _ => rfl) rfl rfl
      exact (List.append_nil told).symm ▸ kept.addPermit

theorem fresh (name : String) (behaviour : Behaviour) (ending : Ending) :
    Sound (fresh name behaviour ending) [] :=
  ⟨List.nodup_nil, fun _ mem => absurd mem List.not_mem_nil, fun _ => rfl, rfl⟩

theorem play (sound : Sound s []) (ms : List Move) : Sound (s.play ms) (s.record ms) := by
  induction ms using List.reverseRecOn with
  | nil => exact sound
  | append_singleton ms mv ih =>
      rw [play_snoc, record_snoc]
      exact ih.move mv

/-- The runs under way are those of which it is told that they began and not that they ended. -/
theorem underway_iff (sound : Sound s told) (r : Nat) :
    s.Underway r ↔ .begun r ∈ told ∧ .ended r ∉ told := by
  have fits := (sound.fits r).underway_iff
  exact fits.trans (and_congr (mem_about rfl) (not_congr (mem_about rfl)))

end Sound

/-! ## Ends in what is told -/

/-- A run came to its end while another was under way. -/
def Crossing (told : List Sign) : Prop :=
  ∃ older q newer r, told = older ++ .ended q :: newer ∧ r ≠ q ∧ .begun r ∈ older ∧ .ended r ∉ older

/-- A run that ends in its turn does nothing after that. -/
theorem newer_eq_nil {before after : Option Stage} {older newer : List Sign} {q : Nat}
    (does : signsOf r before after = older ++ .ended q :: newer) : newer = [] := by
  unfold signsOf at does
  split at does
  all_goals rcases older with _ | ⟨first, _ | ⟨second, older⟩⟩ <;> simp_all

theorem newer_eq_nil_of_signs {mv : Move} {older newer : List Sign} {q : Nat}
    (does : s.signs mv = older ++ .ended q :: newer) : newer = [] := by
  unfold signs at does
  split at does
  · split at does
    · exact newer_eq_nil does
    · simp at does
  · simp at does

/-- What was told when a run had just ended is what is told of moves. -/
theorem exists_record_eq (s : State) (ms : List Move) {older newer : List Sign} {q : Nat}
    (told : s.record ms = older ++ .ended q :: newer) :
    ∃ pre, pre <+: ms ∧ s.record pre = older ++ [.ended q] := by
  induction ms using List.reverseRecOn generalizing newer with
  | nil => simp [record, noted] at told
  | append_singleton ms mv ih =>
      have all := told
      rw [record_snoc] at told
      have now : newer = [] → ∃ pre, pre <+: ms ++ [mv] ∧ s.record pre = older ++ [.ended q] := by
        rintro rfl
        exact ⟨ms ++ [mv], List.prefix_rfl, all⟩
      rcases List.append_eq_append_iff.mp told with ⟨later, -, does⟩ | ⟨earlier, past, does⟩
      · exact now (newer_eq_nil_of_signs does)
      · rcases earlier with _ | ⟨x, earlier⟩
        · have first : (s.play ms).signs mv = [] ++ .ended q :: newer := does.symm
          exact now (newer_eq_nil_of_signs first)
        · obtain ⟨rfl, -⟩ := List.cons_eq_cons.mp does
          obtain ⟨pre, isPrefix, eq⟩ := ih past
          exact ⟨pre, isPrefix.trans (List.prefix_append ms [mv]), eq⟩

theorem record_initial (s : State) {pre ms : List Move} (isPrefix : pre <+: ms) :
    s.record pre <+: s.record ms := by
  obtain ⟨post, rfl⟩ := isPrefix
  exact ⟨_, (noted_append move signs s pre post).symm⟩

/-! ## Commands are made of moves -/

theorem exists_play_perform (s : State) (c : Command) : ∃ ms, (s.perform c).1 = s.play ms := by
  cases c with
  | run id => exact ⟨[.run id], rfl⟩
  | quit => exact ⟨[.quit], rfl⟩
  | finish ending => exact ⟨[.finish ending], rfl⟩
  | abort r => exact ⟨[.abort r], rfl⟩
  | settle =>
      exact ⟨List.replicate restBudget .turn, runToRest_eq_foldl (fun _ => rfl) restBudget s⟩
  | unknown => exact ⟨[], rfl⟩

/-- What commands make of a bot, moves make of it too. -/
theorem exists_play_after (s : State) (cs : List Command) : ∃ ms, s.after cs = s.play ms := by
  induction cs generalizing s with
  | nil => exact ⟨[], rfl⟩
  | cons c cs ih =>
      obtain ⟨first, performed⟩ := s.exists_play_perform c
      obtain ⟨rest, eq⟩ := ih (s.observe c).1
      refine ⟨first ++ .look :: rest, eq.trans ?_⟩
      have looked : (s.observe c).1 = (s.play first).move .look :=
        congrArg (·.move .look) performed
      rw [looked]
      exact (play_append s first (.look :: rest)).symm

/-! ## What the flag tells -/

/-- The bot reports itself as connected exactly if some run began and no run has ended since; that
run is then under way. -/
theorem Sound.connected_iff (sound : Sound s told) :
    s.liveness.connected = true ↔
      ∃ r, s.Underway r ∧
        ∃ older newer, told = older ++ .begun r :: newer ∧ ∀ q, .ended q ∉ newer := by
  rw [sound.flag, leavesConnected_iff]
  constructor
  · rintro ⟨older, r, newer, split, noEnd⟩
    refine ⟨r, (sound.underway_iff r).mpr ?_, older, newer, split, noEnd⟩
    have own : about r told = about r older ++ .begun r :: about r newer := by
      rw [split, about_append]
      simp [about, Sign.run]
    -- It has not ended earlier either, since it begins only once.
    have notBefore : .ended r ∉ older := fun mem =>
      (own ▸ sound.fits r).notMem_ended ((mem_about rfl).mpr mem)
    have notSince := noEnd r
    simp [split, notBefore, notSince]
  · rintro ⟨r, -, older, newer, split, noEnd⟩
    exact ⟨older, r, newer, split, noEnd⟩

/-- While no run ends beside another the flag is right. -/
theorem Sound.connected_of_underway (sound : Sound s told) (apart : ¬ Crossing told)
    (underway : s.Underway r) : s.liveness.connected = true := by
  obtain ⟨begun, notEnded⟩ := (sound.underway_iff r).mp underway
  rw [sound.flag]
  rcases List.eq_nil_or_concat told with rfl | ⟨older, q | q, rfl⟩
  · cases begun
  · rw [List.concat_eq_append]
    exact leavesConnected_concat_begun older q
  · rw [List.concat_eq_append, List.mem_append, List.mem_singleton] at begun notEnded
    rw [not_or] at notEnded
    have other : r ≠ q := fun same => notEnded.2 (congrArg Sign.ended same)
    refine absurd ⟨older, q, [], r, List.concat_eq_append, other, ?_, notEnded.1⟩ apart
    exact begun.resolve_right Sign.noConfusion

theorem Crossing.mono {told told' : List Sign} (crossing : Crossing told)
    (isPrefix : told <+: told') : Crossing told' := by
  obtain ⟨older, q, newer, r, rfl, rest⟩ := crossing
  obtain ⟨later, rfl⟩ := isPrefix
  exact ⟨older, q, newer ++ later, r, by simp, rest⟩

/-- When a run has just ended beside another, the flag is wrong. -/
theorem Sound.not_connected {older : List Sign} {q : Nat}
    (sound : Sound s (older ++ [.ended q])) (other : r ≠ q) (begun : .begun r ∈ older)
    (notEnded : .ended r ∉ older) : s.Underway r ∧ s.liveness.connected = false := by
  constructor
  · rw [sound.underway_iff]
    simp [begun, notEnded, other]
  · exact sound.flag.trans (leavesConnected_concat_ended older q)

/-- What the flag tells of the runs of a bot, at every point of every run of moves. The runs under
way are those that began and have not ended. The flag is set exactly if some run began and no run
has ended since, so it is never set without a run under way. It tells at every point whether a run
is under way exactly if no run came to its end while another was under way. -/
theorem connected_iff_since (name : String) (behaviour : Behaviour) (ending : Ending)
    (ms : List Move) :
    let bot := fresh name behaviour ending
    (∀ r, (bot.play ms).Underway r ↔ .begun r ∈ bot.record ms ∧ .ended r ∉ bot.record ms) ∧
    ((bot.play ms).liveness.connected = true ↔
      ∃ r, (bot.play ms).Underway r ∧
        ∃ older newer, bot.record ms = older ++ .begun r :: newer ∧ ∀ q, .ended q ∉ newer) ∧
    ((∀ pre, pre <+: ms →
        ((bot.play pre).liveness.connected = true ↔ ∃ r, (bot.play pre).Underway r)) ↔
      ¬ Crossing (bot.record ms)) := by
  intro bot
  have sound : ∀ pre, Sound (bot.play pre) (bot.record pre) :=
    (Sound.fresh name behaviour ending).play
  refine ⟨(sound ms).underway_iff, (sound ms).connected_iff, fun right => ?_,
    fun apart pre isPrefix => ⟨fun connected => ?_, fun ⟨r, underway⟩ => ?_⟩⟩
  · rintro ⟨older, q, newer, r, told, other, begun, notEnded⟩
    obtain ⟨pre, isPrefix, eq⟩ := exists_record_eq bot ms told
    have wrong := (eq ▸ sound pre).not_connected other begun notEnded
    have connected := (right pre isPrefix).mpr ⟨r, wrong.1⟩
    rw [wrong.2] at connected
    cases connected
  · obtain ⟨r, underway, -⟩ := (sound pre).connected_iff.mp connected
    exact ⟨r, underway⟩
  · refine (sound pre).connected_of_underway (fun crossing => apart ?_) underway
    exact crossing.mono (record_initial bot isPrefix)

end State

end Flotilla.Closure

namespace Flotilla

namespace Sample

/-- Two runs begin and wait for permits. -/
def beginnings : List Closure.State.Move := [.run 0, .run 1, .turn, .turn, .turn, .turn]

/-- The first of the two gets a permit and comes to its end. -/
def crossing : List Closure.State.Move := beginnings ++ [.finish none, .turn, .turn]

end Sample

namespace Closure.State

/-- Nothing ended yet, so the flag is right at every point. -/
theorem connected_iff_since_of_beginnings :
    let bot := fresh "t" .awaitPermit .ok
    bot.record Sample.beginnings = [.begun 0, .begun 1] ∧
    (bot.play Sample.beginnings).liveness.connected = true ∧
    ∀ pre, pre <+: Sample.beginnings →
      ((bot.play pre).liveness.connected = true ↔ ∃ r, (bot.play pre).Underway r) := by
  intro bot
  obtain ⟨-, connected, right⟩ := connected_iff_since "t" .awaitPermit .ok Sample.beginnings
  have told : bot.record Sample.beginnings = [.begun 0, .begun 1] := by decide
  refine ⟨told, connected.mpr ⟨1, by decide, [.begun 0], [], told, by simp⟩, right.mpr ?_⟩
  rintro ⟨older, q, newer, r, split, -⟩
  have ended : .ended q ∈ bot.record Sample.beginnings := by
    rw [split]
    simp
  rw [told] at ended
  simp at ended

/-- The first run of two ended and the second is under way, but the bot does not report itself as
connected. -/
theorem not_connected_of_crossing :
    let bot := (fresh "t" .awaitPermit .ok).play Sample.crossing
    bot.stage? 0 = some (.over .ok) ∧ bot.Underway 1 ∧ bot.liveness.connected = false := by
  intro bot
  exact ⟨rfl, by decide, rfl⟩

end Closure.State

end Flotilla
