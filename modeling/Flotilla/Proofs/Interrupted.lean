import Flotilla.Proofs.Aside.Commands
import Flotilla.Proofs.Reach

/-!
# Waiting and giving up do not touch the shutdown

Somebody comes to stop a manager and waits until its bots have left. How often it reports, and
whether and when it gives up waiting, makes no difference to anybody else: whatever is done
afterwards, the managers, the bots and all others who wait do the same, and the manager comes to
its end in the one session exactly when it does in the other
(`Fleet.Vigil.waiting_without_influence`).

What must be the case for this is that the owner keeps the manager, or that at least nobody comes
for it later. A waiter keeps a manager that its owner has dropped, and when it gives up there is
nobody any more whom a call could be made to.
-/

namespace Flotilla

/-- What was published by a manager but for the reports on bots that are waited for and on
subscribers, without the numbers. -/
def Manager.told (x : Manager) : List Event :=
  x.history.filter fun e => !e.kind.isDiagnostic && e.kind != .waitingForBots

namespace Fleet

variable {f g : Fleet} {m w : Nat} {forsaken : Bool} {cs cs' : List Command}

/-! ## Commands one after another -/

/-- Whoever comes to wait for a manager comes while its owner has it. -/
def comesInTime (m : Nat) (f : Fleet) : List Command → Bool
  | [] => true
  | c :: cs => (!c.comesFor m || f.isOwned m) && comesInTime m (f.observe c).1 cs

/-- The commands that do not cancel the token of a waiter, with what was shown after each. -/
def shownBut (w : Nat) (cs : List Command) (reports : List Report) : List (Command × Report) :=
  (cs.zip reports).filter fun x => !x.1.cancels w

/-- The commands that do not cancel the token of a waiter, by themselves. -/
def othersBut (w : Nat) (cs : List Command) : List Command := cs.filter fun c => !c.cancels w

/-- What is shown in the course of two sessions is the same but for a waiter. -/
def SameReports (m w : Nat) (xs ys : List (Command × Report)) : Prop :=
  List.Forall₂ (fun x y => x.2.SameButWait m w x.1 y.2) xs ys

theorem eq_cancel_of_cancels {c : Command} (cancels : c.cancels w = true) : c = .cancel w := by
  cases c with
  | cancel w' => exact congrArg Command.cancel (eq_of_beq cancels)
  | _ => cases cancels

theorem othersBut_cons {c : Command} (others : c.cancels w = false) (cs : List Command) :
    othersBut w (c :: cs) = c :: othersBut w cs :=
  List.filter_cons_of_pos (by simp [others])

theorem othersBut_cancel (w : Nat) (cs : List Command) :
    othersBut w (.cancel w :: cs) = othersBut w cs :=
  List.filter_cons_of_neg (by simp [Command.cancels])

theorem shownBut_cons {c : Command} (others : c.cancels w = false) (f : Fleet)
    (cs : List Command) : shownBut w (c :: cs) (f.observeAll (c :: cs)).2 =
      (c, (f.observe c).2) :: shownBut w cs ((f.observe c).1.observeAll cs).2 :=
  List.filter_cons_of_pos (by simp [others])

theorem shownBut_cancel (w : Nat) (f : Fleet) (cs : List Command) :
    shownBut w (.cancel w :: cs) (f.observeAll (.cancel w :: cs)).2 =
      shownBut w cs ((f.observe (.cancel w)).1.observeAll cs).2 :=
  List.filter_cons_of_neg (by simp [Command.cancels])

/-- Whatever is done in two sessions but that the waiter's token is cancelled, at different times or
in one of them only, the two sides stay the same. -/
theorem SameButWait.observeAll (alike : SameButWait m w forsaken true f g) (between : f.Between m)
    (between' : g.Between m) (same : othersBut w cs' = othersBut w cs)
    (comes : comesInTime m f cs = true) (ends : ∀ x ∈ f.sessionRests cs, x.tasks.isSettled = true)
    (ends' : ∀ x ∈ g.sessionRests cs', x.tasks.isSettled = true) :
    SameButWait m w (!(f.observeAll cs).1.isOwned m) true (f.observeAll cs).1
        (g.observeAll cs').1 ∧
      SameReports m w (shownBut w cs (f.observeAll cs).2) (shownBut w cs' (g.observeAll cs').2) := by
  induction steps : cs.length + cs'.length using Nat.strongRecOn generalizing f g cs cs' forsaken with
  | ind n ih =>
    -- If one side cancels the token next, it goes on alone.
    by_cases right : ∃ ds, cs' = .cancel w :: ds
    · obtain ⟨ds, rfl⟩ := right
      rw [shownBut_cancel]
      rw [othersBut_cancel] at same
      obtain ⟨now, later⟩ := List.forall_mem_append.mp ends'
      exact ih _ (by rw [← steps]; simp) (alike.observe_cancel_right between') between
        (between'.observe (.cancel w) now) same comes ends later rfl
    by_cases left : ∃ ds, cs = .cancel w :: ds
    · obtain ⟨ds, rfl⟩ := left
      rw [shownBut_cancel]
      rw [othersBut_cancel] at same
      obtain ⟨now, later⟩ := List.forall_mem_append.mp ends
      exact ih _ (by rw [← steps]; simp) (alike.symm.observe_cancel_right between).symm
        (between.observe (.cancel w) now) between' same (Bool.and_eq_true_iff.mp comes).2 later
        ends' rfl
    -- Otherwise both do the same.
    have other {c : Command} {ds es : List Command} (eq : es = c :: ds)
        (isnt : ¬∃ ds, es = .cancel w :: ds) : c.cancels w = false := by
      refine Bool.eq_false_iff.mpr fun cancels => isnt ⟨ds, ?_⟩
      rw [eq, eq_cancel_of_cancels cancels]
    cases cs with
    | nil =>
        cases cs' with
        | nil => exact ⟨alike.again, .nil⟩
        | cons c' ds' =>
            rw [othersBut_cons (other rfl right)] at same
            cases same
    | cons c ds =>
        have others := other rfl left
        cases cs' with
        | nil =>
            rw [othersBut_cons others] at same
            cases same
        | cons c' ds' =>
            rw [othersBut_cons others, othersBut_cons (other rfl right)] at same
            obtain ⟨rfl, rest⟩ := List.cons.inj same
            obtain ⟨now, later⟩ := List.forall_mem_append.mp ends
            obtain ⟨now', later'⟩ := List.forall_mem_append.mp ends'
            obtain ⟨inTime, comes⟩ := Bool.and_eq_true_iff.mp comes
            obtain ⟨observed, report⟩ := alike.observe between between' others
              (fun is => by simpa [is] using inTime) now now'
            obtain ⟨fleets, reports⟩ := ih _ (by rw [← steps]; simp; omega) observed
              (between.observe c' now) (between'.observe c' now') rest comes later later' rfl
            rw [shownBut_cons others, shownBut_cons others]
            exact ⟨fleets, .cons report reports⟩

/-! ## Sessions in two parts -/

theorem observeAll_append (f : Fleet) (cs ds : List Command) :
    f.observeAll (cs ++ ds) = (((f.observeAll cs).1.observeAll ds).1,
      (f.observeAll cs).2 ++ ((f.observeAll cs).1.observeAll ds).2) := by
  induction cs generalizing f with
  | nil => rfl
  | cons c cs ih =>
      have later := ih (f.observe c).1
      exact Prod.ext (congrArg Prod.fst later :)
        (congrArg ((f.observe c).2 :: ·) (congrArg Prod.snd later) :)

theorem length_observeAll (f : Fleet) (cs : List Command) :
    (f.observeAll cs).2.length = cs.length := by
  induction cs generalizing f with
  | nil => rfl
  | cons c cs ih => exact congrArg (· + 1) (ih (f.observe c).1)

theorem sessionRests_append (f : Fleet) (cs ds : List Command) :
    f.sessionRests (cs ++ ds) = f.sessionRests cs ++ (f.observeAll cs).1.sessionRests ds := by
  induction cs generalizing f with
  | nil => rfl
  | cons c cs ih =>
      show f.rests c ++ sessionRests (f.observe c).1 (cs ++ ds) = _
      rw [ih, ← List.append_assoc]
      rfl

theorem shownBut_append (w : Nat) (f : Fleet) (cs ds : List Command) :
    shownBut w (cs ++ ds) (f.observeAll (cs ++ ds)).2 =
      shownBut w cs (f.observeAll cs).2 ++
        shownBut w ds ((f.observeAll cs).1.observeAll ds).2 := by
  rw [observeAll_append]
  unfold shownBut
  rw [List.zip_append (length_observeAll f cs).symm, List.filter_append]

theorem Report.SameButWait.refl (m w : Nat) (c : Command) (x : Report) : x.SameButWait m w c x where
  answer := .same _
  views := rfl
  notes := List.forall₂_same.mpr fun n _ => .same n
  count := rfl
  waits _ _ := rfl

/-! ## Somebody comes -/

/-- The one who comes is not compared. -/
theorem sameBut_addWait {a : Aside} {wt wt' : Wait} (is : a.waiter = some f.waits.length)
    (errand : wt'.errand = wt.errand) : SameBut a (f.addWait wt).1 (f.addWait wt').1 where
  managers _ := rfl
  told _ := rfl
  count := rfl
  bots := rfl
  inside w isW := by
    obtain rfl : f.waits.length = w := Option.some.inj (is.symm.trans isW)
    show f.waits.length < (f.waits ++ [wt]).length
    simp
  errands := by
    show (f.waits ++ [wt']).map Wait.errand = (f.waits ++ [wt]).map Wait.errand
    simp [errand]
  waits w other := by
    have ne : w ≠ f.waits.length := fun same => other (same ▸ is)
    show (f.waits ++ [wt']).getD w default = (f.waits ++ [wt]).getD w default
    rw [List.getD_eq_getElem?_getD, List.getD_eq_getElem?_getD, List.getElem?_append,
      List.getElem?_append]
    split
    · rfl
    · have beyond (wt : Wait) : [wt][w - f.waits.length]? = none :=
        List.getElem?_eq_none (by simp; omega)
      rw [beyond, beyond]
  timers := rfl
  dismissal := rfl
  clock _ := rfl
  tasks := rfl
  notes := List.forall₂_same.mpr fun n _ => .same n

/-- Somebody comes in both fleets to wait for a manager, each for itself. -/
theorem sameButWait_spawnWait (between : f.Between m) (held : f.isHeld m = true)
    (poll poll' : Duration) (cancelled cancelled' : Bool) :
    SameButWait m f.waits.length (!f.isOwned m) true (f.move (.wait m (some poll) cancelled))
      (f.move (.wait m (some poll') cancelled')) := by
  have order (poll : Duration) (cancelled : Bool) :=
    between.toInOrder.move (.wait m (some poll) cancelled)
  have eq (poll : Duration) (cancelled : Bool) : f.move (.wait m (some poll) cancelled) =
      (f.addWait ⟨m, .stop, Settings.clampPoll poll, true, cancelled, false, .submitted⟩).1 :=
    congrArg Prod.fst (if_pos held)
  have due (wt : Wait) : (f.addWait wt).1.IsDue (.wait f.waits.length) := isDue_wake _ _
  have first := order poll cancelled
  have first' := order poll' cancelled'
  rw [eq] at first first' ⊢
  rw [eq]
  exact
    { same := sameBut_addWait rfl rfl
      order := first
      order' := first'
      owned := rfl
      errand := by
        rw [wait_addWait]
        rfl
      stands := .unbegun (by rw [wait_addWait]) (by rw [wait_addWait])
        (by rw [wait_addWait, wait_addWait]) (due _) (due _)
      still := nofun }

/-- And what is shown is the same. -/
theorem sameReport_spawnWait (held : f.isHeld m = true) (poll poll' : Duration)
    (cancelled cancelled' : Bool) :
    (f.observe (.wait m (some poll) cancelled)).2.SameButWait m f.waits.length
      (.wait m (some poll) cancelled) (f.observe (.wait m (some poll') cancelled')).2 := by
  have eq (poll : Duration) (cancelled : Bool) : f.carryOut (.wait m (some poll) cancelled) =
      f.addWait ⟨m, .stop, Settings.clampPoll poll, true, cancelled, false, .submitted⟩ :=
    if_pos held
  unfold observe
  dsimp only
  rw [eq, eq]
  have waits : ((f.addWait ⟨m, .stop, Settings.clampPoll poll', true, cancelled', false,
      .submitted⟩).1.waits.map waitResult?) =
        (f.addWait ⟨m, .stop, Settings.clampPoll poll, true, cancelled, false,
          .submitted⟩).1.waits.map waitResult? := by
    simp [addWait, Fleet.wake, waitResult?]
  exact
    { answer := .same _
      views := rfl
      notes := List.forall₂_same.mpr fun n _ => .same n
      count := congrArg List.length waits
      waits := fun k _ => congrArg (fun results => results[k]?) waits }

/-! ## Two sessions -/

/-- Somebody comes to stop a manager and to wait for its bots, at a given moment of a session. -/
structure Vigil where
  managers : List ManagerPlan
  bots : List BotPlan
  /-- What is done before. -/
  earlier : List Command
  manager : Nat

namespace Vigil

/-- The fleet when the waiter comes. -/
def before (v : Vigil) : Fleet := ((build v.managers v.bots).observeAll v.earlier).1

/-- The number of the waiter. -/
def waiter (v : Vigil) : Nat := v.before.waits.length

/-- The whole session: the waiter reports at an interval, its token may have been cancelled
already, and something is done later. -/
def session (v : Vigil) (poll : Duration) (cancelled : Bool) (later : List Command) :
    List Command :=
  v.earlier ++ .wait v.manager (some poll) cancelled :: later

/-- What the session leaves behind and what is shown in the course of it. -/
def outcome (v : Vigil) (poll : Duration) (cancelled : Bool) (later : List Command) :
    Fleet × List Report :=
  (build v.managers v.bots).observeAll (v.session poll cancelled later)

/-- Whoever comes later to wait for the same manager comes while its owner has it. -/
def attended (v : Vigil) (poll : Duration) (cancelled : Bool) (later : List Command) : Bool :=
  comesInTime v.manager (v.before.observe (.wait v.manager (some poll) cancelled)).1 later

end Vigil

/-- How a waiter that came to stop a manager stands in two fleets: its turn has not come yet, or the
manager was stopped, or it could not be, for the same reason on both sides. -/
inductive SameStart (m w : Nat) (f g : Fleet) : Prop
  | unbegun (first : (f.wait w).stage = .submitted) (first' : (g.wait w).stage = .submitted)
  | stopped (past : (f.wait w).stage.hasStopped = true)
    (past' : (g.wait w).stage.hasStopped = true)
    (phase : (f.manager m).phase = .stopping ∨ (f.manager m).phase = .terminated)
  | early {result : WaitResult} (ends : EndsEarly result)
    (done : (f.wait w).stage = .over result) (done' : (g.wait w).stage = .over result)

/-- Two sessions are the same but for a waiter who came to stop a manager: in what is shown, in the
managers with what they published, in the bots and in the others who wait. -/
structure SameShutdown (m w : Nat) (cs cs' : List Command) (x y : Fleet × List Report) : Prop where
  reports : SameReports m w (shownBut w cs x.2) (shownBut w cs' y.2)
  managers : ∀ k, y.1.manager k = { x.1.manager k with
    bus := (y.1.manager k).bus
    observer := (y.1.manager k).observer
    relay := (y.1.manager k).relay }
  told : ∀ k, (y.1.manager k).told = (x.1.manager k).told
  bots : y.1.bots = x.1.bots
  waits : ∀ k, k ≠ w → y.1.waits[k]? = x.1.waits[k]?
  start : SameStart m w x.1 y.1

namespace SameButWait

variable (alike : SameButWait m w forsaken true f g)

include alike

theorem start : SameStart m w f g := by
  cases alike.stands with
  | unbegun first first' => exact .unbegun first first'
  | stopped past past' closed => exact .stopped past past' (alike.order.phase_of_closed closed)
  | early ends done done' => exact .early ends done done'

theorem told (k : Nat) : (g.manager k).told = (f.manager k).told := alike.same.told k

end SameButWait

namespace Vigil

variable (v : Vigil) {poll poll' : Duration} {cancelled cancelled' : Bool}
  {later later' : List Command}

theorem before_eq_play : ∃ ms, v.before = (raw v.managers v.bots).play ms :=
  ⟨settling ++ (build v.managers v.bots).sessionMoves v.earlier, by
    rw [play_append, ← settle_eq_play]
    exact observeAll_eq_play _ _⟩

/-- If every settling of the session ends, the fleet is in order when the waiter comes, and every
settling after that ends. -/
theorem ends_of_session (ends : EverySettlingEnds v.managers v.bots (v.session poll cancelled later))
    (held : v.before.isHeld v.manager = true) :
    v.before.Between v.manager ∧
      ∀ x ∈ v.before.sessionRests (.wait v.manager (some poll) cancelled :: later),
        x.tasks.isSettled = true := by
  obtain ⟨built, rests⟩ := List.forall_mem_cons.mp ends
  rw [session, sessionRests_append] at rests
  obtain ⟨earlier, rests⟩ := List.forall_mem_append.mp rests
  refine ⟨?_, rests⟩
  obtain ⟨ms, eq⟩ := v.before_eq_play
  have has : v.before.Has v.manager :=
    has_of_isHeld (eq ▸ sound_play v.managers v.bots ms) held
  rw [eq, has_play] at has
  exact (between_build has v.bots built).observeAll earlier

/-- Somebody who comes to stop a manager and waits for its bots has no influence on anybody but by
stopping it, however often it reports and whether and whenever it gives up. What is done later is
any, so this is how it is after every command. -/
theorem waiting_without_influence (held : v.before.isHeld v.manager = true)
    (same : othersBut v.waiter later' = othersBut v.waiter later)
    (comes : v.attended poll cancelled later = true)
    (ends : EverySettlingEnds v.managers v.bots (v.session poll cancelled later))
    (ends' : EverySettlingEnds v.managers v.bots (v.session poll' cancelled' later')) :
    SameShutdown v.manager v.waiter (v.session poll cancelled later)
      (v.session poll' cancelled' later') (v.outcome poll cancelled later)
      (v.outcome poll' cancelled' later') := by
  obtain ⟨between, rests⟩ := v.ends_of_session ends held
  obtain ⟨-, rests'⟩ := v.ends_of_session ends' held
  have arrived := (sameButWait_spawnWait between held poll poll' cancelled cancelled').look
  obtain ⟨fleets, reports⟩ := arrived.observeAll
    (between.observe (.wait v.manager (some poll) cancelled) fun _ mem => nomatch mem)
    (between.observe (.wait v.manager (some poll') cancelled') fun _ mem => nomatch mem)
    same comes rests rests'
  have left (poll : Duration) (cancelled : Bool) (later : List Command) :
      (v.outcome poll cancelled later).1 =
        ((v.before.observe (.wait v.manager (some poll) cancelled)).1.observeAll later).1 :=
    (congrArg Prod.fst (observeAll_append (build v.managers v.bots) v.earlier _) :)
  refine
    { reports := ?_
      managers := fun k => ?_
      told := fun k => ?_
      bots := ?_
      waits := fun k other => ?_
      start := ?_ }
  · unfold outcome session
    rw [shownBut_append, shownBut_append]
    refine List.rel_append (List.forall₂_same.mpr fun x _ => .refl _ _ _ _) ?_
    rw [shownBut_cons rfl, shownBut_cons rfl]
    exact .cons (sameReport_spawnWait held poll poll' cancelled cancelled') reports
  · rw [left, left]
    exact fleets.same.managers k
  · rw [left, left]
    exact fleets.told k
  · rw [left, left]
    exact fleets.same.bots
  · rw [left, left]
    exact fleets.same.waits_getElem? fun same => other (Option.some.inj same).symm
  · rw [left, left]
    exact fleets.start

end Vigil

end Fleet

namespace Sample

/-- Somebody waits for a bot that is run. -/
def vigil : Fleet.Vigil where
  managers := [oneSlot]
  bots := [bot false]
  earlier := [.call (.add 0 0), .call (.start 0), .settle]
  manager := 0

/-- Some time later the bot finishes. -/
def patient : List Fleet.Command := [.settle, .sleep 12, .call (.finish 0 none), .settle]

/-- And before that the waiter gives up. -/
def impatient : List Fleet.Command :=
  [.settle, .cancel 0, .sleep 12, .call (.finish 0 none), .settle]

end Sample

namespace Fleet

/-- One waits and reports three times, the other gives up after its first report, and the manager
comes to its end in both sessions. -/
theorem waiting_without_influence_of_one :
    Sample.vigil.before.isHeld 0 = true ∧
      othersBut Sample.vigil.waiter Sample.impatient = othersBut Sample.vigil.waiter Sample.patient ∧
      Sample.vigil.attended (.ofMillis 5) false Sample.patient = true ∧
      EverySettlingEnds Sample.vigil.managers Sample.vigil.bots
        (Sample.vigil.session (.ofMillis 5) false Sample.patient) ∧
      EverySettlingEnds Sample.vigil.managers Sample.vigil.bots
        (Sample.vigil.session (.ofMillis 7) false Sample.impatient) ∧
      SameShutdown 0 Sample.vigil.waiter (Sample.vigil.session (.ofMillis 5) false Sample.patient)
        (Sample.vigil.session (.ofMillis 7) false Sample.impatient)
        (Sample.vigil.outcome (.ofMillis 5) false Sample.patient)
        (Sample.vigil.outcome (.ofMillis 7) false Sample.impatient) ∧
      ((Sample.vigil.outcome (.ofMillis 7) false Sample.impatient).1.manager 0).phase =
        .terminated ∧
      ((Sample.vigil.outcome (.ofMillis 5) false Sample.patient).1.manager 0).bus.published =
        ((Sample.vigil.outcome (.ofMillis 7) false Sample.impatient).1.manager 0).bus.published +
          2 := by
  have held : Sample.vigil.before.isHeld 0 = true := by decide +kernel
  have same : othersBut Sample.vigil.waiter Sample.impatient =
      othersBut Sample.vigil.waiter Sample.patient := by
    have number : Sample.vigil.waiter = 0 := by decide +kernel
    rw [number]
    rfl
  have attended : Sample.vigil.attended (.ofMillis 5) false Sample.patient = true := by
    decide +kernel
  have ends : EverySettlingEnds Sample.vigil.managers Sample.vigil.bots
      (Sample.vigil.session (.ofMillis 5) false Sample.patient) := by decide +kernel
  have ends' : EverySettlingEnds Sample.vigil.managers Sample.vigil.bots
      (Sample.vigil.session (.ofMillis 7) false Sample.impatient) := by decide +kernel
  exact ⟨held, same, attended, ends, ends',
    Sample.vigil.waiting_without_influence held same attended ends ends', by decide +kernel,
    by decide +kernel⟩

end Fleet

namespace Sample

/-- Somebody waits for a manager that was not started. -/
def tooEarly : Fleet.Vigil where
  managers := [oneSlot]
  bots := []
  earlier := []
  manager := 0

/-- Somebody waits for a bot of one of two managers. -/
def firstOfTwo : Fleet.Vigil where
  managers := [oneSlot, { oneSlot with number := 1 }]
  bots := [bot false]
  earlier := [.call (.start 0), .call (.start 1), .call (.add 0 0), .settle]
  manager := 0

/-- The owner drops the manager waited for. Then two come who want to stop the one manager and the
other, and the first of them is dropped. -/
def forsaking : List Fleet.Command :=
  [.drop 0, .settle, .wait 0 none false, .wait 1 none false, .abort 1, .settle]

end Sample

namespace Fleet

/-- A waiter does not stop a manager that was not started. And if the owner drops the manager while
somebody waits for it, there is nobody who has it once the waiter gave up: no call can be made to
it, nobody can come to wait for it any more, and who comes next has another number. -/
theorem waiting_with_influence :
    (EverySettlingEnds Sample.tooEarly.managers Sample.tooEarly.bots
        (Sample.tooEarly.session (.ofMillis 5) false [.settle]) ∧
      (((Sample.tooEarly.outcome (.ofMillis 5) false [.settle]).1.wait 0).stage.isOver,
        ((Sample.tooEarly.outcome (.ofMillis 5) false [.settle]).1.manager 0).phase) =
          (true, .new)) ∧
      Sample.firstOfTwo.waiter = 0 ∧
      EverySettlingEnds Sample.firstOfTwo.managers Sample.firstOfTwo.bots
        (Sample.firstOfTwo.session (.ofMillis 5) false (.settle :: Sample.forsaking)) ∧
      EverySettlingEnds Sample.firstOfTwo.managers Sample.firstOfTwo.bots
        (Sample.firstOfTwo.session (.ofMillis 5) false (.settle :: .cancel 0 :: Sample.forsaking)) ∧
      ((Sample.firstOfTwo.outcome (.ofMillis 5) false
            (.settle :: Sample.forsaking)).1.isHeld 0,
          ((Sample.firstOfTwo.outcome (.ofMillis 5) false
            (.settle :: Sample.forsaking)).1.manager 1).phase) = (true, .terminated) ∧
      ((Sample.firstOfTwo.outcome (.ofMillis 5) false
            (.settle :: .cancel 0 :: Sample.forsaking)).1.isHeld 0,
          ((Sample.firstOfTwo.outcome (.ofMillis 5) false
            (.settle :: .cancel 0 :: Sample.forsaking)).1.manager 1).phase) = (false, .running) := by
  refine ⟨⟨?_, ?_⟩, ?_, ?_, ?_, ?_, ?_⟩ <;> decide +kernel

end Fleet

end Flotilla
