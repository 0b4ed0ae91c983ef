import Flotilla.Proofs.Occurrence
import Flotilla.Proofs.PassedOver

/-!
# What is told of one launch

`Telling.about` sorts what a step tells of one launch: nothing, that it was launched, that it
was asked to quit, or how it ended and that it left the registry. `View.Told` is what was told
of a launch up to a point, and `Step.told` says how a step goes on with it. At the end of a run
the outcome that is announced is the one with which the bot's run ended, if it was run
(`Fleet.told_play`).
-/

namespace Flotilla

variable {L : Licence} {m : Nat} {v v' : View} {id : Nat} {l l' : Launch}

/-! ## What a step tells of one launch -/

/-- What a step tells of one launch. -/
inductive About (L : Licence) (m id : Nat) (v v' : View) (es : List Event) : Prop
  | nothing (silent : es.filter (Event.isAbout id) = [])
    (roster : v'.mgr.roster[id]? = v.mgr.roster[id]?)
  | launched {b : Nat} (new : id = v.mgr.launches.length)
    (said : es.filter (Event.isAbout id) = [.botLaunched id (v.nameOf b)])
    (roster : v'.mgr.roster[id]? = some (b, true))
  | lost {b : Nat} (new : id = v.mgr.launches.length)
    (launching : v.mgr.phase = .starting ∨ v.mgr.phase = .running)
    (why : L.panics b ∨ v.mgr.closed = true) (roster : v'.mgr.roster[id]? = some (b, false))
  | quit {l : Launch} (isRunning : v.mgr.phase = .running)
    (stops : v'.mgr.phase = .stopping ∨ v'.mgr.phase = .terminated)
    (found : v.launch? id = some l) (registered : l.registered = true)
    (said : es.filter (Event.isAbout id) = [.quitRequested id (v.nameOf l.bot)])
    (roster : v'.mgr.roster[id]? = v.mgr.roster[id]?)
  | left {l : Launch} {ran : Bool} {outcome : RunOutcome} {last : List Event}
    (found : v.launch? id = some l) (registered : l.registered = true)
    (why : v.MayLeave l ran (some outcome) (L.runs ⟨m, id⟩))
    (ends : outcome ≠ .notStarted → L.ends ⟨m, id⟩ outcome)
    (eq : v' = v.leave m id ran (some outcome))
    (said : es = Fleet.outcomeEvent id (v.nameOf l.bot) outcome ::
      .botRemoved id (v.nameOf l.bot) :: last)
    (silent : last.filter (Event.isAbout id) = [])
  | strayed {l : Launch} (found : v.launch? id = some l) (stray : l.registered = false)
    (pending : l.stage.isOver = false)

theorem isAbout_of_bot {e : Event} (is : e.bot = some id) : e.isAbout id = true := by
  rw [Event.isAbout, is]
  exact beq_self_eq_true _

theorem isAbout_eq_false {e : Event} (other : e.bot ≠ some id) : ¬ e.isAbout id = true :=
  fun about => other (eq_of_beq about)

theorem filter_ifDone (id : Nat) (phase : Phase) (registry : List (Nat × Launch)) :
    (phase.ifDone registry).2.filter (Event.isAbout id) = [] :=
  filter_isAbout_eq_nil fun e mem => by
    rw [eq_of_mem_ifDone mem]
    nofun

/-- Of the requests to quit made by a manager at most one is about a launch. -/
theorem filter_quits {asked : List Nat} (sorted : asked.Pairwise (· < ·)) (name : Nat → String)
    (id : Nat) : (asked.map fun j => Event.quitRequested j (name j)).filter (Event.isAbout id) =
      if id ∈ asked then [.quitRequested id (name id)] else [] := by
  induction asked with
  | nil => rfl
  | cons j asked ih =>
      obtain ⟨first, rest⟩ := List.pairwise_cons.mp sorted
      rw [List.map_cons]
      by_cases same : id = j
      · subst same
        have once : id ∉ asked := fun mem => Nat.lt_irrefl id (first id mem)
        rw [List.filter_cons_of_pos (isAbout_of_bot rfl), ih rest, if_neg once,
          if_pos List.mem_cons_self]
      · have other : (Event.quitRequested j (name j)).bot ≠ some id :=
          fun is => same (Option.some.inj is).symm
        rw [List.filter_cons_of_neg (isAbout_eq_false other), ih rest]
        simp [same]

theorem Telling.about {es : List Event} (h : Telling L m v v' es) (id : Nat) :
    About L m id v v' es := by
  have aside {e : Event} (other : e.bot ≠ some id) : [e].filter (Event.isAbout id) = [] :=
    List.filter_cons_of_neg (isAbout_eq_false other)
  have entry {x : Nat × Bool} (eq : v'.mgr.roster = v.mgr.roster ++ [x])
      (other : id ≠ v.mgr.launches.length) : v'.mgr.roster[id]? = v.mgr.roster[id]? := by
    rw [← v.mgr.length_roster] at other
    rw [eq, List.getElem?_append]
    split
    · rfl
    · rw [List.getElem?_singleton, if_neg (by omega), List.getElem?_eq_none (by omega)]
  have last {x : Nat × Bool} (eq : v'.mgr.roster = v.mgr.roster ++ [x])
      (new : id = v.mgr.launches.length) : v'.mgr.roster[id]? = some x := by
    rw [eq, new, ← v.mgr.length_roster]
    exact List.getElem?_concat_length
  cases h with
  | still upshot => exact .nothing rfl (by rw [upshot.roster])
  | aside is upshot => exact .nothing (aside (by rw [is.bot]; nofun)) (by rw [upshot.roster])
  | waiting held upshot => exact .nothing (aside nofun) (by rw [upshot.roster])
  | queued licensed isNew upshot => exact .nothing (aside nofun) (by rw [upshot.roster])
  | begun licensed isNew upshot => exact .nothing (aside nofun) (by rw [upshot.roster])
  | runs licensed isStarting named upshot => exact .nothing (aside nofun) (by rw [upshot.roster])
  | launched licensed launching upshot =>
      by_cases new : id = v.mgr.launches.length
      · refine .launched new ?_ (last upshot.roster new)
        rw [← new]
        exact List.filter_cons_of_pos (isAbout_of_bot rfl)
      · exact .nothing (aside fun is => new (Option.some.inj is).symm)
          (entry upshot.roster new)
  | lost licensed launching why upshot =>
      by_cases new : id = v.mgr.launches.length
      · exact .lost new launching (why.imp_left And.left) (last upshot.roster new)
      · exact .nothing rfl (entry upshot.roster new)
  | @stops asked licensed isRunning sorted registered upshot =>
      have said : (Event.stateChanged .stopping :: asked.map (fun id =>
          Event.quitRequested id (v.launchName id)) ++
            (Phase.stopping.ifDone v.mgr.registry).2).filter (Event.isAbout id) =
          if id ∈ asked then [.quitRequested id (v.launchName id)] else [] := by
        rw [List.filter_append, filter_ifDone, List.append_nil,
          List.filter_cons_of_neg (isAbout_eq_false fun is => by cases is), filter_quits sorted]
      by_cases mem : id ∈ asked
      · obtain ⟨l, found, isRegistered⟩ := registered id mem
        refine .quit isRunning ?_ found isRegistered ?_ (by rw [upshot.roster])
        · rw [upshot.phase]
          unfold Phase.ifDone
          split
          · exact Or.inr rfl
          · exact Or.inl rfl
        · rw [said, if_pos mem, View.launchName, View.getD_launches found]
      · exact .nothing (by rw [said, if_neg mem]) (by rw [upshot.roster])
  | @left id' l ran outcome found registered why ends eq upshot =>
      by_cases same : id = id'
      · subst same
        exact .left found registered why ends eq rfl (filter_ifDone _ _ _)
      · have outcomeOther : (Fleet.outcomeEvent id' (v.nameOf l.bot) outcome).bot ≠ some id := by
          rw [bot_outcomeEvent]
          exact fun is => same (Option.some.inj is).symm
        refine .nothing ?_ ?_
        · rw [List.filter_cons_of_neg (isAbout_eq_false outcomeOther),
            List.filter_cons_of_neg (isAbout_eq_false fun is => same (Option.some.inj is).symm),
            filter_ifDone]
        · rw [upshot.roster, List.getElem?_set_ne (Ne.symm same)]
  | @strayed id' l ran outcome found stray why upshot =>
      by_cases same : id = id'
      · subst same
        exact .strayed found stray why.not_over
      · refine .nothing (aside ?_) (by rw [upshot.roster])
        rw [bot_outcomeEvent]
        exact fun is => same (Option.some.inj is).symm

/-! ## What was told of a launch so far -/

/-- The last events about a launch, if it came to its end. -/
def closingEvents (id : Nat) (name : String) : Option RunOutcome → List Event
  | none => []
  | some outcome => [Fleet.outcomeEvent id name outcome, .botRemoved id name]

/-- What was told of a launch: that it was launched, that it was asked to quit at most once, and
that not before the pool was closed, and then how it ended, if it did. -/
structure View.Told (id : Nat) (v : View) (l : Launch) (outcome : Option RunOutcome) : Prop where
  found : v.launch? id = some l
  registered : l.registered = outcome.isNone
  isOver : l.stage.isOver = outcome.isSome
  events : ∃ quits, (quits = [] ∨ quits = [.quitRequested id (v.nameOf l.bot)] ∧
      v.mgr.closed = true) ∧ v.mgr.history.filter (Event.isAbout id) =
    .botLaunched id (v.nameOf l.bot) :: quits ++ closingEvents id (v.nameOf l.bot) outcome
  together : closingEvents id (v.nameOf l.bot) outcome <:+: v.mgr.history
  ran : ∀ o, outcome = some o → (o = .notStarted ↔ l.admitted = false)

variable {outcome : Option RunOutcome}

/-- A launch whose task is over stays as it is. -/
theorem Change.of_over (h : Change L m v id l l') (queueing : v.Queueing)
    (found : v.launch? id = some l) (isOver : l.stage.isOver = true) : l' = l := by
  cases h with
  | same => rfl
  | permit waits =>
      rw [waits] at isOver
      cases isOver
  | lineUp acts turn first =>
      rw [first] at isOver
      cases isOver
  | offer acts first =>
      rw [queueing.of_offeree first found] at isOver
      cases isOver
  | enter acts licensed turn can =>
      rcases can.seat with offered | ⟨first, -⟩
      · rw [offered] at isOver
        cases isOver
      · rw [first] at isOver
        cases isOver
  | proceed acts turn inRun goal => cases (Stage.isOver_of_isInRun inRun).symm.trans isOver
  | leave acts turn mute why => cases why.not_over.symm.trans isOver

/-- A launch that comes to its end was not started exactly if it was not admitted. -/
theorem View.MayLeave.notStarted_iff {ran : Bool} {o : RunOutcome} {licensed : Prop}
    (why : v.MayLeave l ran (some o) licensed) (tidy : v.Tidy) (found : v.launch? id = some l) :
    o = .notStarted ↔ (l.admitted || ran) = false := by
  rcases why with ⟨rfl, inRun, started⟩ | ⟨rfl, -, started, -⟩ | ⟨rfl, refuses, none | is⟩
  · rw [(tidy.running id l found inRun).1]
    exact iff_of_false (fun is => started (congrArg some is)) nofun
  · rw [Bool.or_true]
    exact iff_of_false (fun is => started (congrArg some is)) nofun
  · cases none
  · have pending : l.stage.isPending = true := by
      rcases refuses with ⟨stage | stage | stage, -⟩ | ⟨-, stage | ⟨stage, -⟩⟩ <;>
        rw [stage] <;> rfl
    rw [tidy.pending id l found pending]
    exact iff_of_true (Option.some.inj is) rfl

theorem View.Told.goesOn (told : v.Told id l outcome) (registered : l.registered = true) :
    outcome = none := by
  rw [told.registered] at registered
  exact Option.isNone_iff_eq_none.mp registered

/-- Of a launch that was told of up to a point a step tells what may come next. -/
theorem Step.told (h : Step L m v v') (regular : v.Regular m) (calm : ¬ L.panics l.bot)
    (told : v.Told id l outcome) : ∃ l' outcome', v'.Told id l' outcome' ∧ l'.bot = l.bot ∧
      (outcome' = outcome ∨
        outcome = none ∧ ∃ o, outcome' = some o ∧ (o ≠ .notStarted → L.ends ⟨m, id⟩ o)) := by
  obtain ⟨l', found', change⟩ := h.change told.found
  obtain ⟨es, telling⟩ := h.telling
  have bot := change.bot
  have name : v'.nameOf l'.bot = v.nameOf l.bot := by rw [h.nameOf, bot]
  have history := telling.history
  obtain ⟨quits, asked, events⟩ := told.events
  have accounted : l'.registered = !l'.stage.isOver :=
    change.accounted calm regular.queueing told.found (by
      rw [told.registered, told.isOver]
      cases outcome <;> rfl)
  -- Where the roster stays the same, so does the outcome.
  have still (quits' : List Event) (said : es.filter (Event.isAbout id) = quits')
      (roster : v'.mgr.roster[id]? = v.mgr.roster[id]?)
      (follows : outcome = none ∧ quits = [] ∧ quits' = [.quitRequested id (v.nameOf l.bot)] ∧
        v'.mgr.closed = true ∨ quits' = []) :
      ∃ l' outcome', v'.Told id l' outcome' ∧ l'.bot = l.bot ∧ (outcome' = outcome ∨
        outcome = none ∧ ∃ o, outcome' = some o ∧ (o ≠ .notStarted → L.ends ⟨m, id⟩ o)) := by
    rw [View.getElem?_roster, View.getElem?_roster, found', told.found] at roster
    have registered : l'.registered = l.registered :=
      congrArg Prod.snd (Option.some.inj roster)
    refine ⟨l', outcome, ⟨found', registered.trans told.registered, ?_, ?_, ?_, ?_⟩, bot,
      Or.inl rfl⟩
    · rw [registered, told.registered] at accounted
      rw [← Bool.not_not l'.stage.isOver, ← accounted]
      cases outcome <;> rfl
    · rw [history, List.filter_append, said, events, name]
      rcases follows with ⟨rfl, rfl, rfl, closed⟩ | rfl
      · exact ⟨_, Or.inr ⟨rfl, closed⟩, rfl⟩
      · exact ⟨quits, asked.imp_right (And.imp_right h.closed), List.append_nil _⟩
    · rw [history, name]
      exact told.together.trans (List.prefix_append _ _).isInfix
    · intro o is
      have isOver : l.stage.isOver = true := by rw [told.isOver, is]; rfl
      rw [change.of_over regular.queueing told.found isOver]
      exact told.ran o is
  cases telling.about id with
  | nothing silent roster => exact still [] silent roster (Or.inr rfl)
  | launched new | lost new => exact absurd new (Nat.ne_of_lt (View.lt_of_launch? told.found))
  | @quit l₀ isRunning stops found registered said roster =>
      cases told.found.symm.trans found
      have isOpen : v.mgr.closed ≠ true := mt regular.orderly.closed.mp (by rw [isRunning]; nofun)
      refine still _ said roster (Or.inl ⟨told.goesOn registered, ?_, rfl,
        (h.orderly regular.orderly).closed.mpr stops⟩)
      exact asked.resolve_right fun closed => isOpen closed.2
  | @left l₀ ran o last found registered why ends eq said silent =>
      cases told.found.symm.trans found
      cases told.goesOn registered
      have left := View.launch?_leave v m id ran (some o) id
      rw [← eq, found', told.found, Option.map_some, if_pos rfl] at left
      have left := Option.some.inj left
      refine ⟨l', some o, ⟨found', by rw [left]; exact Bool.and_false _, by rw [left]; rfl, ?_, ?_,
        fun o' is => ?_⟩, bot, Or.inr ⟨rfl, o, rfl, ends⟩⟩
      · refine ⟨quits, ?_, ?_⟩
        · rw [name]
          exact asked.imp_right (And.imp_right h.closed)
        · rw [history, List.filter_append, events, said, name,
            List.filter_cons_of_pos (isAbout_of_bot (bot_outcomeEvent _ _ _)),
            List.filter_cons_of_pos (isAbout_of_bot rfl), silent]
          exact congrArg (· ++ _) (List.append_nil _)
      · rw [history, name, said]
        exact ⟨v.mgr.history, last, by simp [closingEvents]⟩
      · cases is
        rw [left]
        exact why.notStarted_iff regular.tidy told.found
  | strayed found stray pending =>
      cases told.found.symm.trans found
      have registered := told.registered
      have isOver := told.isOver
      rw [stray] at registered
      rw [pending] at isOver
      cases outcome <;> simp at registered isOver

/-- A launch that has just come was told of as launched. -/
theorem Step.told_of_fresh (h : Step L m v v') (regular : v.Regular m)
    (absent : v.launch? id = none) (found' : v'.launch? id = some l')
    (calm : ¬ L.panics l'.bot) : v'.Told id l' none := by
  obtain ⟨es, telling⟩ := h.telling
  rcases h.origin found' with ⟨l, found, -⟩ | ⟨new, fresh⟩
  · cases absent.symm.trans found
  · have registered := fresh.registered calm regular.orderly
    have entry := View.getElem?_roster v' id
    rw [found', Option.map_some, registered] at entry
    have unknown : v.mgr.history.filter (Event.isAbout id) = [] :=
      filter_isAbout_eq_nil fun e mem bot => by
        have inside := regular.known e mem id bot
        omega
    have before : v.mgr.roster[id]? = none := by
      rw [View.getElem?_roster, absent, Option.map_none]
    have said : es.filter (Event.isAbout id) = [.botLaunched id (v'.nameOf l'.bot)] := by
      cases telling.about id with
      | launched _ said roster =>
          cases entry.symm.trans roster
          rw [said, h.nameOf]
      | nothing silent roster | quit _ _ _ _ _ roster =>
          cases entry.symm.trans (roster.trans before)
      | lost _ _ _ roster => cases entry.symm.trans roster
      | left found | strayed found => cases absent.symm.trans found
    refine ⟨found', registered, ?_, ⟨[], Or.inl rfl, ?_⟩, List.nil_infix, nofun⟩
    · cases fresh with
      | launched => rfl
      | late => cases registered
    · rw [telling.history, List.filter_append, unknown, said]
      rfl

/-- What was told of a launch so far goes on with every step, and at most once with its end. -/
theorem Steps.told {before : Option RunOutcome} (h : Steps L m v v') (regular : v.Regular m)
    (told : ∀ l, v.launch? id = some l → v.Told id l before)
    (absent : v.launch? id = none → before = none) (found' : v'.launch? id = some l')
    (calm : ¬ L.panics l'.bot) : ∃ outcome, v'.Told id l' outcome ∧
      (outcome = before ∨
        before = none ∧ ∃ o, outcome = some o ∧ (o ≠ .notStarted → L.ends ⟨m, id⟩ o)) := by
  induction h generalizing l' with
  | refl => exact ⟨before, told l' found', Or.inl rfl⟩
  | @tail x y steps step ih =>
      have regular := Steps.regular steps regular
      cases found : x.launch? id with
      | none =>
          have unlaunched : v.launch? id = none := by
            cases was : v.launch? id with
            | none => rfl
            | some l =>
                obtain ⟨l', found', -⟩ := Steps.launch steps (P := fun _ => True)
                  (fun _ _ => trivial) was trivial
                cases found.symm.trans found'
          exact ⟨none, step.told_of_fresh regular found found' calm,
            Or.inl (absent unlaunched).symm⟩
      | some l =>
          obtain ⟨l'', found'', change⟩ := step.change found
          cases found'.symm.trans found''
          rw [change.bot] at calm
          obtain ⟨outcome, toldThen, since⟩ := ih found calm
          obtain ⟨l'', outcome', toldNow, -, now⟩ := step.told regular calm toldThen
          cases found'.symm.trans toldNow.found
          refine ⟨outcome', toldNow, ?_⟩
          rcases now with rfl | ⟨rfl, o, rfl, ends⟩
          · exact since
          · rcases since with same | ⟨-, o', is, -⟩
            · exact Or.inr ⟨same.symm, o, rfl, ends⟩
            · cases is

end Flotilla
