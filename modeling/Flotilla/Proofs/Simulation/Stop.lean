import Flotilla.Proofs.Simulation.Calls
import Flotilla.Proofs.Walk

/-!
# What stopping does

Stopping closes the pool, asks the live bots to quit and announces them. `Fleet.stop_of_running`
says in full what becomes of the managers and the bots: which launches are asked, that each bot
is asked to quit once for each launch of it among them, and which runs are woken by it.
-/

namespace Flotilla

/-- A bot that was asked to quit, unless that makes it panic. -/
def Bot.asked (x : Bot) : Bot :=
  if .quit ∈ x.armed then x
  else if x.isClosure then { x with liveness := x.liveness.quit }
  else { x with quits := x.quits + 1 }

theorem Bot.connected_asked (x : Bot) : x.asked.liveness.connected = x.liveness.connected := by
  unfold Bot.asked
  split
  · rfl
  · split <;> rfl

theorem Bot.isClosure_asked (x : Bot) : x.asked.isClosure = x.isClosure := by
  unfold Bot.asked
  split
  · rfl
  · split <;> rfl

namespace Fleet

variable {L : Licence} {f f' : Fleet} {m m' b : Nat} {r : RunName}

/-! ## Asking to quit -/

theorem view_wakeAll (f : Fleet) (m : Nat) (ts : List Task) :
    (f.wakeAll ts).view m = (f.view m).wakeAll (ts.filter (Task.concerns m)) := by
  induction ts generalizing f with
  | nil => rfl
  | cons t ts ih =>
      rw [wakeAll_cons, ih]
      cases near : t.concerns m with
      | true =>
          rw [view_wake_of_concerns near, List.filter_cons_of_pos near]
          rfl
      | false =>
          rw [view_wake_of_not_concerns near, List.filter_cons_of_neg (by simp [near])]

theorem bots_dismiss (f : Fleet) (b : Nat) : (f.dismiss b).bots = f.bots := by
  unfold dismiss
  dsimp only
  split <;> rfl

theorem bots_quitBot (f : Fleet) (b : Nat) :
    (f.quitBot b).1.bots = f.bots.modify b Bot.asked := by
  have asked {h : Bot → Bot} (same : h (f.bot b) = (f.bot b).asked) :
      f.bots.modify b h = f.bots.modify b Bot.asked := by
    unfold bot at same
    rw [List.getD_eq_getElem?_getD] at same
    rw [List.modify_eq_set, List.modify_eq_set, same]
  unfold quitBot panicOf?
  by_cases armed : .quit ∈ (f.bot b).armed
  · rw [if_pos armed]
    refine (List.modify_id b f.bots).symm.trans (asked ?_)
    rw [Bot.asked, if_pos armed]
    rfl
  · rw [if_neg armed]
    dsimp only
    split
    · rename_i closure
      refine asked ?_
      rw [Bot.asked, if_neg armed, if_pos closure]
    · rename_i custom
      have counted : (f.modifyBot b fun bot => { bot with quits := bot.quits + 1 }).bots =
          f.bots.modify b Bot.asked := by
        refine asked ?_
        rw [Bot.asked, if_neg armed, if_neg custom]
      dsimp only
      split
      · rw [bots_dismiss, counted]
      · exact counted

theorem bot_quitBot (f : Fleet) (b b' : Nat) : (f.quitBot b).1.bot b' =
    if b = b' ∧ b' < f.bots.length then (f.bot b').asked else f.bot b' := by
  rw [← bot_modifyBot f b' b]
  unfold bot
  rw [bots_quitBot]
  rfl

/-- The runs of a bot that a request to quit wakes. -/
def wokenByQuit (f : Fleet) (b : Nat) : List RunName :=
  if (f.panicOf? b .quit).isNone && (f.bot b).isClosure then (f.bot b).liveness.wokenByQuit
  else []

theorem knows_of_wokenByQuit (woken : r ∈ f.wokenByQuit b) : f.Knows r := by
  unfold wokenByQuit Liveness.wokenByQuit at woken
  split at woken
  · split at woken
    · cases woken
    · exact ⟨b, Or.inr woken⟩
  · cases woken

theorem steady_quitBot (f : Fleet) (b : Nat) : Steady f (f.quitBot b).1 := by
  unfold quitBot
  split
  · exact .refl f
  · dsimp only
    split
    · exact (steady_modifyBot f b (.of_eq rfl rfl rfl rfl)).trans
        (steady_wakeAll _ _)
    · have counted : Steady f (f.modifyBot b fun bot => { bot with quits := bot.quits + 1 }) :=
        steady_modifyBot f b (.of_eq rfl rfl rfl rfl)
      dsimp only
      split
      · exact counted.trans (steady_dismiss _ b)
      · exact counted

theorem view_quitBot (f : Fleet) (b m : Nat) :
    (f.quitBot b).1.view m =
      (f.view m).wakeAll (((f.wokenByQuit b).map Task.bot).filter (Task.concerns m)) := by
  unfold quitBot wokenByQuit
  split
  · rename_i text panicked
    rw [panicked]
    rfl
  · rename_i answers
    rw [answers]
    dsimp only
    cases (f.bot b).isClosure with
    | true =>
        simp only [↓reduceIte, Option.isNone_none, Bool.and_self]
        rw [view_wakeAll, view_modifyBot b _ rfl]
    | false =>
        simp only [Bool.false_eq_true, ↓reduceIte, Bool.and_false]
        split
        · rw [view_dismiss, view_modifyBot b _ rfl]
          rfl
        · exact view_modifyBot b _ rfl

/-- Asks bots to quit, one after another. -/
def quitAll (f : Fleet) (bots : List Nat) : Fleet := bots.foldl (fun f b => (f.quitBot b).1) f

theorem quitAll_cons (f : Fleet) (b : Nat) (bots : List Nat) :
    f.quitAll (b :: bots) = (f.quitBot b).1.quitAll bots := rfl

theorem steady_quitAll (f : Fleet) (bots : List Nat) : Steady f (f.quitAll bots) := by
  induction bots generalizing f with
  | nil => exact .refl f
  | cons b bots ih => exact (steady_quitBot f b).trans (ih _)

theorem bots_quitAll (f : Fleet) (bots : List Nat) :
    (f.quitAll bots).bots = bots.foldl (fun xs b => xs.modify b Bot.asked) f.bots := by
  induction bots generalizing f with
  | nil => rfl
  | cons b bots ih => rw [quitAll_cons, ih, bots_quitBot, List.foldl_cons]

/-- What becomes of the bots does not depend on the order in which they are asked. -/
theorem bots_quitAll_of_perm {g : Fleet} (same : g.bots = f.bots) {bs bs' : List Nat}
    (perm : bs.Perm bs') : (g.quitAll bs).bots = (f.quitAll bs').bots := by
  rw [bots_quitAll, bots_quitAll, same]
  refine perm.foldl_eq' (fun b _ b' _ xs => ?_) f.bots
  by_cases eq : b = b'
  · rw [eq]
  · exact List.modify_modify_ne Bot.asked Bot.asked xs eq

/-- Requests to quit wake runs that wait for one, and do nothing else to a manager. -/
theorem view_quitAll (f : Fleet) (bots : List Nat) :
    ∃ woken : List RunName, (∀ r ∈ woken, f.Knows r) ∧ ∀ m, (f.quitAll bots).view m =
      (f.view m).wakeAll ((woken.map Task.bot).filter (Task.concerns m)) := by
  induction bots generalizing f with
  | nil => exact ⟨[], by simp, fun m => rfl⟩
  | cons b bots ih =>
      obtain ⟨woken, known, eq⟩ := ih (f.quitBot b).1
      refine ⟨f.wokenByQuit b ++ woken, fun r mem => ?_, fun m => ?_⟩
      · rcases List.mem_append.mp mem with mem | mem
        · exact knows_of_wokenByQuit mem
        · exact (steady_quitBot f b).knows r (known r mem)
      · rw [quitAll_cons, eq, view_quitBot, List.map_append, List.filter_append,
          View.wakeAll_append]

/-! ## Who is asked -/

theorem panicOf?_steady (steady : Steady f f') (b : Nat) (what : Method) :
    f'.panicOf? b what = f.panicOf? b what := by
  unfold panicOf?
  rw [steady.armed]

/-- Whether a registered launch is asked to quit when nobody panics. -/
def isAsked (f : Fleet) (x : Nat × Launch) : Bool :=
  x.2.admitted || (f.bot x.2.bot).liveness.connected

theorem isAsked_quitBot (f : Fleet) (b : Nat) : (f.quitBot b).1.isAsked = f.isAsked := by
  funext x
  unfold isAsked
  rw [bot_quitBot]
  split
  · rw [Bot.connected_asked]
  · rfl

theorem isAsked_of_bots (same : f'.bots = f.bots) : f'.isAsked = f.isAsked := by
  funext x
  unfold isAsked bot
  rw [same]

theorem isAsked_of_isLive {l : Launch} {live : Bool} (h : f.isLive l = .ok live) (id : Nat) :
    live = f.isAsked (id, l) := by
  unfold isLive at h
  unfold isAsked
  cases admitted : l.admitted with
  | true =>
      rw [if_pos admitted] at h
      exact (Except.ok.inj h).symm
  | false =>
      rw [if_neg (by simp [admitted])] at h
      split at h
      · cases h
      · exact (Except.ok.inj h).symm

/-- What asking the live bots among registered launches to quit comes to. -/
structure Asking (f : Fleet) (regs asked : List (Nat × Launch))
    (result : Fleet × Except String (List Handle)) : Prop where
  sublist : asked.Sublist regs
  fleet : result.1 = f.quitAll (asked.map fun x => x.2.bot)
  panicked : ∀ text, result.2 = .error text → regs ≠ []
  answered : ∀ hs, result.2 = .ok hs → hs = asked.map (fun x => ⟨x.1, x.2.bot⟩) ∧
    asked = regs.filter f.isAsked ∧ ∀ x ∈ asked, f.panicOf? x.2.bot .quit = none

theorem quitLive_asking (f : Fleet) (regs : List (Nat × Launch)) :
    ∃ asked, Asking f regs asked (f.quitLive regs) := by
  induction regs generalizing f with
  | nil => exact ⟨[], .refl _, rfl, nofun, fun hs h => ⟨(Except.ok.inj h).symm, rfl, nofun⟩⟩
  | cons x rest ih =>
      obtain ⟨id, l⟩ := x
      rw [quitLive]
      cases live : f.isLive l with
      | error text => exact ⟨[], List.nil_sublist _, rfl, fun _ _ => nofun, nofun⟩
      | ok b =>
          have asks := isAsked_of_isLive live id
          cases b with
          | false =>
              obtain ⟨asked, asking⟩ := ih f
              refine ⟨asked, asking.sublist.trans (List.sublist_cons_self _ _), asking.fleet,
                fun _ _ => nofun, fun hs h => ?_⟩
              obtain ⟨eq, all, answers⟩ := asking.answered hs h
              refine ⟨eq, ?_, answers⟩
              rw [List.filter_cons_of_neg (by simp [← asks]), all]
          | true =>
              obtain ⟨asked, asking⟩ := ih (f.quitBot l.bot).1
              have steady := steady_quitBot f l.bot
              have same := isAsked_quitBot f l.bot
              dsimp only
              rcases quits : f.quitBot l.bot with ⟨g, _ | text⟩
              · rw [quits] at asking steady same
                refine ⟨(id, l) :: asked, asking.sublist.cons_cons _, ?_, fun _ _ => nofun, ?_⟩
                · rw [List.map_cons, quitAll_cons, quits]
                  dsimp only at asking ⊢
                  rw [← asking.fleet]
                  generalize g.quitLive rest = result
                  rcases result with ⟨g', text | hs⟩ <;> rfl
                · intro hs h
                  dsimp only at asking h
                  generalize g.quitLive rest = result at asking h
                  rcases result with ⟨g', text | hs'⟩
                  · cases h
                  · obtain ⟨rfl, all, answers⟩ := asking.answered hs' rfl
                    cases h
                    refine ⟨rfl, by rw [List.filter_cons_of_pos (by simp [← asks]), ← same, ← all],
                      ?_⟩
                    intro x mem
                    rcases List.mem_cons.mp mem with rfl | mem
                    · unfold quitBot at quits
                      split at quits
                      · cases quits
                      · assumption
                    · rw [← panicOf?_steady steady]
                      exact answers x mem
              · refine ⟨[(id, l)], (List.nil_sublist _).cons_cons _, ?_, fun _ _ => nofun, nofun⟩
                show g = (f.quitBot l.bot).1
                rw [quits]

/-! ## Announcing who was asked -/

/-- What announcing requests to quit comes to. -/
structure Announcing (f : Fleet) (m : Nat) (hs said : List Handle)
    (result : Fleet × Option String) : Prop where
  sub : said.Sublist hs
  complete : result.2 = none → said = hs
  panicked : result.2 ≠ none → hs ≠ []
  steady : Steady f result.1
  bots : result.1.bots = f.bots
  here : f.Has m → result.1.view m = (f.view m).publishAll
    (said.map fun h => .quitRequested h.id ((f.view m).nameOf h.bot))
  away : ∀ m', m ≠ m' → result.1.view m' = f.view m'

theorem bots_publish (f : Fleet) (m : Nat) (e : Event) : (f.publish m e).bots = f.bots := by
  unfold publish wakeListener
  split <;> rfl

theorem bots_terminateIfEmpty (f : Fleet) (m : Nat) (span : Option Span) :
    (f.terminateIfEmpty m span).bots = f.bots := by
  unfold terminateIfEmpty
  dsimp only
  split
  · exact bots_publish _ m _
  · rfl

theorem announceQuits_announcing (f : Fleet) (m : Nat) (span : Option Span) (hs : List Handle) :
    ∃ said, Announcing f m hs said (f.announceQuits m span hs) := by
  induction hs generalizing f with
  | nil => exact ⟨[], .refl _, fun _ => rfl, fun h => absurd rfl h, .refl f, rfl, fun _ => rfl,
      fun _ _ => rfl⟩
  | cons h rest ih =>
      rw [announceQuits]
      unfold askName
      cases f.panicOf? h.bot .name with
      | some text => exact ⟨[], List.nil_sublist _, nofun, fun _ => nofun, .refl f, rfl,
          fun _ => rfl, fun _ _ => rfl⟩
      | none =>
          dsimp only
          obtain ⟨said, ann⟩ := ih ((f.say .debug "quit requested"
            (botFields h.id (f.bot h.bot).plan.name) span).publish m
              (.quitRequested h.id (f.bot h.bot).plan.name))
          refine ⟨h :: said, ann.sub.cons_cons h, fun none => by rw [ann.complete none],
            fun _ => nofun, ?_, ?_, fun has => ?_, fun m' ne => ?_⟩
          · exact ((steady_say f _ _ _ _).trans (steady_publish _ m _)).trans ann.steady
          · rw [ann.bots, bots_publish]
            rfl
          · rw [ann.here (by simpa using has), view_publish (by simpa using has)]
            rfl
          · rw [ann.away m' ne, view_publish_ne ne]
            rfl

theorem Announcing.among {hs said : List Handle} {result : Fleet × Option String}
    (ann : Announcing f m (sortBy Handle.id hs) said result) : said ⊆ hs :=
  List.Subset.trans ann.sub.subset (sortBy_perm Handle.id hs).subset

/-! ## Stopping -/

/-- A manager that begins to stop: its pool is closed, and nobody was asked to quit yet. -/
def closing (f : Fleet) (m : Nat) : Fleet :=
  ((f.modifyManager m fun mgr => { mgr with phase := .stopping }).publish m
    (.stateChanged .stopping)).closePool m

theorem view_closePool (has : f.Has m) : (f.closePool m).view m = (f.view m).close m := by
  unfold closePool
  rw [view_wakeAll, view_modify has (fun mgr => { mgr with closed := true }) fun _ => rfl,
    List.filter_eq_self.mpr]
  · rfl
  · intro t mem
    obtain ⟨id, -, rfl⟩ := List.mem_map.mp mem
    simp [Task.concerns]

theorem view_closePool_ne (ne : m' ≠ m) : (f.closePool m').view m = f.view m := by
  unfold closePool
  rw [view_wakeAll, view_modifyManager_ne ne, List.filter_eq_nil_iff.mpr]
  · rfl
  · intro t mem
    obtain ⟨id, -, rfl⟩ := List.mem_map.mp mem
    simp [Task.concerns, ne]

theorem steady_closing (f : Fleet) (m : Nat) : Steady f (f.closing m) :=
  ((steady_modifyManager f m _ (by rfl)).trans (steady_publish _ m _)).trans
    ((steady_modifyManager _ m _ (by rfl)).trans (steady_wakeAll _ _))

theorem view_closing (has : f.Has m) : (f.closing m).view m =
    (((f.view m).modify fun mgr => { mgr with phase := .stopping }).publish
      (.stateChanged .stopping)).close m := by
  unfold closing
  rw [view_closePool (by simpa using has),
    view_publish_modify has (fun mgr => { mgr with phase := .stopping }) _ fun _ => rfl]

theorem view_closing_ne (ne : m' ≠ m) : (f.closing m').view m = f.view m := by
  unfold closing
  rw [view_closePool_ne ne, view_publish_modify_ne ne]

theorem bots_closing (f : Fleet) (m : Nat) : (f.closing m).bots = f.bots :=
  bots_publish (f.modifyManager m fun mgr => { mgr with phase := .stopping }) m _

theorem registry_closing (has : f.Has m) :
    ((f.closing m).manager m).registry = (f.manager m).registry := by
  show ((f.closing m).view m).mgr.registry = (f.view m).mgr.registry
  rw [view_closing has, View.close, View.wakeAll_mgr]
  rfl

theorem walked_closing (has : f.Has m) :
    ((f.closing m).manager m).walked = (f.manager m).walked := by
  show ((f.closing m).view m).mgr.walked = (f.view m).mgr.walked
  rw [view_closing has, View.close, View.wakeAll_mgr]
  rfl

/-- What stopping a manager that runs comes to: these launches were asked to quit in the course
of the walk, these of them announced in order, and these runs woken. -/
structure Stopping (f : Fleet) (m : Nat) (asked : List (Nat × Launch)) (said : List Handle)
    (woken : List RunName) (result : Fleet × Option Halt) : Prop where
  sublist : asked.Sublist (f.manager m).walked
  among : said ⊆ asked.map fun x => ⟨x.1, x.2.bot⟩
  ascending : (said.map Handle.id).Pairwise (· < ·)
  known : ∀ r ∈ woken, f.Knows r
  steady : Steady f result.1
  bots : result.1.bots = (f.quitAll (asked.map fun x => x.2.bot)).bots
  here : result.1.view m = ((f.view m).stop m (said.map Handle.id)).wakeAll
    ((woken.map Task.bot).filter (Task.concerns m))
  away : ∀ m', m ≠ m' → result.1.view m' = (f.view m').wakeAll
    ((woken.map Task.bot).filter (Task.concerns m'))
  succeeded : result.2 = none →
    said = ((f.manager m).registry.filter f.isAsked).map (fun x => ⟨x.1, x.2.bot⟩) ∧
      asked = (f.manager m).walked.filter f.isAsked ∧
        ∀ x ∈ asked, f.panicOf? x.2.bot .quit = none
  failed : ∀ e, result.2 ≠ some (.refused e)

theorem terminateIfEmpty_of_held {v : View} (held : v.mgr.registry ≠ []) :
    v.terminateIfEmpty = v := by
  unfold View.terminateIfEmpty
  rw [if_neg]
  intro ends
  rcases ends with ⟨-, empty⟩
  exact held (List.isEmpty_iff.mp empty)

theorem stop_eq (isRunning : (f.manager m).phase = .running) (span : Option Span) :
    ∃ (level : Level) (message : String)
      (fields : Fleet → List Handle → List (String × FieldValue)), f.stop m span =
      match (f.closing m).quitLive ((f.closing m).manager m).walked with
      | (f, .error text) => (f, some (.panicked text))
      | (f, .ok asked) =>
        match f.announceQuits m span (sortBy Handle.id asked) with
        | (f, some text) => (f, some (.panicked text))
        | (f, none) => ((f.say level message (fields f asked) span).terminateIfEmpty m span,
            none) := by
  unfold stop
  rw [advance]
  dsimp only
  rw [if_pos isRunning]
  exact ⟨.info, "manager stopping; pool closed to new bots", fun f asked =>
    [f.numberField m, ("registered", .number (f.manager m).registry.length),
      ("quit", .number asked.length)], rfl⟩

/-- Requests to quit that are announced for registered launches carry the names of their
bots. -/
theorem view_stop_said {said : List Handle} (has : f.Has m)
    (among : said ⊆ (f.manager m).registry.map fun x => ⟨x.1, x.2.bot⟩) :
    (f.view m).stop m (said.map Handle.id) =
      (((f.closing m).view m).publishAll (said.map fun h =>
        .quitRequested h.id ((f.view m).nameOf h.bot))).terminateIfEmpty := by
  rw [view_closing has]
  unfold View.stop
  dsimp only
  rw [List.map_map]
  congr 2
  refine List.map_congr_left fun h mem => ?_
  obtain ⟨x, inside, rfl⟩ := List.mem_map.mp (among mem)
  obtain ⟨found, -⟩ := Manager.mem_registry.mp inside
  have found : (((((f.view m).modify fun mgr => { mgr with phase := .stopping }).publish
      (.stateChanged .stopping)).close m).launch? x.1) = some x.2 := by
    rw [View.close, View.launch?_wakeAll]
    exact found
  simp only [Function.comp_apply, View.launchName, View.getD_launches found]
  congr 1
  rw [View.close, View.wakeAll_nameOf]
  rfl

/-- A manager that stops, when these launches were asked to quit in the course of the walk and these
runs woken by it. -/
structure Quitting (f : Fleet) (m : Nat) (asked : List (Nat × Launch)) (woken : List RunName)
    (g : Fleet) : Prop where
  sublist : asked.Sublist (f.manager m).walked
  known : ∀ r ∈ woken, f.Knows r
  steady : Steady f g
  bots : g.bots = (f.quitAll (asked.map fun x => x.2.bot)).bots
  view : ∀ m', g.view m' = ((f.closing m).view m').wakeAll
    ((woken.map Task.bot).filter (Task.concerns m'))

theorem exists_quitting {asked : List (Nat × Launch)}
    {result : Fleet × Except String (List Handle)}
    (asking : Asking (f.closing m) (f.manager m).walked asked result) :
    ∃ woken, Quitting f m asked woken result.1 := by
  obtain ⟨woken, known, view⟩ := view_quitAll (f.closing m) (asked.map fun x => x.2.bot)
  have closing := steady_closing f m
  rw [asking.fleet]
  exact ⟨woken, asking.sublist, fun r mem => closing.knows r (known r mem),
    closing.trans (steady_quitAll _ _), bots_quitAll_of_perm (bots_closing f m) (.refl _), view⟩

namespace Quitting

variable {f g g' : Fleet} {asked : List (Nat × Launch)} {said : List Handle}
  {woken : List RunName} {text : String} (quitting : Quitting f m asked woken g)

include quitting

theorem inside : asked ⊆ (f.manager m).registry :=
  List.Subset.trans quitting.sublist.subset (f.manager m).walked_perm.subset

/-- Those who were asked are announced once each, in order. -/
theorem ascending :
    ((sortBy Handle.id (asked.map fun x => ⟨x.1, x.2.bot⟩)).map Handle.id).Pairwise (· < ·) := by
  refine pairwise_lt_sortBy ?_
  rw [List.map_map]
  have once : ((f.manager m).registry.map Prod.fst).Nodup :=
    (Manager.pairwise_registry (f.manager m)).imp Nat.ne_of_lt
  exact (((f.manager m).walked_perm.map Prod.fst).nodup_iff.mpr once).sublist
    (quitting.sublist.map Prod.fst)

theorem registry (has : f.Has m) : (g.view m).mgr.registry = (f.manager m).registry := by
  rw [quitting.view, View.wakeAll_mgr, ← registry_closing has]
  rfl

theorem away (ne : m ≠ m') : g.view m' = (f.view m').wakeAll
    ((woken.map Task.bot).filter (Task.concerns m')) := by
  rw [quitting.view, view_closing_ne ne]

/-- What the announcements say is the same before and after the runs of those who were asked
were woken. -/
theorem here (has : f.Has m) (among : said ⊆ asked.map fun x => ⟨x.1, x.2.bot⟩) :
    ((f.view m).stop m (said.map Handle.id)).wakeAll
        ((woken.map Task.bot).filter (Task.concerns m)) =
      ((g.view m).publishAll (said.map fun h =>
        .quitRequested h.id ((g.view m).nameOf h.bot))).terminateIfEmpty := by
  have names : (g.view m).nameOf = (f.view m).nameOf := by
    rw [quitting.view, View.wakeAll_nameOf, view_closing has, View.close, View.wakeAll_nameOf]
    rfl
  have registered := List.Subset.trans among (List.map_subset _ quitting.inside)
  rw [view_stop_said has registered, ← View.wakeAll_terminateIfEmpty, ← View.wakeAll_publishAll,
    ← quitting.view, names]

/-- A bot panicked in the course of the walk. -/
theorem interrupted (has : f.Has m) (held : (f.manager m).registry ≠ []) (text : String) :
    Stopping f m asked [] woken (g, some (.panicked text)) where
  sublist := quitting.sublist
  among := List.nil_subset _
  ascending := .nil
  known := quitting.known
  steady := quitting.steady
  bots := quitting.bots
  here := by
    have late := quitting.here has (List.nil_subset _)
    refine (late.trans (terminateIfEmpty_of_held ?_)).symm
    show (g.view m).mgr.registry ≠ []
    rwa [quitting.registry has]
  away _ ne := quitting.away ne
  succeeded := nofun
  failed := nofun

/-- A bot panicked when it was to be announced. -/
theorem unannounced (has : f.Has m) (ann : Announcing g m
      (sortBy Handle.id (asked.map fun x => ⟨x.1, x.2.bot⟩)) said (g', some text)) :
    Stopping f m asked said woken (g', some (.panicked text)) where
  sublist := quitting.sublist
  among := ann.among
  ascending := quitting.ascending.sublist (ann.sub.map Handle.id)
  known := quitting.known
  steady := quitting.steady.trans ann.steady
  bots := ann.bots.trans quitting.bots
  here := by
    have hasg : g.Has m := (quitting.steady.has m).mpr has
    have held : ((g.view m).publishAll (said.map fun h =>
        .quitRequested h.id ((g.view m).nameOf h.bot))).mgr.registry ≠ [] := by
      rw [View.publishAll_eq]
      show (g.view m).mgr.registry ≠ []
      rw [quitting.registry has]
      intro none
      have nobody := quitting.inside
      rw [none] at nobody
      exact ann.panicked (Option.some_ne_none text) (by rw [List.subset_nil.mp nobody]; rfl)
    rw [quitting.here has ann.among, terminateIfEmpty_of_held held, ← ann.here hasg]
  away m' ne := (ann.away m' ne).trans (quitting.away ne)
  succeeded := nofun
  failed := nofun

/-- Everybody who was live was asked, and all of them were announced. -/
theorem finished (has : f.Has m) (all : asked = (f.manager m).walked.filter f.isAsked)
    (answers : ∀ x ∈ asked, f.panicOf? x.2.bot .quit = none)
    (ann : Announcing g m (sortBy Handle.id (asked.map fun x => ⟨x.1, x.2.bot⟩)) said (g', none))
    (level : Level) (message : String) (fields : List (String × FieldValue))
    (span : Option Span) :
    Stopping f m asked said woken
      ((g'.say level message fields span).terminateIfEmpty m span, none) where
  sublist := quitting.sublist
  among := ann.among
  ascending := quitting.ascending.sublist (ann.sub.map Handle.id)
  known := quitting.known
  steady := (quitting.steady.trans ann.steady).trans
    ((steady_say g' _ _ _ _).trans (steady_terminateIfEmpty _ m span))
  bots := by
    rw [← quitting.bots, ← ann.bots]
    exact bots_terminateIfEmpty (g'.say _ _ _ _) m span
  here := by
    have hasg : g.Has m := (quitting.steady.has m).mpr has
    rw [quitting.here has ann.among, ← ann.here hasg]
    exact view_terminateIfEmpty (f := g'.say _ _ _ _) ((ann.steady.has m).mpr hasg) span
  away m' ne := by
    rw [← quitting.away ne, ← ann.away m' ne]
    exact view_terminateIfEmpty_ne (f := g'.say _ _ _ _) ne span
  succeeded _ := by
    refine ⟨?_, all, answers⟩
    rw [ann.complete rfl, all]
    refine sortBy_eq_of_perm (((f.manager m).walked_perm.filter f.isAsked).map _) ?_
    rw [List.map_map]
    exact (Manager.pairwise_registry (f.manager m)).sublist (List.filter_sublist.map _)
  failed := nofun

end Quitting

theorem stop_of_running (has : f.Has m) (isRunning : (f.manager m).phase = .running)
    (span : Option Span) : ∃ asked said woken, Stopping f m asked said woken (f.stop m span) := by
  obtain ⟨level, message, fields, eq⟩ := stop_eq isRunning span
  obtain ⟨asked, asking⟩ := quitLive_asking (f.closing m) ((f.closing m).manager m).walked
  rw [walked_closing has] at asking eq
  obtain ⟨woken, quitting⟩ := exists_quitting asking
  rw [eq]
  generalize (f.closing m).quitLive (f.manager m).walked = result at asking quitting ⊢
  rcases result with ⟨g, text | hs⟩
  · refine ⟨asked, [], woken, quitting.interrupted has (fun none => ?_) text⟩
    have walked := (f.manager m).walked_perm
    rw [none] at walked
    exact asking.panicked text rfl walked.eq_nil
  · obtain ⟨rfl, all, answers⟩ := asking.answered hs rfl
    rw [isAsked_of_bots (bots_closing f m)] at all
    obtain ⟨said, ann⟩ := announceQuits_announcing g m span
      (sortBy Handle.id (asked.map fun x => ⟨x.1, x.2.bot⟩))
    dsimp only
    generalize g.announceQuits m span _ = result at ann ⊢
    rcases result with ⟨g', _ | text⟩
    · refine ⟨asked, said, woken, quitting.finished has all (fun x mem => ?_) ann ..⟩
      rw [← panicOf?_steady (steady_closing f m)]
      exact answers x mem
    · exact ⟨asked, said, woken, quitting.unannounced has ann⟩

theorem stop_of_not_running (idle : (f.manager m).phase ≠ .running) (span : Option Span) :
    f.stop m span = (f, some (.refused (.illegalState "stop" (f.manager m).phase))) := by
  unfold stop
  rw [advance]
  dsimp only
  rw [if_neg idle]

/-! ## Every call as steps -/

theorem steps_nudges {v : View} {ts : List Task} (begun : ∀ t ∈ ts, ∃ id l,
    t = .bot ⟨m, id⟩ ∧ v.launch? id = some l ∧ l.stage ≠ .submitted) :
    Steps L m v (v.wakeAll ts) := by
  induction ts generalizing v with
  | nil => exact .refl
  | cons t ts ih =>
      obtain ⟨id, l, rfl, found, begun₁⟩ := begun _ List.mem_cons_self
      refine .head (.nudge found begun₁) (ih fun t mem => ?_)
      obtain ⟨id', l', eq, found', begun'⟩ := begun t (List.mem_cons_of_mem _ mem)
      exact ⟨id', l', eq, by rw [View.launch?_wake, found'], begun'⟩

theorem phase_of_not_has (out : ¬ f.Has m) : (f.manager m).phase = .new := by
  rw [manager_of_not_has out]
  rfl

theorem has_of_running (isRunning : (f.manager m).phase = .running) : f.Has m := by
  apply Classical.byContradiction
  intro out
  rw [phase_of_not_has out] at isRunning
  cases isRunning

/-- Whatever becomes of a call of `stop`, nobody leaves in its course. -/
theorem launches_stop (f : Fleet) (m : Nat) (span : Option Span) :
    ((f.stop m span).1.manager m).launches = (f.manager m).launches := by
  by_cases isRunning : (f.manager m).phase = .running
  · obtain ⟨asked, said, woken, stopping⟩ :=
      stop_of_running (has_of_running isRunning) isRunning span
    show ((f.stop m span).1.view m).mgr.launches = (f.view m).mgr.launches
    rw [stopping.here, View.wakeAll_mgr, View.stop_mgr]
  · rw [stop_of_not_running isRunning]

theorem steady_stop (f : Fleet) (m : Nat) (span : Option Span) : Steady f (f.stop m span).1 := by
  by_cases isRunning : (f.manager m).phase = .running
  · obtain ⟨asked, said, woken, stopping⟩ :=
      stop_of_running (has_of_running isRunning) isRunning span
    exact stopping.steady
  · rw [stop_of_not_running isRunning]
    exact .refl f

theorem leads_stop (f : Fleet) (m : Nat) (span : Option Span)
    (licensed : (f.manager m).phase = .running → L.stops m) : Leads L f (f.stop m span).1 := by
  by_cases isRunning : (f.manager m).phase = .running
  · have has := has_of_running isRunning
    obtain ⟨asked, said, woken, stopping⟩ := stop_of_running has isRunning span
    refine stopping.steady.leads fun ready m' has' => ?_
    have begun (v : View) (same : ∀ j, v.launch? j = (f.view m').launch? j) :
        ∀ t ∈ (woken.map Task.bot).filter (Task.concerns m'), ∃ id l,
          t = .bot ⟨m', id⟩ ∧ v.launch? id = some l ∧ l.stage ≠ .submitted := by
      intro t mem
      obtain ⟨mem, near⟩ := List.mem_filter.mp mem
      obtain ⟨r, among, rfl⟩ := List.mem_map.mp mem
      obtain ⟨l, found, begun⟩ := ready.known r (stopping.known r among)
      have eq : r.manager = m' := by simpa [Task.concerns] using near
      subst eq
      exact ⟨r.id, l, rfl, (same _).trans found, begun⟩
    by_cases eq : m = m'
    · subst eq
      rw [stopping.here]
      refine .head (.stop (licensed isRunning) isRunning stopping.ascending fun id mem => ?_)
        (steps_nudges (begun _ (View.launch?_stop _ _ _)))
      obtain ⟨h, inside, rfl⟩ := List.mem_map.mp mem
      obtain ⟨⟨id, l⟩, asked, rfl⟩ := List.mem_map.mp (stopping.among inside)
      exact ⟨l, Manager.mem_registry.mp
        ((f.manager m).walked_perm.subset (stopping.sublist.subset asked))⟩
    · rw [stopping.away m' eq]
      exact steps_nudges (begun _ fun _ => rfl)
  · rw [stop_of_not_running isRunning]
    exact .refl L f

/-- The manager with which a call registers or launches bots. -/
def enrolling? : Call → Option Nat
  | .add m _ | .start m => some m
  | _ => none

/-- A call is a sequence of steps; it stops a manager, and registers or launches bots, only if
that is licensed. -/
theorem leads_perform (f : Fleet) (span : Option Span) (c : Call)
    (stops : ∀ m, c = .stop m → f.isHeld m = true → (f.manager m).phase = .running → L.stops m)
    (enrols : ∀ m, enrolling? c = some m → f.isHeld m = true → L.enrols m) :
    Leads L f (f.perform span c).1 := by
  unfold perform
  split
  · exact .refl L f
  · rename_i held
    cases c with
    | add m b => exact leads_add (enrols m rfl (by simpa [callee?] using held)) f b span
    | start m => exact leads_start (enrols m rfl (by simpa [callee?] using held)) f span
    | stop m => exact leads_stop f m span (stops m rfl (by simpa [callee?] using held))
    | handles m =>
        dsimp only
        split <;> exact .refl L f
    | finish b ending => exact leads_finish L f b ending
    | _ => exact .refl L f

end Fleet

end Flotilla
