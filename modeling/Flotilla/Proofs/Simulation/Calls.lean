import Flotilla.Proofs.Leads
import Flotilla.Fleet.Perform

/-!
# Calls as steps

What a call does to a fleet is a sequence of steps for every manager. A call is made within a
turn or outside of any, and never lets the task being run go on: it leads on under any licence
at rest.

`Fleet.stop_spec` says in full what stopping does: which bots it asks to quit, which runs it
wakes, and what it does to each manager.
-/

namespace Flotilla

namespace View

/-! ## Waking may as well come later -/

theorem wakeAll_publishAll (v : View) (ts : List Task) (es : List Event) :
    (v.wakeAll ts).publishAll es = (v.publishAll es).wakeAll ts := by
  rw [publishAll_eq, publishAll_eq, wakeAll_modify]

theorem wakeAll_terminateIfEmpty (v : View) (ts : List Task) :
    (v.wakeAll ts).terminateIfEmpty = v.terminateIfEmpty.wakeAll ts := by
  unfold terminateIfEmpty
  rw [wakeAll_mgr]
  split
  · rw [wakeAll_modify]
    exact wakeAll_modify _ ts _
  · rfl

theorem wakeAll_append (v : View) (ts us : List Task) :
    v.wakeAll (ts ++ us) = (v.wakeAll ts).wakeAll us :=
  List.foldl_append

theorem modify_append_last {α : Type} (xs : List α) (x : α) (g : α → α) :
    (xs ++ [x]).modify xs.length g = xs ++ [g x] :=
  List.modifyTailIdx_add (List.modifyHead g) 0 xs [x]

/-- A launch is registered after its announcement. -/
theorem register_launch (v : View) (m b : Nat) :
    ((((v.modify fun mgr => { mgr with launches := mgr.launches ++ [{ bot := b }] }).wake
      (.bot ⟨m, v.mgr.launches.length⟩)).publish
        (.botLaunched v.mgr.launches.length (v.nameOf b))).modify fun mgr =>
          mgr.modifyLaunch v.mgr.launches.length fun l => { l with registered := true }) =
      v.launch m b true := by
  unfold launch
  simp only [↓reduceIte, wake_publish, wake_modify, wake_nameOf]
  congr 1
  simp only [publish, modify, Manager.modifyLaunch, modify_append_last]

theorem launches_foldl (v : View) (m : Nat) (bots : List Nat) :
    (bots.foldl (fun v b => v.launch m b true) v).mgr.launches =
      v.mgr.launches ++ bots.map fun b => { bot := b, registered := true } := by
  induction bots generalizing v with
  | nil => exact (List.append_nil _).symm
  | cons b rest ih =>
      rw [List.foldl_cons, ih, launch_mgr, List.append_assoc]
      rfl

theorem setStage_self {v : View} {id : Nat} {l : Launch} (found : v.launch? id = some l) :
    v.setStage id l.stage = v := by
  have same : v.mgr.launches.modify id (fun l' => { l' with stage := l.stage }) =
      v.mgr.launches := by
    apply List.ext_getElem?
    intro j
    rw [List.getElem?_modify]
    by_cases eq : id = j
    · subst eq
      have there : v.mgr.launches[id]? = some l := found
      rw [there]
      simp
    · simp [eq]
  show { v with mgr := { v.mgr with launches := _ } } = v
  rw [same]

end View

namespace Fleet

variable {L : Licence} {f f' : Fleet} {m m' b : Nat} {r : RunName}

/-! ## Permits -/

theorem knows_of_waiting (waits : r ∈ (f.bot b).permits.waiting) : f.Knows r :=
  ⟨b, Or.inl waits⟩

theorem launch_of_found {l : Launch} (found : (f.view r.manager).launch? r.id = some l) :
    f.launch r = l :=
  View.getD_launches found

theorem launch_of_absent (absent : (f.view r.manager).launch? r.id = none) :
    f.launch r = default := by
  unfold launch
  rw [List.getD_eq_getElem?_getD]
  exact congrArg (·.getD default) absent

theorem found_of_stage {stage : Stage} (is : (f.launch r).stage = stage) (some : stage ≠ .over) :
    (f.view r.manager).launch? r.id = .some (f.launch r) := by
  cases found : (f.view r.manager).launch? r.id with
  | none =>
      rw [launch_of_absent found] at is
      exact absurd is.symm some
  | some l => rw [launch_of_found found]

theorem keeps_release (x : Bot) : Bot.Keeps x { x with permits := x.permits.release.1 } where
  plan := rfl
  armed := rfl
  waiting := fun r waits => by
    rw [show ({ x with permits := x.permits.release.1 } : Bot).permits.waiting
      = x.permits.waiting.tail from Permits.release_waiting _] at waits
    exact List.mem_of_mem_tail waits
  watchers := fun _ h => h

theorem leads_addPermit (L : Licence) (f : Fleet) (b : Nat) : Leads L f (f.addPermit b) := by
  have keeps : Bot.Keeps (f.bot b) { f.bot b with permits := (f.bot b).permits.release.1 } :=
    keeps_release _
  have next := (f.bot b).permits.release_next
  unfold addPermit
  rcases released : (f.bot b).permits.release with ⟨permits, _ | r⟩
  · rw [released] at keeps
    exact leads_modifyBot L f b keeps
  · rw [released] at keeps next
    dsimp only
    refine (((steady_modifyBot f b keeps).trans (steady_setStage _ _ _)).trans
      (steady_wake _ _)).leads fun ready m has => ?_
    have plan := view_modifyBot (f := f) (m := m) b (fun bot => { bot with permits }) keeps.plan
    by_cases eq : r.manager = m
    · subst eq
      have waits : r ∈ (f.bot b).permits.waiting := List.mem_of_mem_head? (by simp [← next])
      obtain ⟨l, found, begun⟩ := ready.known r (knows_of_waiting waits)
      rw [view_wake_of_concerns (by simp [Task.concerns]),
        view_setStage (f := f.modifyBot b fun bot => { bot with permits }) has, plan,
        launch_of_found found]
      split
      · rename_i heeds waiting
        exact .single (.permit found waiting)
      · rw [View.setStage_self found]
        exact .single (.nudge found begun)
    · rw [view_wake_of_not_concerns (by simp [Task.concerns, eq]), view_setStage_ne eq, plan]

theorem leads_finish (L : Licence) (f : Fleet) (b : Nat) (ending : Option Ending) :
    Leads L f (f.finish b ending) :=
  (leads_modifyBot L f b (.of_eq rfl rfl rfl rfl)).trans (leads_addPermit L _ b)

/-! ## Launching -/

theorem steady_launchBot (f : Fleet) (m b : Nat) (span : Option Span) :
    Steady f (f.launchBot m b span).1 := by
  unfold launchBot
  dsimp only
  split
  · exact steady_modifyManager f m _ (by rfl)
  · have first := (steady_modifyManager f m (fun mgr =>
      { mgr with launches := mgr.launches ++ [{ bot := b }] }) rfl).trans
        (steady_wake _ (.bot ⟨m, (f.manager m).launches.length⟩))
    split
    · exact first
    · exact ((first.trans (steady_say _ _ _ _ _)).trans (steady_publish _ _ _)).trans
        (steady_modifyManager _ _ _ (by rfl))

theorem steady_launchBots (f : Fleet) (m : Nat) (span : Option Span) (bots : List Nat) :
    Steady f (f.launchBots m span bots).1 := by
  induction bots generalizing f with
  | nil => exact .refl f
  | cons b rest ih =>
      have first := steady_launchBot f m b span
      rw [launchBots]
      rcases eq : f.launchBot m b span with ⟨g, _ | halt⟩
      · rw [eq] at first
        exact first.trans (ih g)
      · rw [eq] at first
        exact first

theorem view_launchBot_ne (ne : m' ≠ m) (b : Nat) (span : Option Span) :
    (f.launchBot m' b span).1.view m = f.view m := by
  unfold launchBot
  dsimp only
  have first : ((f.modifyManager m' fun mgr =>
      { mgr with launches := mgr.launches ++ [{ bot := b }] }).wake
        (.bot ⟨m', (f.manager m').launches.length⟩)).view m = f.view m := by
    rw [view_wake_of_not_concerns (by simp [Task.concerns, ne]), view_modifyManager_ne ne]
  split
  · exact view_modifyManager_ne ne _
  · split
    · exact first
    · rw [view_modifyManager_ne ne, view_publish_ne ne, view_say, first]

theorem view_launchBot_closed (has : f.Has m) (isClosed : (f.view m).mgr.closed = true)
    (b : Nat) (span : Option Span) :
    (f.launchBot m b span).1.view m = (f.view m).modify fun mgr =>
      { mgr with launches := mgr.launches ++ [{ bot := b, stage := .over }] } := by
  have isClosed : (f.manager m).closed = true := isClosed
  unfold launchBot
  rw [if_pos isClosed, view_modifyManager has]
  rfl

/-- A bot that is launched is announced and registered if it gives its name. -/
theorem view_launchBot_open (has : f.Has m) (isOpen : (f.view m).mgr.closed = false)
    (b : Nat) (span : Option Span) :
    (f.launchBot m b span).1.view m =
      (f.view m).launch m b (f.panicOf? b .name).isNone := by
  have isOpen : ¬ (f.manager m).closed = true := by
    rw [Bool.not_eq_true]
    exact isOpen
  have first : ((f.modifyManager m fun mgr =>
      { mgr with launches := mgr.launches ++ [{ bot := b }] }).wake
        (.bot ⟨m, (f.manager m).launches.length⟩)).view m =
      ((f.view m).modify fun mgr =>
        { mgr with launches := mgr.launches ++ [{ bot := b }] }).wake
          (.bot ⟨m, (f.view m).mgr.launches.length⟩) := by
    rw [view_wake_of_concerns (by simp [Task.concerns]), view_modifyManager has]
    rfl
  unfold launchBot
  rw [if_neg isOpen]
  dsimp only
  have asked : ((f.modifyManager m fun mgr =>
      { mgr with launches := mgr.launches ++ [{ bot := b }] }).wake
        (.bot ⟨m, (f.manager m).launches.length⟩)).askName b = f.askName b := rfl
  rw [asked, askName]
  cases f.panicOf? b .name with
  | some text => exact first
  | none =>
      dsimp only
      have registered (x : Manager) : (x.modifyLaunch (f.manager m).launches.length fun l =>
        { l with registered := true }).core = x.core.modifyLaunch _ _ := rfl
      rw [view_modify (by simpa using has) _ registered, view_publish (by simpa using has),
        view_say, first]
      exact View.register_launch (f.view m) m b

/-- A bot that is launched while the manager runs was asked its name just before. -/
theorem leads_launchBot (licensed : L.enrols m)
    (launching : f.Has m → (f.view m).mgr.phase = .starting ∨
      (f.view m).mgr.phase = .running ∧ f.panicOf? b .name = none)
    (span : Option Span) : Leads L f (f.launchBot m b span).1 := by
  refine (steady_launchBot f m b span).leads fun ready m' has => ?_
  by_cases eq : m = m'
  · subst eq
    cases isClosed : (f.view m).mgr.closed with
    | true =>
        rw [view_launchBot_closed has isClosed]
        exact .single (.launchLate licensed ((launching has).imp_right And.left) isClosed)
    | false =>
        rw [view_launchBot_open has isClosed]
        refine .single (.launch licensed ((launching has).imp_right And.left) isClosed
          fun mute => ?_)
        obtain ⟨text, panicked⟩ := Option.ne_none_iff_exists'.mp
          (fun none => by simp [none] at mute : f.panicOf? b .name ≠ none)
        refine ⟨ready.panics_of panicked, (launching has).resolve_right fun running => ?_⟩
        cases panicked.symm.trans running.2
  · rw [view_launchBot_ne eq]

theorem phase_launchBot (has : f.Has m) (b : Nat) (span : Option Span) :
    ((f.launchBot m b span).1.view m).mgr.phase = (f.view m).mgr.phase := by
  cases isClosed : (f.view m).mgr.closed with
  | true =>
      rw [view_launchBot_closed has isClosed]
      rfl
  | false =>
      rw [view_launchBot_open has isClosed]
      unfold View.launch
      dsimp only
      split <;> simp [View.publish, View.modify]

theorem leads_launchBots (licensed : L.enrols m)
    (launching : f.Has m → (f.view m).mgr.phase = .starting) (span : Option Span)
    (bots : List Nat) : Leads L f (f.launchBots m span bots).1 := by
  induction bots generalizing f with
  | nil => exact .refl L f
  | cons b rest ih =>
      have first : Leads L f (f.launchBot m b span).1 :=
        leads_launchBot licensed (fun has => Or.inl (launching has)) span
      have phase := fun has : f.Has m => phase_launchBot has b span
      have steady := steady_launchBot f m b span
      rw [launchBots]
      rcases eq : f.launchBot m b span with ⟨f', _ | halt⟩
      · rw [eq] at first phase steady
        refine first.trans (ih fun has => ?_)
        have had := (steady.has m).mp has
        exact (phase had).trans (launching had)
      · rw [eq] at first
        exact first

/-- A launch that does not stop half way: the pool is open, and the bot gives its name. -/
theorem view_launchBot (has : f.Has m) (b : Nat) (span : Option Span)
    (succeeded : (f.launchBot m b span).2 = none) :
    (f.launchBot m b span).1.view m = (f.view m).launch m b true := by
  cases isClosed : (f.view m).mgr.closed with
  | true =>
      have isClosed : (f.manager m).closed = true := isClosed
      unfold launchBot at succeeded
      rw [if_pos isClosed] at succeeded
      cases succeeded
  | false =>
      have isOpen : ¬ (f.manager m).closed = true := ne_true_of_eq_false isClosed
      rw [view_launchBot_open has isClosed]
      cases panicked : f.panicOf? b .name with
      | none => rfl
      | some text =>
          have asked : ((f.modifyManager m fun mgr =>
              { mgr with launches := mgr.launches ++ [{ bot := b }] }).wake
                (.bot ⟨m, (f.manager m).launches.length⟩)).askName b = .error text := by
            show f.askName b = _
            unfold askName
            rw [panicked]
          unfold launchBot at succeeded
          rw [if_neg isOpen] at succeeded
          dsimp only at succeeded
          rw [asked] at succeeded
          cases succeeded

theorem view_launchBots (has : f.Has m) (span : Option Span) (bots : List Nat)
    (succeeded : (f.launchBots m span bots).2 = none) :
    (f.launchBots m span bots).1.view m =
      bots.foldl (fun v b => v.launch m b true) (f.view m) := by
  induction bots generalizing f with
  | nil => rfl
  | cons b rest ih =>
      have launched := view_launchBot has b span
      have steady := steady_launchBot f m b span
      rw [launchBots] at succeeded ⊢
      rcases eq : f.launchBot m b span with ⟨g, _ | halt⟩
      · rw [eq] at launched succeeded steady
        rw [List.foldl_cons, ← launched rfl]
        exact ih ((steady.has m).mpr has) succeeded
      · rw [eq] at succeeded
        cases succeeded

theorem phase_launchBots (has : f.Has m) (span : Option Span) (bots : List Nat) :
    ((f.launchBots m span bots).1.view m).mgr.phase = (f.view m).mgr.phase := by
  induction bots generalizing f with
  | nil => rfl
  | cons b rest ih =>
      have phase := phase_launchBot has b span
      have steady := steady_launchBot f m b span
      rw [launchBots]
      rcases eq : f.launchBot m b span with ⟨g, _ | halt⟩
      · rw [eq] at phase steady
        exact (ih ((steady.has m).mpr has)).trans phase
      · rw [eq] at phase
        exact phase

/-! ## Registering and starting -/

theorem view_publish_modify (has : f.Has m) (g : Manager → Manager) (e : Event)
    (same : ∀ x, (g x).core = g x.core) :
    ((f.modifyManager m g).publish m e).view m = ((f.view m).modify g).publish e := by
  rw [view_publish (by simpa using has), view_modify has g same]

theorem view_publish_modify_ne (ne : m' ≠ m) (g : Manager → Manager) (e : Event) :
    ((f.modifyManager m' g).publish m' e).view m = f.view m := by
  rw [view_publish_ne ne, view_modifyManager_ne ne]

/-- A manager changes and publishes the change. -/
theorem leads_publish_modify {e : Event} {g : Manager → Manager}
    (same : ∀ x, (g x).core = g x.core)
    (step : f.Has m → Step L m (f.view m) (((f.view m).modify g).publish e))
    (kept : (g (f.manager m)).subscribers = f.subscribers m) :
    Leads L f ((f.modifyManager m g).publish m e) := by
  have steady := (steady_modifyManager f m g kept).trans (steady_publish _ m e)
  refine steady.leads fun ready m' has => ?_
  by_cases eq : m = m'
  · subst eq
    rw [view_publish_modify has g e same]
    exact .single (step has)
  · rw [view_publish_modify_ne eq]

theorem panicOf?_of_askName {b : Nat} {name : String} (answered : f.askName b = .ok name) :
    f.panicOf? b .name = none ∧ name = (f.view m).nameOf b := by
  unfold askName at answered
  split at answered
  · cases answered
  · exact ⟨by assumption, (Except.ok.inj answered).symm⟩

theorem leads_add (licensed : L.enrols m) (f : Fleet) (b : Nat) (span : Option Span) :
    Leads L f (f.add m b span).1 := by
  unfold add
  split
  · rename_i isNew
    split
    · exact .refl L f
    · rename_i name answered
      obtain ⟨-, rfl⟩ := panicOf?_of_askName (m := m) answered
      refine (leads_say L f _ _ _ _).trans (leads_publish_modify (fun _ => rfl)
        (fun has => ?_) (by rfl))
      exact .enqueue licensed isNew
  · rename_i isRunning
    split
    · exact .refl L f
    · rename_i name answered
      have said := leads_say L f .debug "already running; launching bot now"
        [("name", .text name)] span
      have answers := (panicOf?_of_askName (m := m) answered).1
      exact said.trans (leads_launchBot (f := f.say _ _ _ _) licensed
        (fun _ => Or.inr ⟨isRunning, answers⟩) span)
  · exact .refl L f

/-- A manager that was not started begins to launch the bots registered so far. -/
def begun (f : Fleet) (m : Nat) : Fleet :=
  ((f.modifyManager m fun mgr => { mgr with phase := .starting }).publish m
    (.stateChanged .starting)).modifyManager m fun mgr => { mgr with queue := [] }

theorem view_begun (has : f.Has m) :
    (f.begun m).view m = (((f.view m).modify fun mgr => { mgr with phase := .starting }).publish
      (.stateChanged .starting)).modify fun mgr => { mgr with queue := [] } := by
  unfold begun
  rw [view_modify (by simpa using has) (fun mgr => { mgr with queue := [] }) fun _ => rfl,
    view_publish_modify has (fun mgr => { mgr with phase := .starting }) _ fun _ => rfl]

theorem steady_begun (f : Fleet) (m : Nat) : Steady f (f.begun m) :=
  ((steady_modifyManager f m _ (by rfl)).trans (steady_publish _ m _)).trans
    (steady_modifyManager _ m _ (by rfl))

theorem leads_begun (licensed : L.enrols m) (isNew : (f.manager m).phase = .new) :
    Leads L f (f.begun m) := by
  refine (steady_begun f m).leads fun _ m' has => ?_
  by_cases eq : m = m'
  · subst eq
    exact view_begun has ▸ .single (.begin licensed isNew)
  · unfold begun
    rw [view_modifyManager_ne eq, view_publish_modify_ne eq]

theorem leads_advance_running (licensed : L.enrols m) (f : Fleet) (op : String)
    (named : f.Ready L → f.Has m → ∀ id l, (f.view m).launch? id = some l → l.registered = true) :
    Leads L f (f.advance m op .starting .running).1 := by
  unfold advance
  dsimp only
  split
  · rename_i isStarting
    refine .of_ready fun ready => leads_publish_modify (fun _ => rfl) (fun has => ?_) (by rfl)
    exact .run licensed isStarting (named ready has)
  · exact .refl L f

theorem start_of_new (isNew : (f.manager m).phase = .new) (span : Option Span) :
    ∃ queued, (f.Has m → queued = (f.manager m).queue) ∧ f.start m span =
      match (f.begun m).launchBots m span queued with
      | (f, some halt) => (f, some halt)
      | (f, none) =>
        match f.advance m "start" .starting .running with
        | (f, some halt) => (f, some halt)
        | (f, none) =>
          (f.say .info "manager started" [f.numberField m, ("bots", .number queued.length)] span,
            none) := by
  unfold start
  rw [advance]
  dsimp only
  rw [if_pos isNew]
  refine ⟨_, fun has => ?_, rfl⟩
  have advanced := view_publish_modify has (fun mgr => { mgr with phase := .starting })
    (.stateChanged .starting) fun _ => rfl
  exact congrArg (·.mgr.queue) advanced

theorem start_of_not_new (old : (f.manager m).phase ≠ .new) (span : Option Span) :
    f.start m span = (f, some (.refused (.illegalState "start" (f.manager m).phase))) := by
  unfold start
  rw [advance]
  dsimp only
  rw [if_neg old]

theorem leads_start (licensed : L.enrols m) (f : Fleet) (span : Option Span) :
    Leads L f (f.start m span).1 := by
  by_cases isNew : (f.manager m).phase = .new
  · obtain ⟨queued, -, started⟩ := start_of_new isNew span
    have begun := leads_begun licensed isNew
    have launched : Leads L (f.begun m) ((f.begun m).launchBots m span queued).1 := by
      refine leads_launchBots licensed (fun has => ?_) span queued
      rw [view_begun (((steady_begun f m).has m).mp has)]
      rfl
    have view (has : (f.begun m).Has m) := view_launchBots has span queued
    rw [started]
    generalize (f.begun m).launchBots m span queued = result at launched view ⊢
    rcases result with ⟨g, _ | halt⟩
    · -- A manager that was not started launched nobody, so all that are launched now were named.
      have named (ready : f.Ready L) (has : g.Has m) (id : Nat) (l : Launch)
          (found : (g.view m).launch? id = some l) : l.registered = true := by
        have before := (begun.trans launched).has ready m
        have has := before.mp has
        rw [View.launch?, view ((begun.has ready m).mpr has) rfl, View.launches_foldl,
          view_begun has] at found
        rw [show ((((f.view m).modify fun mgr => { mgr with phase := .starting }).publish
          (.stateChanged .starting)).modify fun mgr => { mgr with queue := [] }).mgr.launches = []
            from ready.unlaunched m has isNew, List.nil_append] at found
        obtain ⟨b, -, rfl⟩ := List.mem_map.mp (List.mem_of_getElem? found)
        rfl
      refine .of_ready fun ready => ?_
      have running := leads_advance_running licensed g "start" fun _ => named ready
      dsimp only at launched ⊢
      generalize g.advance m "start" .starting .running = result at running ⊢
      rcases result with ⟨g', _ | halt⟩
      · exact ((begun.trans launched).trans running).trans (leads_say L _ _ _ _ _)
      · exact (begun.trans launched).trans running
    · exact begun.trans launched
  · rw [start_of_not_new isNew]
    exact .refl L f

end Fleet

end Flotilla
