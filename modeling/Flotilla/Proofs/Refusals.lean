import Flotilla.Proofs.Awaiting
import Flotilla.Proofs.Registrations
import Flotilla.Proofs.Timers

/-!
# Calls that a manager refuses

Three operations move a manager through its phases, and each is allowed in certain phases only.
One that is not allowed is refused with its name and the phase, before anything is done
(`Fleet.operate_of_refused`). One that is allowed returns, unless a bot panics at a question that
it asks (`Fleet.operate_of_allowed`).

Whoever waits for a manager begins with one of these operations, and so does whoever gets a
signal; a refusal is then the end of the waiting, and nothing was done by it but that the signal
was announced (`Fleet.waiter_refused`). As phases only go forward, a manager is started and stopped
at most once in a run, and one that is done refuses everything from then on
(`Fleet.refuses_exactly`).
-/

namespace Flotilla

/-! ## Operations -/

/-- What a manager allows in certain phases only. -/
inductive Operation where
  | add (bot : Nat)
  | start
  | stop

namespace Operation

/-- The name of an operation in errors. -/
def name : Operation → String
  | .add _ => "add_bot"
  | .start => "start"
  | .stop => "stop"

/-- Whether an operation is allowed in a phase. -/
def isAllowed : Operation → Phase → Bool
  | .add _, phase => phase = .new || phase = .running
  | .start, phase => phase = .new
  | .stop, phase => phase = .running

/-- The call of an operation. -/
def call (m : Nat) : Operation → Call
  | .add b => .add m b
  | .start => .start m
  | .stop => .stop m

end Operation

/-! ## What a refusal leaves as it is -/

/-- A relay whose task is not left waiting for something to read. -/
def Relay.roused (r : Relay) : Relay :=
  if r.listening = .idle then { r with listening := .reading } else r

/-- A manager whose relay is not left waiting for something to read. -/
def Manager.roused (mgr : Manager) : Manager := mgr.modifyRelay Relay.roused

/-- How a waiter stands that was not turned away: it waits, or its waiting was over at once, but
not because the manager refused what it asked for. If a panic ended it, it is one of these. -/
inductive WaitStage.Proceeds (panics : String → Prop) : WaitStage → Prop
  | listens : Proceeds panics .listening
  | polls (due : Nat) : Proceeds panics (.polling due)
  | ends : Proceeds panics (.over .ok)
  | givesUp : Proceeds panics (.over (.halted (.refused .interrupted)))
  | panics {text : String} (panicked : panics text) :
    Proceeds panics (.over (.halted (.panicked text)))

theorem WaitStage.Proceeds.imp {panics panics' : String → Prop} {stage : WaitStage}
    (goes : stage.Proceeds panics) (imp : ∀ text, panics text → panics' text) :
    stage.Proceeds panics' := by
  cases goes with
  | listens => exact .listens
  | polls due => exact .polls due
  | ends => exact .ends
  | givesUp => exact .givesUp
  | panics panicked => exact .panics (imp _ panicked)

/-- What a waiter asks of its manager at its turn, and what it announces before. -/
def Wait.request? (wt : Wait) : Option (Operation × List Event) :=
  match wt.stage, wt.purpose with
  | .submitted, .stop => some (.stop, [])
  | .submitted, .untilSignal => some (.start, [])
  | .signalled _, _ => some (.stop, [.shutdownRequested])
  | _, _ => none

/-- Nothing is different about the bots and the managers, but that these events were published
on the bus of one manager and that the tasks that read the buses may be awake. -/
structure Fleet.OnlyTold (f : Fleet) (m : Nat) (es : List Event) (g : Fleet) : Prop where
  managers : g.managers.map Manager.roused =
    (f.managers.modify m fun mgr => { mgr with bus := es.foldl Bus.publish mgr.bus }).map
      Manager.roused
  bots : g.bots = f.bots
  dismissal : g.dismissal = f.dismissal
  clock : g.clock = f.clock
  notes : g.notes = f.notes

namespace Fleet

variable {f g : Fleet} {m b w : Nat} {span : Option Span} {mv : Move} {op : Operation}

/-- Carries out an operation. -/
def operate (f : Fleet) (m : Nat) (span : Option Span) : Operation → Fleet × Option Halt
  | .add b => f.add m b span
  | .start => f.start m span
  | .stop => f.stop m span

theorem perform_operation (held : f.isHeld m = true) (op : Operation) (span : Option Span) :
    f.perform span (op.call m) =
      ((f.operate m span op).1, .ofHalt (f.operate m span op).2) := by
  cases op with
  | add b => exact perform_add held b span
  | start => exact perform_start held span
  | stop =>
      unfold perform
      simp [Operation.call, operate, callee?, held]

/-- An operation that is not allowed is refused, and nothing is changed. -/
theorem operate_of_refused (refused : op.isAllowed (f.manager m).phase = false)
    (span : Option Span) :
    f.operate m span op =
      (f, some (.refused (.illegalState op.name (f.manager m).phase))) := by
  cases op with
  | add b =>
      unfold operate add
      cases phase : (f.manager m).phase with
      | new | running =>
          rw [phase] at refused
          cases refused
      | starting | stopping | terminated => rfl
  | start => exact start_of_not_new (of_decide_eq_false refused) span
  | stop => exact stop_of_not_running (of_decide_eq_false refused) span

/-! ## Questions to bots -/

/-- What the bot of a registered launch is asked when its manager is stopped. -/
def quitQuestions (f : Fleet) (x : Nat × Launch) : List (Nat × Method) :=
  (if x.2.admitted then [] else [(x.2.bot, .isConnected)]) ++
    if f.isAsked x then [(x.2.bot, .quit), (x.2.bot, .name)] else []

/-- What an operation that is allowed asks of which bots. -/
def questions (f : Fleet) (m : Nat) : Operation → List (Nat × Method)
  | .add b => [(b, .name)]
  | .start => (f.manager m).queue.map fun b => (b, .name)
  | .stop => (f.manager m).registry.flatMap f.quitQuestions

/-- The questions of a waiter that reports which bots it waits for. -/
def reportQuestions (f : Fleet) (m : Nat) : List (Nat × Method) :=
  (f.manager m).registry.map fun x => (x.2.bot, .name)

/-- What a waiter that asks for an operation asks of which bots at its turn: one that stops its
manager goes on to report. -/
def turnQuestions (f : Fleet) (m : Nat) (op : Operation) : List (Nat × Method) :=
  f.questions m op ++ match op with
    | .stop => f.reportQuestions m
    | .add _ | .start => []

/-- One of these questions makes a bot panic with a text. -/
def PanicsAt (f : Fleet) (asked : List (Nat × Method)) (text : String) : Prop :=
  ∃ q ∈ asked, f.panicOf? q.1 q.2 = some text

theorem PanicsAt.mono {asked asked' : List (Nat × Method)} {text : String}
    (panics : f.PanicsAt asked text) (sub : asked ⊆ asked') : f.PanicsAt asked' text := by
  obtain ⟨q, mem, panicked⟩ := panics
  exact ⟨q, sub mem, panicked⟩

theorem PanicsAt.of_steady {asked : List (Nat × Method)} {text : String}
    (panics : g.PanicsAt asked text) (steady : Steady f g) : f.PanicsAt asked text := by
  obtain ⟨q, mem, panicked⟩ := panics
  rw [panicOf?_steady steady] at panicked
  exact ⟨q, mem, panicked⟩

theorem PanicsAt.of_bots {asked : List (Nat × Method)} {text : String}
    (panics : g.PanicsAt asked text) (same : g.bots = f.bots) : f.PanicsAt asked text := by
  obtain ⟨q, mem, panicked⟩ := panics
  unfold panicOf? bot at panicked
  rw [same] at panicked
  exact ⟨q, mem, panicked⟩

theorem askName_eq_error_iff {text : String} :
    f.askName b = .error text ↔ f.panicOf? b .name = some text := by
  unfold askName
  cases f.panicOf? b .name <;> simp

/-- A launch into a pool that is open stops half way only if the bot does not give its name. -/
theorem halt_launchBot (isOpen : (f.manager m).closed = false) {halt : Halt}
    (halted : (f.launchBot m b span).2 = some halt) :
    ∃ text, halt = .panicked text ∧ f.PanicsAt [(b, .name)] text := by
  cases panicked : f.panicOf? b .name with
  | none =>
      rw [launchBot_of_open isOpen panicked] at halted
      cases halted
  | some text =>
      refine ⟨text, ?_, _, List.mem_singleton_self _, panicked⟩
      have asked : ((f.modifyManager m fun mgr =>
          { mgr with launches := mgr.launches ++ [{ bot := b }] }).wake
            (.bot ⟨m, (f.manager m).launches.length⟩)).askName b = .error text :=
        askName_eq_error_iff.mpr panicked
      unfold launchBot at halted
      rw [if_neg (ne_true_of_eq_false isOpen)] at halted
      dsimp only at halted
      rw [asked] at halted
      exact (Option.some.inj halted).symm

theorem closed_launchBot (has : f.Has m) (isOpen : (f.manager m).closed = false) (b : Nat)
    (span : Option Span) : ((f.launchBot m b span).1.manager m).closed = false := by
  show ((f.launchBot m b span).1.view m).mgr.closed = false
  rw [view_launchBot_open has isOpen, View.launch_mgr]
  exact isOpen

theorem mem_bots_launchBot (has : f.Has m) (isOpen : (f.manager m).closed = false) (b : Nat)
    (span : Option Span) : b ∈ ((f.launchBot m b span).1.manager m).bots := by
  show b ∈ ((f.launchBot m b span).1.view m).mgr.bots
  rw [view_launchBot_open has isOpen, View.launch_mgr]
  simp [Manager.bots]

/-- The bot that does not give its name has been launched when it is asked. -/
theorem halt_launchBots {queued : List Nat} (has : f.Has m)
    (isOpen : (f.manager m).closed = false) {halt : Halt}
    (halted : (f.launchBots m span queued).2 = some halt) :
    ∃ text, halt = .panicked text ∧ ∃ b ∈ queued, f.panicOf? b .name = some text ∧
      b ∈ ((f.launchBots m span queued).1.manager m).bots := by
  induction queued generalizing f with
  | nil => cases halted
  | cons b rest ih =>
      have here (halted : (f.launchBot m b span).2 = some halt) := halt_launchBot isOpen halted
      have steady := steady_launchBot f m b span
      have closed := closed_launchBot has isOpen b span
      have launched := mem_bots_launchBot has isOpen b span
      rw [launchBots] at halted ⊢
      rcases launch : f.launchBot m b span with ⟨g, _ | first⟩
      · rw [launch] at halted steady closed
        obtain ⟨text, eq, b', mem, panicked, launched'⟩ := ih ((steady.has m).mpr has) closed halted
        rw [panicOf?_steady steady] at panicked
        exact ⟨text, eq, b', List.mem_cons_of_mem b mem, panicked, launched'⟩
      · rw [launch] at halted here launched
        obtain ⟨text, eq, q, mem, panicked⟩ := here halted
        cases List.mem_singleton.mp mem
        exact ⟨text, eq, b, List.mem_cons_self, panicked, launched⟩

theorem halt_add (isOpen : (f.manager m).closed = false)
    (allowed : (Operation.add b).isAllowed (f.manager m).phase = true) {halt : Halt}
    (halted : (f.add m b span).2 = some halt) :
    ∃ text, halt = .panicked text ∧ f.PanicsAt [(b, .name)] text := by
  unfold add at halted
  split at halted
  · split at halted
    · rename_i text panicked
      exact ⟨text, (Option.some.inj halted).symm, _, List.mem_singleton_self _,
        askName_eq_error_iff.mp panicked⟩
    · cases halted
  · split at halted
    · rename_i text panicked
      exact ⟨text, (Option.some.inj halted).symm, _, List.mem_singleton_self _,
        askName_eq_error_iff.mp panicked⟩
    · exact halt_launchBot (f := f.say _ _ _ _) isOpen halted
  · rename_i notNew notRunning
    unfold Operation.isAllowed at allowed
    rcases Bool.or_eq_true_iff.mp allowed with isNew | isRunning
    · exact (notNew (of_decide_eq_true isNew)).elim
    · exact (notRunning (of_decide_eq_true isRunning)).elim

theorem halt_start (has : f.Has m) (isOpen : (f.manager m).closed = false)
    (isNew : (f.manager m).phase = .new) {halt : Halt}
    (halted : (f.start m span).2 = some halt) :
    ∃ text, halt = .panicked text ∧ ∃ b ∈ (f.manager m).queue, f.panicOf? b .name = some text ∧
      b ∈ ((f.start m span).1.manager m).bots := by
  obtain ⟨queued, eq, started⟩ := start_of_new isNew span
  cases eq has
  have steady := steady_begun f m
  have has' : (f.begun m).Has m := (steady.has m).mpr has
  have isOpen' : ((f.begun m).manager m).closed = false := by
    show ((f.begun m).view m).mgr.closed = false
    rw [view_begun has]
    exact isOpen
  have launched (halted : ((f.begun m).launchBots m span (f.manager m).queue).2 = some halt) :=
    halt_launchBots has' isOpen' halted
  have phase : (((f.begun m).launchBots m span (f.manager m).queue).1.manager m).phase =
      .starting := by
    refine (phase_launchBots has' span (f.manager m).queue).trans ?_
    rw [view_begun has]
    rfl
  rw [started] at halted ⊢
  rcases result : (f.begun m).launchBots m span (f.manager m).queue with ⟨g, _ | first⟩
  · rw [result] at halted phase
    unfold advance at halted
    dsimp only at halted
    rw [if_pos phase] at halted
    cases halted
  · rw [result] at halted launched
    obtain ⟨text, eq, b, mem, panicked, launched⟩ := launched halted
    rw [panicOf?_steady steady] at panicked
    exact ⟨text, eq, b, mem, panicked, launched⟩

/-! ## Questions at a stop -/

theorem quitQuestions_of_isAsked (same : g.isAsked = f.isAsked) :
    g.quitQuestions = f.quitQuestions := by
  funext x
  unfold quitQuestions
  rw [same]

theorem panics_of_isLive {x : Nat × Launch} {text : String} (failed : f.isLive x.2 = .error text) :
    f.PanicsAt (f.quitQuestions x) text := by
  unfold isLive at failed
  cases admitted : x.2.admitted with
  | true =>
      rw [if_pos admitted] at failed
      cases failed
  | false =>
      rw [if_neg (ne_true_of_eq_false admitted)] at failed
      refine ⟨(x.2.bot, .isConnected), by simp [quitQuestions, admitted], ?_⟩
      cases panicked : f.panicOf? x.2.bot .isConnected with
      | none =>
          rw [panicked] at failed
          cases failed
      | some text' =>
          rw [panicked] at failed
          cases failed
          rfl

theorem panicOf?_of_quitBot {text : String} (failed : (f.quitBot b).2 = some text) :
    f.panicOf? b .quit = some text := by
  unfold quitBot at failed
  split at failed
  · rename_i text' panicked
    rw [panicked]
    exact failed
  · dsimp only at failed
    split at failed <;> cases failed

theorem panics_quitLive {regs : List (Nat × Launch)} {text : String}
    (failed : (f.quitLive regs).2 = .error text) :
    f.PanicsAt (regs.flatMap f.quitQuestions) text := by
  induction regs generalizing f with
  | nil => cases failed
  | cons x rest ih =>
      have here (panics : f.PanicsAt (f.quitQuestions x) text) :
          f.PanicsAt ((x :: rest).flatMap f.quitQuestions) text :=
        panics.mono (by simp)
      have later (panics : f.PanicsAt (rest.flatMap f.quitQuestions) text) :
          f.PanicsAt ((x :: rest).flatMap f.quitQuestions) text :=
        panics.mono (by simp)
      obtain ⟨id, l⟩ := x
      rw [quitLive] at failed
      cases live : f.isLive l with
      | error text' =>
          rw [live] at failed
          cases failed
          exact here (panics_of_isLive (x := (id, l)) live)
      | ok asked =>
          have asks := isAsked_of_isLive live id
          rw [live] at failed
          cases asked with
          | false => exact later (ih failed)
          | true =>
              have steady := steady_quitBot f l.bot
              have same := quitQuestions_of_isAsked (isAsked_quitBot f l.bot)
              have panics (failed : (f.quitBot l.bot).2 = some text) := panicOf?_of_quitBot failed
              dsimp only at failed
              rcases quits : f.quitBot l.bot with ⟨g, _ | text'⟩
              · rw [quits] at failed steady same
                have goesOn : (g.quitLive rest).2 = .error text := by
                  dsimp only at failed
                  generalize g.quitLive rest = result at failed
                  rcases result with ⟨g', text' | hs⟩
                  · exact failed
                  · cases failed
                have found := (ih goesOn).of_steady steady
                rw [same] at found
                exact later found
              · rw [quits] at failed panics
                cases failed
                exact here ⟨(l.bot, .quit), by simp [quitQuestions, ← asks], panics rfl⟩

theorem panics_announceQuits {hs : List Handle} {text : String}
    (failed : (f.announceQuits m span hs).2 = some text) :
    ∃ h ∈ hs, f.panicOf? h.bot .name = some text := by
  induction hs generalizing f with
  | nil => cases failed
  | cons h rest ih =>
      rw [announceQuits] at failed
      cases answer : f.askName h.bot with
      | error text' =>
          rw [answer] at failed
          cases failed
          exact ⟨h, List.mem_cons_self, askName_eq_error_iff.mp answer⟩
      | ok name =>
          rw [answer] at failed
          obtain ⟨h', mem, panicked⟩ := ih failed
          refine ⟨h', List.mem_cons_of_mem _ mem, ?_⟩
          rw [← panicked]
          exact (panicOf?_steady ((steady_say f _ _ _ _).trans (steady_publish _ m _)) _ _).symm

theorem halt_stop (has : f.Has m) (isRunning : (f.manager m).phase = .running) {halt : Halt}
    (halted : (f.stop m span).2 = some halt) :
    ∃ text, halt = .panicked text ∧ f.PanicsAt (f.questions m .stop) text := by
  obtain ⟨level, message, fields, eq⟩ := stop_eq isRunning span
  obtain ⟨asked, asking⟩ := quitLive_asking (f.closing m) ((f.closing m).manager m).walked
  have steady := steady_closing f m
  have perm := (f.manager m).walked_perm
  have asks := isAsked_of_bots (bots_closing f m)
  have quitting := steady.trans (steady_quitAll (f.closing m) (asked.map fun x => x.2.bot))
  rw [walked_closing has] at asking eq
  rw [← asking.fleet] at quitting
  rw [eq] at halted
  rcases result : (f.closing m).quitLive (f.manager m).walked with ⟨g, text | hs⟩
  · rw [result] at halted
    refine ⟨text, (Option.some.inj halted).symm, ?_⟩
    have panics := panics_quitLive (show (Fleet.quitLive _ _).2 = .error text from
      congrArg Prod.snd result)
    rw [quitQuestions_of_isAsked asks] at panics
    exact (panics.of_steady steady).mono (perm.flatMap_right _).subset
  · rw [result] at halted asking quitting
    obtain ⟨rfl, rfl, -⟩ := asking.answered hs rfl
    dsimp only at halted quitting
    rcases announced : g.announceQuits m span (sortBy Handle.id (((f.manager m).walked.filter
      (f.closing m).isAsked).map fun x => ⟨x.1, x.2.bot⟩)) with ⟨g', _ | text⟩
    · rw [announced] at halted
      cases halted
    · rw [announced] at halted
      obtain ⟨h, mem, panicked⟩ := panics_announceQuits (congrArg Prod.snd announced)
      obtain ⟨x, inside, rfl⟩ := List.mem_map.mp ((sortBy_perm Handle.id _).subset mem)
      obtain ⟨registered, live⟩ := List.mem_filter.mp inside
      rw [asks] at live
      refine ⟨text, (Option.some.inj halted).symm, (x.2.bot, .name),
        List.mem_flatMap.mpr ⟨x, perm.subset registered, ?_⟩, ?_⟩
      · simp [quitQuestions, live]
      · rw [← panicOf?_steady quitting]
        exact panicked

/-- An operation that is allowed returns, or ends by the panic of a bot that it asked. -/
theorem operate_of_allowed (has : f.Has m) (orderly : (f.view m).Orderly)
    (allowed : op.isAllowed (f.manager m).phase = true) (span : Option Span) :
    (f.operate m span op).2 = none ∨
      ∃ text, (f.operate m span op).2 = some (.panicked text) ∧
        f.PanicsAt (f.questions m op) text := by
  cases halted : (f.operate m span op).2 with
  | none => exact Or.inl rfl
  | some halt =>
      obtain ⟨text, rfl, panics⟩ : ∃ text, halt = .panicked text ∧
          f.PanicsAt (f.questions m op) text := by
        cases op with
        | add b =>
            have goesOn := (Bool.or_eq_true_iff.mp allowed).imp of_decide_eq_true of_decide_eq_true
            exact halt_add (orderly.isOpen goesOn) allowed halted
        | start =>
            have isNew := of_decide_eq_true allowed
            obtain ⟨text, eq, b, queued, panicked, -⟩ :=
              halt_start has (orderly.isOpen (Or.inl isNew)) isNew halted
            exact ⟨text, eq, _, List.mem_map_of_mem queued, panicked⟩
        | stop => exact halt_stop has (of_decide_eq_true allowed) halted
      exact Or.inr ⟨text, rfl, panics⟩

/-! ## Waiters -/

theorem roused_wakeListener (f : Fleet) (m : Nat) :
    (f.wakeListener m).managers.map Manager.roused = f.managers.map Manager.roused := by
  unfold wakeListener
  split
  · rename_i idle
    refine map_modify_of_same f.managers m fun mgr found => ?_
    have here : f.manager m = mgr := by
      rw [manager, List.getD_eq_getElem?_getD, found]
      rfl
    rw [here] at idle
    unfold Manager.listenerIsIdle at idle
    unfold Manager.roused Manager.modifyRelay
    cases relay : mgr.relay with
    | none =>
        rw [relay] at idle
        cases idle
    | some r =>
        rw [relay] at idle
        have waits : r.listening = .idle := eq_of_beq idle
        simp [Relay.roused, waits]
  · rfl

theorem onlyTold_refl (f : Fleet) (m : Nat) : f.OnlyTold m [] f :=
  ⟨(map_modify_of_same f.managers m fun _ _ => rfl).symm, rfl, rfl, rfl, rfl⟩

theorem onlyTold_heeded (f : Fleet) (m : Nat) (s : Signal) :
    f.OnlyTold m [.shutdownRequested] (f.heeded m s) := by
  refine ⟨roused_wakeListener _ m, bots_publish _ m _, ?_, ?_, ?_⟩ <;>
    (unfold heeded publish wakeListener; dsimp only; split <;> rfl)

theorem OnlyTold.endWait {es : List Event} (told : f.OnlyTold m es g) (w : Nat)
    (result : WaitResult) : f.OnlyTold m es (g.endWait w result) := by
  have roused : (g.endWait w result).managers.map Manager.roused =
      g.managers.map Manager.roused := by
    unfold Fleet.endWait
    dsimp only
    split
    · rfl
    · exact roused_wakeListener _ _
  have rest : (g.endWait w result).bots = g.bots ∧
      (g.endWait w result).dismissal = g.dismissal ∧
        (g.endWait w result).clock = g.clock ∧ (g.endWait w result).notes = g.notes := by
    unfold Fleet.endWait wakeListener
    dsimp only
    split
    · exact ⟨rfl, rfl, rfl, rfl⟩
    · split <;> exact ⟨rfl, rfl, rfl, rfl⟩
  exact ⟨roused.trans told.managers, rest.1.trans told.bots, rest.2.1.trans told.dismissal,
    rest.2.2.1.trans told.clock, rest.2.2.2.trans told.notes⟩

theorem goesOn_of_request {wt : Wait} {es : List Event} (asks : wt.request? = some (op, es)) :
    wt.stage.isOver = false := by
  unfold Wait.request? at asks
  split at asks <;> simp_all [WaitStage.isOver]

/-- At its turn a waiter carries out what it asks for, once it announced its signal. -/
theorem move_request {es : List Event} (sound : f.Sound) (turn : f.tasks.running = some (.wait w))
    (kept : (f.wait w).aborted = false) (asks : (f.wait w).request? = some (op, es)) :
    ∃ g, f.OnlyTold (f.wait w).manager es g ∧ f.SameTimes g ∧
      (g.manager (f.wait w).manager).phase = (f.manager (f.wait w).manager).phase ∧
      (g.manager (f.wait w).manager).registry = (f.manager (f.wait w).manager).registry ∧
      (op = .stop ∧ f.move .turn = g.beginWaiting w ∨
        op = .start ∧ g = f ∧ f.move .turn = g.beginListening w) := by
  cases stage : (f.wait w).stage with
  | submitted =>
      cases purpose : (f.wait w).purpose with
      | stop =>
          rw [Wait.request?, stage, purpose] at asks
          cases asks
          exact ⟨f, onlyTold_refl f _, .refl f, rfl, rfl,
            Or.inl ⟨rfl, move_first turn stage purpose kept⟩⟩
      | untilSignal =>
          rw [Wait.request?, stage, purpose] at asks
          cases asks
          refine ⟨f, onlyTold_refl f _, .refl f, rfl, rfl, Or.inr ⟨rfl, rfl, ?_⟩⟩
          rw [move_turn turn]
          show f.stepWait w = _
          unfold stepWait
          simp [stage, purpose, kept, WaitStage.isOver]
  | signalled s =>
      rw [Wait.request?, stage] at asks
      cases asks
      have same := (StopCall.atSignal turn stage kept).view_eq sound
      refine ⟨f.heeded (f.wait w).manager s, onlyTold_heeded f _ s, sameTimes_heeded f _ s, ?_, ?_,
        Or.inl ⟨rfl, move_signalled turn stage kept⟩⟩
      · rcases same with same | told
        · exact congrArg (·.mgr.phase) same
        · exact congrArg (·.mgr.phase) told
      · rcases same with same | told
        · exact congrArg (·.mgr.registry) same
        · exact congrArg (·.mgr.registry) told
  | listening | polling | «over» =>
      rw [Wait.request?, stage] at asks
      cases asks

/-- A waiter whose request is refused is done, and nothing else was done at its turn but that it
announced its signal. -/
theorem waiter_refused {es : List Event} (sound : f.Sound)
    (turn : f.tasks.running = some (.wait w)) (kept : (f.wait w).aborted = false)
    (asks : (f.wait w).request? = some (op, es))
    (refused : op.isAllowed (f.manager (f.wait w).manager).phase = false) :
    ((f.move .turn).wait w).stage = .over (.halted (.refused
        (.illegalState op.name (f.manager (f.wait w).manager).phase))) ∧
      f.OnlyTold (f.wait w).manager es (f.move .turn) := by
  have goesOn := goesOn_of_request asks
  obtain ⟨g, told, times, phase, -, step⟩ := move_request sound turn kept asks
  have ended : f.move .turn = g.endWait w (.halted (.refused
      (.illegalState op.name (f.manager (f.wait w).manager).phase))) := by
    rw [← phase] at refused ⊢
    have answer := operate_of_refused refused none
    rcases step with ⟨rfl, step⟩ | ⟨rfl, -, step⟩
    · rw [step, beginWaiting, times.wait]
      rw [show g.stop _ none = _ from answer]
    · rw [step, beginListening, times.wait]
      rw [show g.start _ none = _ from answer]
  rw [ended]
  exact ⟨stage_endWait (by rwa [times.wait]) _, told.endWait w _⟩

section Proceeds

variable {panics : String → Prop}

theorem proceeds_lookAround {goOn : Fleet} (goesOn : (f.wait w).stage.isOver = false)
    (goes : (goOn.wait w).stage.Proceeds panics) :
    ((f.lookAround w goOn).wait w).stage.Proceeds panics := by
  unfold lookAround
  split
  · rw [stage_endWait (f := f.say _ _ _ _) goesOn]
    exact .givesUp
  · split
    · rw [stage_endWait goesOn]
      exact .ends
    · exact goes

theorem proceeds_of_waits (goesOn : (f.wait w).stage.isOver = false) {stage : WaitStage}
    (goes : stage.Proceeds panics) (same : g.waits = f.waits.modify w fun wt => { wt with stage }) :
    (g.wait w).stage.Proceeds panics := by
  unfold wait
  rw [same, List.getD_eq_getElem?_getD, List.getElem?_modify_eq, found_of_wait rfl goesOn]
  exact goes

end Proceeds

theorem panics_outstandingLabels {regs : List (Nat × Launch)} {text : String}
    (failed : f.outstandingLabels regs = .error text) :
    f.PanicsAt (regs.map fun x => (x.2.bot, .name)) text := by
  induction regs with
  | nil => cases failed
  | cons x rest ih =>
      obtain ⟨id, l⟩ := x
      rw [outstandingLabels] at failed
      cases named : f.askName l.bot with
      | error text' =>
          rw [named] at failed
          cases failed
          exact ⟨(l.bot, .name), List.mem_cons_self, askName_eq_error_iff.mp named⟩
      | ok name =>
          rw [named] at failed
          dsimp only at failed
          cases later : f.outstandingLabels rest with
          | error text' =>
              rw [later] at failed
              cases failed
              exact (ih later).mono (List.subset_cons_self _ _)
          | ok labels =>
              rw [later] at failed
              cases failed

/-- A report fails only if a registered bot panics when it is asked its name. -/
theorem panics_outstanding {text : String} (failed : f.outstanding m = .error text) :
    f.PanicsAt (f.reportQuestions m) text := by
  unfold outstanding at failed
  cases asked : f.outstandingLabels (f.manager m).walked with
  | error text' =>
      rw [asked] at failed
      cases failed
      exact (panics_outstandingLabels asked).mono ((f.manager m).walked_perm.map _).subset
  | ok labels =>
      rw [asked] at failed
      cases failed

theorem proceeds_pollBots (goesOn : (f.wait w).stage.isOver = false) :
    ((f.pollBots w).wait w).stage.Proceeds
      (f.PanicsAt (f.reportQuestions (f.wait w).manager)) := by
  unfold pollBots
  dsimp only
  split
  · rename_i text failed
    rw [stage_endWait goesOn]
    exact .panics (panics_outstanding failed)
  · rename_i labels _
    have same := waits_reportOutstanding f (f.wait w).manager (f.wait w).poll labels
    generalize f.reportOutstanding (f.wait w).manager (f.wait w).poll labels = g at same ⊢
    have goesOn : (g.wait w).stage.isOver = false := by rwa [wait_of_waits same]
    exact proceeds_lookAround goesOn (proceeds_of_waits goesOn (.polls _) rfl)

/-- What is asked after a stop, which leaves everybody registered, was there to be asked before. -/
theorem PanicsAt.before_stop {text : String}
    (panics : (f.stop m span).1.PanicsAt ((f.stop m span).1.reportQuestions m) text) :
    f.PanicsAt (f.reportQuestions m) text := by
  unfold reportQuestions Manager.registry at panics ⊢
  rw [launches_stop] at panics
  exact panics.of_steady (steady_stop f m span)

/-- A waiter that stops a manager that runs goes on to wait, unless a bot that it asks panics. -/
theorem proceeds_beginWaiting (has : f.Has (f.wait w).manager)
    (isRunning : (f.manager (f.wait w).manager).phase = .running)
    (goesOn : (f.wait w).stage.isOver = false) :
    ((f.beginWaiting w).wait w).stage.Proceeds
      (f.PanicsAt (f.turnQuestions (f.wait w).manager .stop)) := by
  obtain ⟨g, -, halt, eq, -, -, stopped⟩ :=
    (Lockstep.keepsTimes f).stop ⟨rfl, .refl f⟩ (f.wait w).manager none
  have goesOn' : (g.wait w).stage.isOver = false := by rwa [stopped.wait]
  rw [beginWaiting, eq]
  cases halt with
  | none =>
      refine (proceeds_pollBots goesOn').imp fun text panics => ?_
      rw [stopped.wait, show g = (f.stop (f.wait w).manager none).1 from
        (congrArg Prod.fst eq).symm] at panics
      exact panics.before_stop.mono (List.subset_append_right _ _)
  | some halt =>
      obtain ⟨text, rfl, panics⟩ := halt_stop has isRunning (congrArg Prod.snd eq)
      dsimp only
      rw [stage_endWait goesOn']
      exact .panics (panics.mono (List.subset_append_left _ _))

/-- A waiter that starts a manager that is new goes on to listen, unless a bot that it asks
panics. -/
theorem proceeds_beginListening (has : f.Has (f.wait w).manager)
    (orderly : (f.view (f.wait w).manager).Orderly)
    (isNew : (f.manager (f.wait w).manager).phase = .new)
    (goesOn : (f.wait w).stage.isOver = false) :
    ((f.beginListening w).wait w).stage.Proceeds
      (f.PanicsAt (f.turnQuestions (f.wait w).manager .start)) := by
  obtain ⟨g, -, halt, eq, -, -, started⟩ :=
    (Lockstep.keepsTimes f).start ⟨rfl, .refl f⟩ (f.wait w).manager none
  have goesOn' : (g.wait w).stage.isOver = false := by rwa [started.wait]
  rw [beginListening, eq]
  cases halt with
  | none => exact proceeds_of_waits goesOn' .listens rfl
  | some halt =>
      obtain ⟨text, rfl, b, queued, panicked, -⟩ :=
        halt_start has (orderly.isOpen (Or.inl isNew)) isNew (congrArg Prod.snd eq)
      dsimp only
      rw [stage_endWait goesOn']
      have asked : (b, Method.name) ∈ f.questions (f.wait w).manager .start :=
        List.mem_map_of_mem queued
      exact .panics ⟨_, List.mem_append_left _ asked, panicked⟩

/-- A waiter whose request is allowed is not turned away. -/
theorem waiter_allowed {es : List Event} (sound : f.Sound)
    (orderly : (f.view (f.wait w).manager).Orderly)
    (turn : f.tasks.running = some (.wait w)) (kept : (f.wait w).aborted = false)
    (asks : (f.wait w).request? = some (op, es))
    (allowed : op.isAllowed (f.manager (f.wait w).manager).phase = true) :
    ((f.move .turn).wait w).stage.Proceeds
      (f.PanicsAt (f.turnQuestions (f.wait w).manager op)) := by
  have goesOn := goesOn_of_request asks
  have owned : f.Has (f.wait w).manager :=
    sound.owned _ (List.mem_of_getElem? (found_of_wait rfl goesOn))
  obtain ⟨g, told, times, phase, registry, step⟩ := move_request sound turn kept asks
  have goesOn : (g.wait w).stage.isOver = false := by rwa [times.wait]
  rw [← phase] at allowed
  rcases step with ⟨rfl, step⟩ | ⟨rfl, rfl, step⟩
  · have has : g.Has (f.wait w).manager := by
      have same := congrArg List.length told.managers
      simp only [List.length_map, List.length_modify] at same
      unfold Has at owned ⊢
      rwa [same]
    -- The signal was announced before, which changes nothing of what is asked.
    have asked : g.turnQuestions (f.wait w).manager .stop =
        f.turnQuestions (f.wait w).manager .stop := by
      unfold turnQuestions questions reportQuestions
      dsimp only
      rw [registry, quitQuestions_of_isAsked (isAsked_of_bots told.bots)]
    rw [← times.wait] at allowed has
    have goes := proceeds_beginWaiting has (of_decide_eq_true allowed) goesOn
    rw [times.wait, asked] at goes
    rw [step]
    exact goes.imp fun text panics => panics.of_bots told.bots
  · rw [step]
    exact proceeds_beginListening owned orderly (of_decide_eq_true allowed) goesOn

/-- A waiter that asks for nothing at its turn is not turned away. -/
theorem waiter_goesOn (turn : f.tasks.running = some (.wait w))
    (goesOn : (f.wait w).stage.isOver = false) (kept : (f.wait w).aborted = false)
    (asks : (f.wait w).request? = none) :
    ((f.move .turn).wait w).stage.Proceeds
      (f.PanicsAt (f.reportQuestions (f.wait w).manager)) := by
  rw [move_turn turn]
  show ((f.stepWait w).wait w).stage.Proceeds _
  cases stage : (f.wait w).stage with
  | listening =>
      have rests : f.stepWait w = f.park := by
        unfold stepWait
        simp [stage, kept, WaitStage.isOver]
      rw [rests]
      show (f.wait w).stage.Proceeds _
      rw [stage]
      exact .listens
  | polling due =>
      have looks : f.stepWait w =
          f.lookAround w (if due ≤ f.clock then f.pollBots w else f.park) := by
        unfold stepWait
        simp [stage, kept, WaitStage.isOver]
      rw [looks]
      refine proceeds_lookAround goesOn ?_
      split
      · exact proceeds_pollBots goesOn
      · show (f.wait w).stage.Proceeds _
        rw [stage]
        exact .polls due
  | submitted =>
      cases purpose : (f.wait w).purpose <;> simp [Wait.request?, stage, purpose] at asks
  | signalled s => simp [Wait.request?, stage] at asks
  | «over» result => simp [stage, WaitStage.isOver] at goesOn

/-! ## Runs -/

/-- In the course of a move `start` is called for a manager, and is not refused. -/
def StartAccepted (m : Nat) (f : Fleet) (mv : Move) : Prop :=
  ∃ span, f.StartCall mv m span ∧ ∀ e, (f.start m span).2 ≠ some (.refused e)

/-- Something happens at one move of a run at most. -/
def AtMostOnce (f : Fleet) (ms : List Move) (P : Fleet → Move → Prop) : Prop :=
  ∀ pre mv mid mv' post, ms = pre ++ mv :: mid ++ mv' :: post → P (f.play pre) mv →
    ¬ P (f.play (pre ++ mv :: mid)) mv'

variable {managers : List ManagerPlan} {bots : List BotPlan} {ms : List Move}

theorem phase_le_play (has : m < managers.length) (bots : List BotPlan) (pre rest : List Move) :
    (((raw managers bots).play pre).manager m).phase.rank ≤
      (((raw managers bots).play (pre ++ rest)).manager m).phase.rank := by
  rw [play_append]
  exact Steps.phase_le ((steps_play_any (sound_play managers bots pre) rest).2.2 m
    (has_play.mpr has))

/-- What finds a manager in a phase that it takes it out of happens once at most. -/
theorem atMostOnce_of_leaves (has : m < managers.length) {P : Fleet → Move → Prop} {phase : Phase}
    (finds : ∀ pre mv, P ((raw managers bots).play pre) mv →
      (((raw managers bots).play pre).manager m).phase = phase)
    (leaves : ∀ pre mv, P ((raw managers bots).play pre) mv →
      phase.rank < (((raw managers bots).play (pre ++ [mv])).manager m).phase.rank) :
    (raw managers bots).AtMostOnce ms P := by
  intro pre mv mid mv' post _ first second
  have after := leaves pre mv first
  have goesOn := phase_le_play has bots (pre ++ [mv]) mid
  rw [List.append_assoc, List.singleton_append, finds _ _ second] at goesOn
  omega

theorem StartAccepted.isNew (accepted : StartAccepted m f mv) : (f.manager m).phase = .new := by
  obtain ⟨span, -, accepts⟩ := accepted
  apply Classical.byContradiction
  intro old
  rw [start_of_not_new old] at accepts
  exact accepts _ rfl

theorem StartAccepted.leaves (accepted : StartAccepted m f mv) (sound : f.Sound) :
    Phase.new.rank < ((f.move mv).manager m).phase.rank := by
  have isNew := accepted.isNew
  obtain ⟨span, call, -⟩ := accepted
  have left : ((f.move mv).view m).enrolment.phase ≠ .new := by
    rw [call.enrolment sound]
    rcases enrolment_start (call.has sound) isNew span with ⟨-, -, started⟩ | ⟨-, goesOn⟩
    · rw [started]
      nofun
    · show (((f.start m span).1.view m).mgr.phase).toStart ≠ .new
      rw [goesOn]
      nofun
  have left : ((f.move mv).manager m).phase ≠ .new := fun isNew =>
    left (congrArg Phase.toStart isNew)
  cases phase : ((f.move mv).manager m).phase with
  | new => exact absurd phase left
  | starting | running | stopping | terminated => decide

theorem StopAccepted.isRunning (accepted : StopAccepted m f mv) (sound : f.Sound) :
    (f.manager m).phase = .running := by
  obtain ⟨g, span, call, accepts⟩ := accepted
  have isRunning := (accepted_iff (call.has_of sound) span).mp accepts
  rw [← isRunning]
  rcases call.view_eq sound with same | told
  · exact (congrArg (·.mgr.phase) same).symm
  · exact (congrArg (·.mgr.phase) told).symm

/-- What a manager does with calls at one moment: it refuses those that its phase does not allow,
with the operation and the phase, and nothing is changed; others return, unless a bot that is asked
something panics. -/
structure RefusesByPhase (f : Fleet) (m : Nat) : Prop where
  refused : ∀ (op : Operation) span, f.isHeld m = true → op.isAllowed (f.manager m).phase = false →
    f.perform span (op.call m) =
      (f, .halted (.refused (.illegalState op.name (f.manager m).phase)))
  allowed : ∀ (op : Operation) span, f.isHeld m = true → op.isAllowed (f.manager m).phase = true →
    (f.perform span (op.call m)).2 = .done ∨
      ∃ text, (f.perform span (op.call m)).2 = .halted (.panicked text) ∧
        f.PanicsAt (f.questions m op) text
  inRun : ∀ r (op : Operation) left, f.tasks.running = some (.bot r) →
    (f.launch r).stage = .calling (op.call m :: left) → f.isHeld m = true →
      op.isAllowed (f.manager m).phase = false →
        f.move .turn = (f.note (.called (f.launch r).bot
          (.halted (.refused (.illegalState op.name (f.manager m).phase))))).setStage r
            (.calling left)
  waiter : ∀ w (op : Operation) es, f.tasks.running = some (.wait w) → (f.wait w).manager = m →
    (f.wait w).aborted = false → (f.wait w).request? = some (op, es) →
      if op.isAllowed (f.manager m).phase then
        ((f.move .turn).wait w).stage.Proceeds (f.PanicsAt (f.turnQuestions m op))
      else
        ((f.move .turn).wait w).stage =
            .over (.halted (.refused (.illegalState op.name (f.manager m).phase))) ∧
          f.OnlyTold m es (f.move .turn)

/-- At every point of a run a manager refuses the calls that its phase does not allow. It is
started once at most and stopped once at most, and once it is done it refuses every operation. -/
structure RefusesExactly (f : Fleet) (m : Nat) (ms : List Move) : Prop where
  byPhase : (f.play ms).RefusesByPhase m
  startsOnce : f.AtMostOnce ms (StartAccepted m)
  stopsOnce : f.AtMostOnce ms (StopAccepted m)
  forever : ∀ pre, pre <+: ms → ((f.play pre).manager m).phase = .terminated →
    ((f.play ms).manager m).phase = .terminated ∧
      ∀ (op : Operation) span, (f.play ms).isHeld m = true → (f.play ms).perform span (op.call m) =
        (f.play ms, .halted (.refused (.illegalState op.name .terminated)))

theorem refusesByPhase (sound : f.Sound) (orderly : (f.view m).Orderly) : f.RefusesByPhase m where
  refused := fun op span held refused => by
    rw [perform_operation held, operate_of_refused refused]
    rfl
  allowed := fun op span held allowed => by
    rw [perform_operation held]
    rcases operate_of_allowed (has_of_isHeld sound held) orderly allowed span with
      returns | ⟨text, panicked, panics⟩
    · rw [returns]
      exact Or.inl rfl
    · rw [panicked]
      exact Or.inr ⟨text, rfl, panics⟩
  inRun := fun r op left turn calls held refused => by
    rw [move_turn turn]
    show f.stepBot r = _
    unfold stepBot
    rw [calls]
    dsimp only
    rw [perform_operation held, operate_of_refused refused]
    rfl
  waiter := fun w op es turn owner kept asks => by
    subst owner
    split
    · rename_i allowed
      exact waiter_allowed sound orderly turn kept asks allowed
    · rename_i refused
      exact waiter_refused sound turn kept asks (Bool.not_eq_true _ ▸ refused)

/-- At every point of every run a call that the phase of its manager does not allow is refused with
the operation and the phase and changes nothing, whoever makes it, and a call that the phase allows
is not refused. No manager is started twice or stopped twice, and one that is done refuses every
operation for good. -/
theorem refuses_exactly (has : m < managers.length) (bots : List BotPlan) (ms : List Move) :
    (raw managers bots).RefusesExactly m ms where
  byPhase := refusesByPhase (sound_play managers bots ms) (regular_play has bots ms).orderly
  startsOnce := atMostOnce_of_leaves has (fun pre mv accepted => accepted.isNew)
    fun pre mv accepted => by
      rw [play_append]
      exact accepted.leaves (sound_play managers bots pre)
  stopsOnce := atMostOnce_of_leaves has
    (fun pre mv accepted => accepted.isRunning (sound_play managers bots pre))
    fun pre mv accepted => by
      have sound := sound_play managers bots pre
      have closed := StopsRunning.closed ((stopsRunning_iff sound).mpr accepted) sound
      have after := (regular_play has bots (pre ++ [mv])).orderly.closed
      rw [play_append] at after ⊢
      rcases after.mp closed with stopping | done
      · exact lt_of_lt_of_eq (by decide) (congrArg Phase.rank stopping).symm
      · exact lt_of_lt_of_eq (by decide) (congrArg Phase.rank done).symm
  forever := fun pre sub done => by
    obtain ⟨rest, rfl⟩ := sub
    have goesOn := phase_le_play has bots pre rest
    rw [done] at goesOn
    have done' : (((raw managers bots).play (pre ++ rest)).manager m).phase = .terminated := by
      cases phase : (((raw managers bots).play (pre ++ rest)).manager m).phase with
      | terminated => rfl
      | new | starting | running | stopping =>
          rw [phase] at goesOn
          exact absurd goesOn (by decide)
    refine ⟨done', fun op span held => ?_⟩
    have refused := (refusesByPhase (sound_play managers bots (pre ++ rest))
      (regular_play has bots (pre ++ rest)).orderly).refused op span held
    rw [done'] at refused
    exact refused (by cases op <;> rfl)

/-- A manager without bots is started and stopped, and refuses to register one. -/
theorem refuses_exactly_of_stopped :
    let f := raw [Sample.oneSlot] [Sample.bot false]
    let ms : List Move := [.call (.start 0), .call (.stop 0)]
    f.RefusesExactly 0 ms ∧ ((f.play ms).manager 0).phase = .terminated ∧
      (f.play ms).perform none (.add 0 0) =
        (f.play ms, .halted (.refused (.illegalState "add_bot" .terminated))) := by
  have has : 0 < [Sample.oneSlot].length := by decide
  have refuses := refuses_exactly has [Sample.bot false] [.call (.start 0), .call (.stop 0)]
  exact ⟨refuses, by decide,
    (refuses.forever _ (List.prefix_refl _) (by decide)).2 (.add 0) none (by decide)⟩

/-- A manager that is new does not register a bot that panics when it is asked its name: the call
neither returns nor is refused. -/
theorem not_done_of_unnamed :
    let f := (raw [Sample.oneSlot] [Sample.bot false]).play [.arm 0 .name]
    f.isHeld 0 = true ∧
      (f.perform none (.add 0 0)).2 = .halted (.panicked "name of bot 0") ∧
        ¬ ((f.perform none (.add 0 0)).2 = .done ↔
          (f.manager 0).phase = .new ∨ (f.manager 0).phase = .running) := by
  refine ⟨by decide, rfl, fun succeeds => ?_⟩
  have isNew : (((raw [Sample.oneSlot] [Sample.bot false]).play [.arm 0 .name]).manager 0).phase =
      .new := by decide
  cases succeeds.mpr (Or.inl isNew)

end Fleet

end Flotilla
