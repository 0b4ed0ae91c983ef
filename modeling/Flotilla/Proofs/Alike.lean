import Flotilla.Bus
import Flotilla.Fleet.Session
import Mathlib.Data.List.Forall2

/-!
# Events that nobody who passes them on tells apart

The bus, the listener and the subscribers pass events on without looking into them, but for one
thing: whether an event is itself a report on a refusal. So two buses, and two sets of
subscribers, that differ only in such a way that the events in them are alike one by one do the
same step for step: they refuse and report the same, wake the same workers, and what they then
hold is alike again.

*Alike* is here any relation that says nothing of the numbers of events (`Event.Likeness`).
-/

namespace Flotilla

/-- A relation between events of which those who pass them on take no notice. -/
structure Event.Likeness (E : Event → Event → Prop) : Prop where
  refl : ∀ e, E e e
  kind : ∀ {e e'}, E e e' → (e'.kind = .subscriberOverflow ↔ e.kind = .subscriberOverflow)
  withSeq : ∀ {e e'}, E e e' → ∀ n, E (e.withSeq n) (e'.withSeq n)

/-! ## Lists compared one by one -/

section Lists

variable {α β γ : Type} {R : α → β → Prop} {xs : List α} {ys : List β}

theorem getElem?_of_forall₂ (alike : List.Forall₂ R xs ys) (i : Nat) :
    Option.Rel R xs[i]? ys[i]? := by
  induction alike generalizing i with
  | nil => exact .none
  | cons first _ ih =>
      cases i with
      | zero => exact .some first
      | succ i => exact ih i

theorem forall₂_modify {g : α → α} {h : β → β} (alike : List.Forall₂ R xs ys)
    (each : ∀ x y, R x y → R (g x) (h y)) (i : Nat) :
    List.Forall₂ R (xs.modify i g) (ys.modify i h) := by
  induction alike generalizing i with
  | nil => simp
  | cons first rest ih =>
      cases i with
      | zero => simpa using ⟨each _ _ first, rest⟩
      | succ i => simpa using ⟨first, ih i⟩

theorem forall₂_map {δ : Type} {S : γ → δ → Prop} {g : α → γ} {h : β → δ}
    (alike : List.Forall₂ R xs ys) (each : ∀ x y, R x y → S (g x) (h y)) :
    List.Forall₂ S (xs.map g) (ys.map h) := by
  rw [List.forall₂_map_left_iff, List.forall₂_map_right_iff]
  exact alike.imp each

theorem map_eq_of_forall₂ {g : α → γ} {h : β → γ} (alike : List.Forall₂ R xs ys)
    (each : ∀ x y, R x y → h y = g x) : ys.map h = xs.map g := by
  induction alike with
  | nil => rfl
  | cons first _ ih => rw [List.map_cons, List.map_cons, each _ _ first, ih]

theorem forall₂_push {x : α} {y : β} {xs : Array α} {ys : Array β}
    (alike : List.Forall₂ R xs.toList ys.toList) (last : R x y) :
    List.Forall₂ R (xs.push x).toList (ys.push y).toList := by
  rw [Array.toList_push, Array.toList_push]
  exact List.rel_append alike (.cons last .nil)

theorem size_eq_of_forall₂ {xs : Array α} {ys : Array β}
    (alike : List.Forall₂ R xs.toList ys.toList) : ys.size = xs.size := by
  simpa using alike.length_eq.symm

theorem forall₂_extract {xs : Array α} {ys : Array β}
    (alike : List.Forall₂ R xs.toList ys.toList) (i j : Nat) :
    List.Forall₂ R (xs.extract i j).toList (ys.extract i j).toList := by
  rw [Array.toList_extract, Array.toList_extract, List.extract_eq_take_drop,
    List.extract_eq_take_drop]
  exact List.forall₂_take _ (List.forall₂_drop _ alike)

theorem rel_map {δ : Type} {S : γ → δ → Prop} {g : α → γ} {h : β → δ} {x? : Option α}
    {y? : Option β} (alike : Option.Rel R x? y?) (each : ∀ x y, R x y → S (g x) (h y)) :
    Option.Rel S (x?.map g) (y?.map h) := by
  cases alike with
  | none => exact .none
  | some alike => exact .some (each _ _ alike)

end Lists

theorem Event.Likeness.refl_list {E : Event → Event → Prop} (likeness : Event.Likeness E)
    (es : List Event) : List.Forall₂ E es es :=
  List.forall₂_same.mpr fun e _ => likeness.refl e

variable {E E' : Event → Event → Prop} {e e' : Event}

/-! ## Buses -/

/-- Two readings of events that are alike. -/
inductive Reading.Alike (E : Event → Event → Prop) : Reading → Reading → Prop
  | event {e e' : Event} (alike : E e e') : Alike E (.event e) (.event e')
  | lagged (n : Nat) : Alike E (.lagged n) (.lagged n)
  | nothing : Alike E .nothing .nothing

theorem Reading.Alike.imp {x y : Reading} (alike : x.Alike E y) (imp : ∀ e e', E e e' → E' e e') :
    x.Alike E' y := by
  cases alike with
  | event alike => exact .event (imp _ _ alike)
  | lagged n => exact .lagged n
  | nothing => exact .nothing

namespace Bus

/-- Two buses with the same ring, whose events are alike. -/
structure Alike (E : Event → Event → Prop) (b c : Bus) : Prop where
  slots : c.slots = b.slots
  log : List.Forall₂ E b.log.toList c.log.toList

variable {b c : Bus}

theorem Alike.imp (alike : b.Alike E c) (imp : ∀ e e', E e e' → E' e e') : b.Alike E' c :=
  ⟨alike.slots, alike.log.imp imp⟩

theorem Alike.refl (likeness : Event.Likeness E) (b : Bus) : b.Alike E b :=
  ⟨rfl, likeness.refl_list _⟩

theorem Alike.published (alike : b.Alike E c) : c.published = b.published :=
  size_eq_of_forall₂ alike.log

theorem Alike.oldest (alike : b.Alike E c) : c.oldest = b.oldest := by
  rw [Bus.oldest, Bus.oldest, alike.published, alike.slots]

theorem Alike.publish (likeness : Event.Likeness E) (alike : b.Alike E c) (told : E e e') :
    (b.publish e).Alike E (c.publish e') := by
  refine ⟨alike.slots, ?_⟩
  rw [log_publish, log_publish, alike.published]
  exact forall₂_push alike.log (likeness.withSeq told b.published)

theorem Alike.read (alike : b.Alike E c) (r : Reader) :
    ∃ x y r', b.read r = (x, r') ∧ c.read r = (y, r') ∧ x.Alike E y := by
  have there := getElem?_of_forall₂ alike.log r.next
  simp only [Array.getElem?_toList] at there
  unfold Bus.read
  rw [alike.oldest]
  split
  · exact ⟨_, _, _, rfl, rfl, .lagged _⟩
  · generalize b.log[r.next]? = e?, c.log[r.next]? = e'? at there
    cases there with
    | none => exact ⟨_, _, _, rfl, rfl, .nothing⟩
    | some told => exact ⟨_, _, _, rfl, rfl, .event told⟩

theorem Alike.drain (alike : b.Alike E c) (r : Reader) :
    List.Forall₂ (Reading.Alike E) (b.drain r).1 (c.drain r).1 ∧
      (c.drain r).2 = (b.drain r).2 := by
  unfold Bus.drain
  dsimp only
  rw [alike.oldest, alike.published]
  refine ⟨List.rel_append ?_ ?_, rfl⟩
  · split
    · exact .cons (.lagged _) .nil
    · exact .nil
  · exact forall₂_map (forall₂_extract alike.log _ _) fun _ _ => .event

end Bus

/-! ## Feeds -/

/-- Two workers that do the same, each with an event that is alike. -/
inductive Worker.Alike (E : Event → Event → Prop) : Worker → Worker → Prop
  | taking : Alike E .taking .taking
  | idle : Alike E .idle .idle
  | blocked {e e' : Event} (alike : E e e') : Alike E (.blocked e) (.blocked e')
  | permitted {e e' : Event} (alike : E e e') : Alike E (.permitted e) (.permitted e')
  | ended : Alike E .ended .ended
  | dead : Alike E .dead .dead

namespace Worker

variable {w v : Worker}

theorem Alike.imp (alike : w.Alike E v) (imp : ∀ e e', E e e' → E' e e') : w.Alike E' v := by
  cases alike with
  | blocked alike => exact .blocked (imp _ _ alike)
  | permitted alike => exact .permitted (imp _ _ alike)
  | taking => exact .taking
  | idle => exact .idle
  | ended => exact .ended
  | dead => exact .dead

theorem Alike.refl (likeness : Event.Likeness E) (w : Worker) : w.Alike E w := by
  cases w with
  | blocked e => exact .blocked (likeness.refl e)
  | permitted e => exact .permitted (likeness.refl e)
  | taking => exact .taking
  | idle => exact .idle
  | ended => exact .ended
  | dead => exact .dead

theorem Alike.isGone (alike : w.Alike E v) : v.isGone = w.isGone := by
  cases alike <;> rfl

theorem Alike.isIdle (alike : w.Alike E v) : (v == .idle) = (w == .idle) := by
  cases alike <;> rfl

theorem Alike.rouse (alike : w.Alike E v) : w.rouse.Alike E v.rouse := by
  cases alike with
  | blocked alike => exact .blocked alike
  | permitted alike => exact .permitted alike
  | taking | idle => exact .taking
  | ended => exact .ended
  | dead => exact .dead

end Worker

/-- What is seen of two subscribers whose events are alike. -/
inductive Kept.Alike (E : Event → Event → Prop) : Kept → Kept → Prop
  | event {e e' : Event} (alike : E e e') : Alike E (.event e) (.event e')
  | count (n : Nat) : Alike E (.count n) (.count n)

theorem Kept.Alike.imp {x y : Kept} (alike : x.Alike E y) (imp : ∀ e e', E e e' → E' e e') :
    x.Alike E' y := by
  cases alike with
  | event alike => exact .event (imp _ _ alike)
  | count n => exact .count n

namespace Feed

/-- Two feeds of one subscriber, whose events are alike. -/
structure Alike (E : Event → Event → Prop) (f g : Feed) : Prop where
  subscriber : g.subscriber = f.subscriber
  queue : List.Forall₂ E f.queue g.queue
  worker : f.worker.Alike E g.worker
  handed : List.Forall₂ E f.handed.toList g.handed.toList
  permits : g.permits = f.permits
  kept : List.Forall₂ E f.kept.toList g.kept.toList

variable {f g : Feed}

theorem Alike.imp (alike : f.Alike E g) (imp : ∀ e e', E e e' → E' e e') : f.Alike E' g where
  subscriber := alike.subscriber
  queue := alike.queue.imp imp
  worker := alike.worker.imp imp
  handed := alike.handed.imp imp
  permits := alike.permits
  kept := alike.kept.imp imp

theorem Alike.refl (likeness : Event.Likeness E) (f : Feed) : f.Alike E f where
  subscriber := rfl
  queue := likeness.refl_list _
  worker := .refl likeness f.worker
  handed := likeness.refl_list _
  permits := rfl
  kept := likeness.refl_list _

theorem Alike.refusal? (alike : f.Alike E g) : g.refusal? = f.refusal? := by
  rw [Feed.refusal?, Feed.refusal?, alike.worker.isGone, alike.subscriber,
    alike.queue.length_eq]

theorem Alike.wakesOnOffer (alike : f.Alike E g) : g.wakesOnOffer = f.wakesOnOffer := by
  rw [Feed.wakesOnOffer, Feed.wakesOnOffer, alike.refusal?, alike.worker.isIdle]

theorem Alike.overflow? (likeness : Event.Likeness E) (alike : f.Alike E g) (told : E e e') :
    g.overflow? e' = f.overflow? e := by
  simp only [Feed.overflow?, alike.refusal?, alike.subscriber, likeness.kind told]

theorem Alike.offer (alike : f.Alike E g) (told : E e e') :
    (f.offer e).Alike E (g.offer e') := by
  unfold Feed.offer
  rw [alike.refusal?]
  split
  · exact alike
  · exact { alike with
      queue := List.rel_append alike.queue (.cons told .nil)
      worker := alike.worker.rouse }

theorem Alike.keep (alike : f.Alike E g) (told : E e e') : (f.keep e).Alike E (g.keep e') :=
  { alike with kept := forall₂_push alike.kept told, worker := .taking }

theorem Alike.calls (alike : f.Alike E g) : g.calls = f.calls :=
  size_eq_of_forall₂ alike.handed

/-- Two steps of a worker with the same report and pace, after which the feeds are alike. -/
def WorkAlike (E : Event → Event → Prop) (x y : Feed × Option Event × Pace) : Prop :=
  ∃ f g told, x = (f, told) ∧ y = (g, told) ∧ f.Alike E g

theorem Alike.worked (alike : f.Alike E g) (told : Option Event × Pace) :
    WorkAlike E (f, told) (g, told) :=
  ⟨f, g, told, rfl, rfl, alike⟩

theorem Alike.handOver (alike : f.Alike E g) (told : E e e') {later later' : List Event}
    (rest : List.Forall₂ E later later') :
    WorkAlike E (f.handOver e later) (g.handOver e' later') := by
  have begun : Feed.Alike E { f with queue := later, handed := f.handed.push e }
      { g with queue := later', handed := g.handed.push e' } :=
    { alike with queue := rest, handed := forall₂_push alike.handed told }
  have treated : g.subscriber.treatment g.calls = f.subscriber.treatment f.calls := by
    rw [alike.calls, alike.subscriber]
  unfold Feed.handOver
  dsimp only
  rw [treated]
  split
  · exact (begun.keep told).worked _
  · by_cases none : f.permits = 0
    · rw [if_pos none, if_pos (alike.permits.trans none)]
      exact ⟨_, _, _, rfl, rfl, { begun with worker := .blocked told }⟩
    · rw [if_neg none, if_neg (alike.permits ▸ none)]
      exact ⟨_, _, _, rfl, rfl, { begun.keep told with permits := by simp [alike.permits] }⟩
  · have name : g.subscriber.name = f.subscriber.name := by rw [alike.subscriber]
    rw [name]
    exact begun.worked _
  · exact ⟨_, _, _, rfl, rfl, { begun with queue := .nil, worker := .dead }⟩

theorem Alike.work (alike : f.Alike E g) (isOpen : Bool) :
    WorkAlike E (f.work isOpen) (g.work isOpen) := by
  rcases f with ⟨subscriber, queue, w, handed, permits, kept⟩
  rcases g with ⟨subscriber', queue', v, handed', permits', kept'⟩
  have worker : w.Alike E v := alike.worker
  have waiting : List.Forall₂ E queue queue' := alike.queue
  cases worker with
  | taking =>
      cases waiting with
      | cons first rest => exact alike.handOver first rest
      | nil =>
          cases isOpen with
          | true => exact ⟨_, _, _, rfl, rfl, { alike with worker := .idle }⟩
          | false => exact ⟨_, _, _, rfl, rfl, { alike with worker := .ended }⟩
  | permitted told => exact (alike.keep told).worked _
  | idle | blocked | ended | dead => exact alike.worked _

theorem Alike.rouse (alike : f.Alike E g) :
    Alike E { f with worker := f.worker.rouse } { g with worker := g.worker.rouse } :=
  { alike with worker := alike.worker.rouse }

theorem Alike.release (alike : f.Alike E g) : f.release.Alike E g.release := by
  rcases f with ⟨subscriber, queue, w, handed, permits, kept⟩
  rcases g with ⟨subscriber', queue', v, handed', permits', kept'⟩
  have worker : w.Alike E v := alike.worker
  have more : permits' + 1 = permits + 1 := congrArg (· + 1) alike.permits
  cases worker with
  | blocked told => exact { alike with worker := .permitted told }
  | taking | idle | permitted | ended | dead => exact { alike with permits := more }

theorem Alike.releaseTimes (alike : f.Alike E g) (n : Nat) :
    (f.releaseTimes n).Alike E (g.releaseTimes n) := by
  induction n generalizing f g with
  | zero => exact alike
  | succ n ih => exact ih alike.release

theorem Alike.isBlocked (alike : f.Alike E g) : g.isBlocked = f.isBlocked := by
  have worker := alike.worker
  unfold Feed.isBlocked
  generalize f.worker = w, g.worker = v at worker
  cases worker <;> rfl

theorem Alike.seen (alike : f.Alike E g) : List.Forall₂ (Kept.Alike E) f.seen g.seen := by
  have size := size_eq_of_forall₂ alike.kept
  have kept : List.Forall₂ (Kept.Alike E) (f.kept.toList.map .event) (g.kept.toList.map .event) :=
    forall₂_map alike.kept fun _ _ => .event
  unfold Feed.seen
  rw [alike.subscriber]
  cases f.subscriber.handling with
  | count =>
      simp only [Array.isEmpty, size]
      by_cases none : f.kept.size = 0
      · simp [none]
      · simpa [none] using .count f.kept.size
  | record | block | panic | panicAtOnce => exact kept

theorem Alike.look (alike : f.Alike E g) : f.look.Alike E g.look :=
  { alike with kept := .nil }

end Feed

/-! ## Sets of subscribers -/

namespace Fanout

/-- Two sets of the same subscribers, whose events are alike. -/
structure Alike (E : Event → Event → Prop) (s t : Fanout) : Prop where
  feeds : List.Forall₂ (Feed.Alike E) s.feeds t.feeds
  isOpen : t.isOpen = s.isOpen

variable {s t : Fanout}

theorem Alike.imp (alike : s.Alike E t) (imp : ∀ e e', E e e' → E' e e') : s.Alike E' t :=
  ⟨alike.feeds.imp fun _ _ feed => feed.imp imp, alike.isOpen⟩

theorem Alike.refl (likeness : Event.Likeness E) (s : Fanout) : s.Alike E s :=
  ⟨List.forall₂_same.mpr fun f _ => .refl likeness f, rfl⟩

theorem Alike.indicesWhere (alike : s.Alike E t) {p : Feed → Bool}
    (each : ∀ f g : Feed, f.Alike E g → p g = p f) : t.indicesWhere p = s.indicesWhere p := by
  have flags := map_eq_of_forall₂ alike.feeds each
  have by_flags (u : Fanout) : u.indicesWhere p =
      (u.feeds.map p).zipIdx.filterMap fun x => if x.1 then some x.2 else none := by
    rw [Fanout.indicesWhere, List.zipIdx_map, List.filterMap_map]
    rfl
  rw [by_flags, by_flags, flags]

theorem Alike.offer (alike : s.Alike E t) (told : E e e') : (s.offer e).Alike E (t.offer e') :=
  ⟨forall₂_map alike.feeds fun _ _ feed => feed.offer told, alike.isOpen⟩

theorem Alike.overflows (likeness : Event.Likeness E) (alike : s.Alike E t) (told : E e e') :
    t.overflows e' = s.overflows e := by
  have reports := map_eq_of_forall₂ alike.feeds fun _ _ feed => feed.overflow? likeness told
  have by_reports (u : Fanout) (e : Event) :
      u.overflows e = (u.feeds.map fun f => f.overflow? e).filterMap id := by
    rw [Fanout.overflows, List.filterMap_map]
    rfl
  rw [by_reports, by_reports, reports]

theorem Alike.wokenByOffer (alike : s.Alike E t) : t.wokenByOffer = s.wokenByOffer :=
  alike.indicesWhere fun _ _ feed => feed.wakesOnOffer

theorem Alike.work (alike : s.Alike E t) (worker : Nat) :
    ∃ s' t' report pace, s.work worker = (s', report, pace) ∧
      t.work worker = (t', report, pace) ∧ s'.Alike E t' := by
  have there := getElem?_of_forall₂ alike.feeds worker
  unfold Fanout.work
  generalize s.feeds[worker]? = feed?, t.feeds[worker]? = feed'? at there
  cases there with
  | none => exact ⟨_, _, _, _, rfl, rfl, alike⟩
  | some feed =>
      obtain ⟨f', g', told, work, work', worked⟩ := feed.work s.isOpen
      dsimp only
      rw [alike.isOpen, work, work']
      refine ⟨_, _, _, _, rfl, rfl, ?_, rfl⟩
      rw [List.set_eq_modify, List.set_eq_modify]
      exact forall₂_modify alike.feeds (fun _ _ _ => worked) worker

theorem Alike.close (alike : s.Alike E t) : s.close.Alike E t.close :=
  ⟨forall₂_map alike.feeds fun _ _ feed => feed.rouse, rfl⟩

theorem Alike.wokenByClose (alike : s.Alike E t) : t.wokenByClose = s.wokenByClose :=
  alike.indicesWhere fun _ _ feed => feed.worker.isIdle

theorem Alike.awaitFrom (alike : s.Alike E t) (worker : Nat) :
    t.awaitFrom worker = s.awaitFrom worker := by
  have there : (t.indicesWhere fun f => !f.worker.isGone) =
      s.indicesWhere fun f => !f.worker.isGone :=
    alike.indicesWhere fun _ _ feed => by rw [feed.worker.isGone]
  rw [Fanout.awaitFrom, Fanout.firstAt?, there]
  rfl

theorem Alike.release (alike : s.Alike E t) (subscriber times : Nat) :
    (s.release subscriber times).Alike E (t.release subscriber times) :=
  ⟨forall₂_modify alike.feeds (fun _ _ feed => feed.releaseTimes times) subscriber,
    alike.isOpen⟩

theorem Alike.wakesOnRelease (alike : s.Alike E t) (subscriber times : Nat) :
    t.wakesOnRelease subscriber times = s.wakesOnRelease subscriber times := by
  have there := getElem?_of_forall₂ alike.feeds subscriber
  unfold Fanout.wakesOnRelease
  generalize s.feeds[subscriber]? = feed?, t.feeds[subscriber]? = feed'? at there
  cases there with
  | none => rfl
  | some feed => rw [Option.map_some, Option.map_some, feed.isBlocked]

theorem Alike.seen (alike : s.Alike E t) :
    List.Forall₂ (List.Forall₂ (Kept.Alike E)) s.seen t.seen :=
  forall₂_map alike.feeds fun _ _ feed => feed.seen

theorem Alike.look (alike : s.Alike E t) : s.look.Alike E t.look :=
  ⟨forall₂_map alike.feeds fun _ _ feed => feed.look, alike.isOpen⟩

end Fanout

/-! ## Relays -/

/-- Two relays to the same subscribers, whose events are alike. -/
structure Relay.Alike (E : Event → Event → Prop) (r s : Relay) : Prop where
  fanout : r.fanout.Alike E s.fanout
  reader : s.reader = r.reader
  listening : s.listening = r.listening

theorem Relay.Alike.imp {r s : Relay} (alike : r.Alike E s) (imp : ∀ e e', E e e' → E' e e') :
    r.Alike E' s :=
  { alike with fanout := alike.fanout.imp imp }

theorem Relay.Alike.refl (likeness : Event.Likeness E) (r : Relay) : r.Alike E r :=
  ⟨.refl likeness r.fanout, rfl, rfl⟩

end Flotilla
