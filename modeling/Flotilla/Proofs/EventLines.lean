import Flotilla.Event.Line
import Flotilla.Proofs.Quoting

/-!
# The lines for events are unambiguous

Two events on the fleet whose lines have the same text are of the same kind and agree on what lines
for that kind show (`line_message_eq_iff`): the phase, the number of bots waited for, the id, the
name or the reason, a missing one counting as what is written for it. The word for the kind ends at
the bracket, an id ends at the space behind it, a name stands in quotes, and a reason stands last;
so no name and no reason can be taken for anything else, whatever stands in it.

Nothing of the kind holds for the reports on subscribers, whose names are written without quotes.
-/

namespace Flotilla

/-- Texts that end at the first occurrence of a character that begins what follows. -/
theorem Text.append_inj_of_notMem {a b mark x y : String} {c : Char}
    (begins : mark.toList.head? = some c) (notin : c ∉ a.toList) (notin' : c ∉ b.toList)
    (same : a ++ (mark ++ x) = b ++ (mark ++ y)) : a = b ∧ x = y := by
  have taken : ∀ (a x : String), c ∉ a.toList →
      (a ++ (mark ++ x)).toList.takeWhile (· ≠ c) = a.toList := by
    intro a x notin
    rw [String.toList_append]
    refine (takeWhile_append_of_head (fun d mem => ?_) fun d first => ?_).1
    · simpa using ne_of_mem_of_not_mem mem notin
    · rw [String.toList_append, List.head?_append, begins, Option.some_or,
        Option.mem_some_iff] at first
      simpa using first.symm
  have before : a = b := by
    rw [← String.toList_inj, ← taken a x notin, same, taken b y notin']
  subst before
  rw [String.append_right_inj, String.append_right_inj] at same
  exact ⟨rfl, same⟩

namespace Event

variable {e e' : Event}

/-- Two events of a kind agree on what the line for an event of that kind shows. -/
def AgreesWith (e e' : Event) : Prop :=
  match e.kind with
  | .stateChanged => e.phase = e'.phase
  | .shutdownRequested => True
  | .waitingForBots => e.outstanding.getD 0 = e'.outstanding.getD 0
  | .botQueued => orUnknown e.name = orUnknown e'.name
  | .botLaunched | .botFinished | .botRemoved | .quitRequested =>
    e.bot = e'.bot ∧ orUnknown e.name = orUnknown e'.name
  | .botFailed =>
    e.bot = e'.bot ∧ orUnknown e.name = orUnknown e'.name ∧
      orUnknown e.reason = orUnknown e'.reason
  | .subscriberOverflow | .subscriberPanicked =>
    orUnknown e.name = orUnknown e'.name ∧ orUnknown e.reason = orUnknown e'.reason

/-! ## Kinds -/

theorem tag_injective {k k' : EventKind} (same : tag k = tag k') : k = k' := by
  have all : ∀ k ∈ EventKind.all, ∀ k' ∈ EventKind.all, tag k = tag k' → k = k' := by decide
  exact all k k.mem_all k' k'.mem_all same

theorem bracket_notMem_tag (k : EventKind) : ']' ∉ (tag k).toList := by
  cases k <;> decide

/-- A line tells the kind and the details apart. -/
theorem lineMessage_inj (same : e.lineMessage = e'.lineMessage) :
    e.kind = e'.kind ∧ e.lineDetails = e'.lineDetails := by
  unfold lineMessage at same
  simp only [String.append_assoc, String.append_right_inj] at same
  exact (Text.append_inj_of_notMem rfl (bracket_notMem_tag _) (bracket_notMem_tag _) same).imp
    tag_injective id

/-! ## Details -/

theorem ofLabel?_orUnknown (phase : Option Phase) :
    Phase.ofLabel? (orUnknown (phase.map Phase.label)) = phase := by
  cases phase with
  | none => decide
  | some phase => exact phase.ofLabel?_label

theorem isDigit_of_mem_toString {n : Nat} {c : Char} (mem : c ∈ (toString n).toList) :
    c.isDigit = true := by
  rw [Nat.toString_eq_repr, Nat.toList_repr] at mem
  exact Nat.isDigit_of_mem_toDigits (by decide) (by decide) mem

theorem toString_injective {m n : Nat} (same : toString m = toString n) : m = n := by
  have digits := congrArg String.toList same
  simp only [Nat.toString_eq_repr, Nat.toList_repr] at digits
  rw [← Nat.ofDigitChars_ten_toDigits (n := m), digits, Nat.ofDigitChars_ten_toDigits]

theorem botText_inj (same : e.botText = e'.botText) : e.bot = e'.bot := by
  unfold botText at same
  -- A dash is no digit.
  have noDigit : ∀ n : Nat, toString n ≠ "-" := by
    intro n dash
    have digit := isDigit_of_mem_toString (n := n) (c := '-') (by rw [dash]; decide)
    exact absurd digit (by decide)
  cases bot : e.bot with
  | none =>
      cases bot' : e'.bot with
      | none => rfl
      | some n => rw [bot, bot'] at same; exact absurd same.symm (noDigit n)
  | some m =>
      cases bot' : e'.bot with
      | none => rw [bot, bot'] at same; exact absurd same (noDigit m)
      | some n => rw [bot, bot'] at same; rw [toString_injective same]

theorem space_notMem_botText (e : Event) : ' ' ∉ e.botText.toList := by
  unfold botText
  cases e.bot with
  | none => decide
  | some n => exact fun mem => absurd (isDigit_of_mem_toString mem) (by decide)

/-- What a line says of a launched bot ends where the quotes do. -/
theorem botDetails_append_inj_iff {x y : String} :
    e.botDetails ++ x = e'.botDetails ++ y ↔
      e.bot = e'.bot ∧ orUnknown e.name = orUnknown e'.name ∧ x = y := by
  unfold botDetails
  simp only [String.append_assoc, String.append_right_inj]
  constructor
  · intro same
    have begins : " name=".toList.head? = some ' ' := rfl
    obtain ⟨bots, named⟩ := Text.append_inj_of_notMem begins (space_notMem_botText e)
      (space_notMem_botText e') same
    obtain ⟨names, later⟩ := Text.quoted_append_inj named
    exact ⟨botText_inj bots, names, later⟩
  · rintro ⟨bots, names, rfl⟩
    rw [botText, botText, bots, quotedName, quotedName, names]

theorem botDetails_inj_iff :
    e.botDetails = e'.botDetails ↔ e.bot = e'.bot ∧ orUnknown e.name = orUnknown e'.name := by
  have alone : e.botDetails ++ "" = e'.botDetails ++ "" ↔
      e.bot = e'.bot ∧ orUnknown e.name = orUnknown e'.name ∧ "" = "" := botDetails_append_inj_iff
  simpa using alone

/-- The details of two events of one kind are written the same exactly if they are. -/
theorem lineDetails_eq_iff (fleet : e.kind.isDiagnostic = false) (kinds : e.kind = e'.kind) :
    e.lineDetails = e'.lineDetails ↔ e.AgreesWith e' := by
  unfold lineDetails AgreesWith
  rw [← kinds]
  cases kind : e.kind with
  | subscriberPanicked => rw [kind] at fleet; cases fleet
  | subscriberOverflow => rw [kind] at fleet; cases fleet
  | shutdownRequested => exact iff_of_true rfl trivial
  | stateChanged =>
      dsimp only
      rw [String.append_right_inj]
      refine ⟨fun same => ?_, fun phases => by rw [phases]⟩
      rw [← ofLabel?_orUnknown e.phase, same, ofLabel?_orUnknown]
  | waitingForBots =>
      dsimp only
      rw [String.append_right_inj]
      exact ⟨toString_injective, congrArg _⟩
  | botQueued =>
      dsimp only
      rw [String.append_right_inj]
      refine ⟨fun same => ?_, congrArg Text.quoted⟩
      exact (Text.quoted_append_inj (congrArg (· ++ "") same)).1
  | botLaunched | botFinished | botRemoved | quitRequested => exact botDetails_inj_iff
  | botFailed =>
      dsimp only
      rw [String.append_assoc, String.append_assoc, botDetails_append_inj_iff,
        String.append_right_inj]

/-! ## Main statement -/

/-- The line for an event on the fleet has the same text as the line for another event exactly if
they are of the same kind and agree on what the lines for events of that kind show. -/
theorem line_message_eq_iff (fleet : e.kind.isDiagnostic = false) :
    e.line.message = e'.line.message ↔ e.kind = e'.kind ∧ e.AgreesWith e' := by
  constructor
  · intro same
    obtain ⟨kinds, details⟩ := lineMessage_inj same
    exact ⟨kinds, (lineDetails_eq_iff fleet kinds).mp details⟩
  · rintro ⟨kinds, agrees⟩
    show e.lineMessage = e'.lineMessage
    rw [lineMessage, lineMessage, kinds, (lineDetails_eq_iff fleet kinds).mpr agrees]

end Event

namespace Sample

/-- A bot failed for a reason that looks as if a name ended in it. -/
def quotingReason : Event := .botFailed 1 "a" "b\x22 err=c"

/-- A bot failed that has the rest of such a line in its name. -/
def quotingName : Event := .botFailed 1 "a\x22 err=b" "c"

/-- A bot without a name failed, and nothing is known but its id. -/
def nameless : Event := { kind := .botFailed, seq := 3, bot := some 1 }

end Sample

namespace Event

/-- The line for a name that holds what follows a name is not taken for another one; a name that is
missing is taken for the word that stands for it. -/
theorem line_message_eq_iff_of_quoting :
    Sample.quotingReason.kind.isDiagnostic = false ∧
    Sample.quotingReason.line.message ≠ Sample.quotingName.line.message ∧
    Sample.nameless.kind.isDiagnostic = false ∧
    Sample.nameless.line.message = (botFailed 1 "unknown" "unknown").line.message := by
  refine ⟨rfl, fun same => ?_, rfl, (line_message_eq_iff rfl).mpr ⟨rfl, rfl, rfl, rfl⟩⟩
  obtain ⟨-, -, names, -⟩ := (line_message_eq_iff rfl).mp same
  exact absurd names (by decide)

end Event

end Flotilla
