/-!
# Cutting texts

Places in a text are counted in bytes. A text can be cut only where a character begins or the
text ends: `cut?` gives nothing for any other place, nor if the second place lies before the
first one.
-/

namespace Flotilla.Text

/-- A place where a text can be cut: a character begins there, or the text ends. -/
def CutsAt (s : String) (place : Nat) : Prop := (⟨place⟩ : String.Pos.Raw).IsValid s

instance (s : String) (place : Nat) : Decidable (CutsAt s place) :=
  inferInstanceAs (Decidable ((⟨place⟩ : String.Pos.Raw).IsValid s))

/-- The part of a text between two places, if it can be cut there. -/
def cut? (s : String) (first last : Nat) : Option String :=
  if h : first ≤ last ∧ CutsAt s first ∧ CutsAt s last then
    some (s.extract (s.pos ⟨first⟩ h.2.1) (s.pos ⟨last⟩ h.2.2))
  else none

/-- Where the first character that passes a test begins, or where the text ends if none does. -/
def placeOf (test : Char → Bool) : List Char → Nat
  | [] => 0
  | c :: cs => if test c then 0 else c.utf8Size + placeOf test cs

/-- A text without the marks it begins with. -/
def trimStart (mark : Char) (s : String) : String :=
  String.ofList (s.toList.dropWhile (· = mark))

/-! ## Lists of characters -/

/-- What is taken while a test is passed ends where a character fails it. -/
theorem takeWhile_append_of_head {test : Char → Bool} {a b : List Char}
    (passed : ∀ c ∈ a, test c = true) (failed : ∀ c ∈ b.head?, test c = false) :
    (a ++ b).takeWhile test = a ∧ (a ++ b).dropWhile test = b := by
  rw [List.takeWhile_append_of_pos passed, List.dropWhile_append_of_pos passed]
  cases b with
  | nil => simp
  | cons c b => simp [failed c rfl]

/-- The first character that passes a test stands behind those that do not. -/
theorem placeOf_eq (test : Char → Bool) (cs : List Char) :
    placeOf test cs = (String.ofList (cs.takeWhile fun c => !test c)).utf8ByteSize := by
  induction cs with
  | nil => rfl
  | cons c cs ih =>
      unfold placeOf
      cases passes : test c with
      | true => simp [passes]
      | false =>
          rw [List.takeWhile_cons_of_pos (by simp [passes]), ih]
          simp [String.ofList_cons]

/-! ## Places to cut at -/

theorem isSome_cut?_iff {s : String} {first last : Nat} :
    (cut? s first last).isSome = true ↔ first ≤ last ∧ CutsAt s first ∧ CutsAt s last := by
  unfold cut?
  split
  · rename_i h
    exact iff_of_true rfl h
  · rename_i h
    exact iff_of_false Bool.false_ne_true h

theorem cutsAt_append (a b : String) : CutsAt (a ++ b) a.utf8ByteSize :=
  String.Pos.Raw.isValid_iff_exists_append.mpr ⟨a, b, rfl, rfl⟩

/-- A text can be cut before and after a part of it. -/
theorem cut?_append (a b c : String) :
    cut? (a ++ b ++ c) a.utf8ByteSize (a.utf8ByteSize + b.utf8ByteSize) = some b := by
  have first : CutsAt (a ++ b ++ c) a.utf8ByteSize :=
    String.append_assoc ▸ cutsAt_append a (b ++ c)
  have last : CutsAt (a ++ b ++ c) (a.utf8ByteSize + b.utf8ByteSize) :=
    String.utf8ByteSize_append ▸ cutsAt_append (a ++ b) c
  rw [cut?, dif_pos ⟨Nat.le_add_right _ _, first, last⟩, Option.some.injEq,
    ← String.toByteArray_inj]
  show (a ++ b ++ c).toByteArray.extract (a.toByteArray.size + 0)
    (a.toByteArray.size + b.toByteArray.size) = b.toByteArray
  rw [String.append_assoc, String.toByteArray_append, ByteArray.extract_append_size_add,
    String.toByteArray_append, ByteArray.extract_append_eq_left rfl]

theorem cut?_prefix (b c : String) : cut? (b ++ c) 0 b.utf8ByteSize = some b := by
  simpa using cut?_append "" b c

theorem cut?_suffix (a b : String) :
    cut? (a ++ b) a.utf8ByteSize (a ++ b).utf8ByteSize = some b := by
  simpa using cut?_append a b ""

end Flotilla.Text
