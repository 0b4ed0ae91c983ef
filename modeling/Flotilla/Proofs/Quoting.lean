import Flotilla.Text.Cut
import Flotilla.Text.Quoted
import Mathlib.Tactic.SplitIfs

/-!
# Quoted texts can be read back

Whoever reads a quoted text from its first character on can tell each character of the text from
the next, whatever stands behind it (`readChar_quotedChar`), and knows where the text ends, since
no character is written with a bare quote in front. So a quoted text and what follows it determine
each other in whatever they stand together (`quoted_append_inj`): no text, whatever quotes,
escapes or closing phrases it holds, is written like another one.
-/

namespace Flotilla.Text

/-! ## Digits -/

/-- The value of a digit to base sixteen. -/
def hexValue (c : Char) : Nat := if c.isDigit then c.toNat - 48 else c.toNat - 87

/-- The number that digits to base sixteen stand for. -/
def readHex (digits : List Char) : Nat := digits.foldl (fun n c => n * 16 + hexValue c) 0

theorem hexValue_digitChar : ∀ d < 16, hexValue d.digitChar = d := by decide

theorem readHex_hexDigits (n : Nat) : readHex (hexDigits n) = n := by
  unfold hexDigits
  induction n using Nat.strongRecOn with
  | ind n ih =>
      rw [Nat.toDigits_eq_if (by decide)]
      split
      · rename_i small
        simp [readHex, hexValue_digitChar n small]
      · rename_i large
        have last := hexValue_digitChar (n % 16) (Nat.mod_lt n (by decide))
        have before : readHex (Nat.toDigits 16 (n / 16)) = n / 16 := ih _ (by omega)
        unfold readHex at before ⊢
        rw [List.foldl_append, before, List.foldl_cons, List.foldl_nil, last]
        omega

/-- The digits end before the brace that closes them. -/
theorem brace_notMem_hexDigits (n : Nat) : '\x7d' ∉ hexDigits n := by
  have digit : ∀ d < 16, '\x7d' ≠ d.digitChar := by decide
  unfold hexDigits
  induction n using Nat.strongRecOn with
  | ind n ih =>
      rw [Nat.toDigits_eq_if (by decide)]
      split
      · rename_i small
        exact fun mem => digit n small (List.mem_singleton.mp mem)
      · rename_i large
        rw [List.mem_append, List.mem_singleton, not_or]
        exact ⟨ih _ (by omega), digit _ (Nat.mod_lt n (by decide))⟩

/-! ## Reading one character -/

/-- The character that a short escape stands for. -/
def unescape (mark : Char) : Char :=
  if mark = '0' then '\x00'
  else if mark = 't' then '\t'
  else if mark = 'r' then '\r'
  else if mark = 'n' then '\n'
  else mark

/-- The first character of what is written between quotes, and what is left to be read. -/
def readChar : List Char → Option (Char × List Char)
  | [] => none
  | '\\' :: 'u' :: '\x7b' :: rest =>
    some (Char.ofNat (readHex (rest.takeWhile (· ≠ '\x7d'))),
      (rest.dropWhile (· ≠ '\x7d')).drop 1)
  | '\\' :: mark :: rest => some (unescape mark, rest)
  | c :: rest => some (c, rest)

theorem readChar_quotedChar (c : Char) (rest : List Char) :
    readChar (quotedChar c ++ rest) = some (c, rest) := by
  unfold quotedChar
  split_ifs with nul tab carriage newline backslash quote hidden
  · rw [nul]; rfl
  · rw [tab]; rfl
  · rw [carriage]; rfl
  · rw [newline]; rfl
  · rw [backslash]; rfl
  · rw [quote]; rfl
  · have digit : ∀ d ∈ hexDigits c.toNat, decide (d ≠ '\x7d') = true := by
      intro d mem
      simpa using ne_of_mem_of_not_mem mem (brace_notMem_hexDigits c.toNat)
    obtain ⟨digits, others⟩ := takeWhile_append_of_head digit (b := '\x7d' :: rest) (by simp)
    simp only [List.cons_append, List.append_assoc, List.nil_append, readChar]
    rw [digits, others, readHex_hexDigits, Char.ofNat_toNat]
    rfl
  · simp [readChar, backslash]

/-- Nothing is written with a bare quote in front. -/
theorem exists_quotedChar_eq_cons (c : Char) :
    ∃ first others, quotedChar c = first :: others ∧ first ≠ '\x22' := by
  unfold quotedChar
  split_ifs with nul tab carriage newline backslash quote hidden
  case neg => exact ⟨c, [], rfl, quote⟩
  all_goals exact ⟨'\\', _, rfl, by decide⟩

/-! ## Reading a text -/

/-- What stands between the quotes ends where the text does. -/
theorem flatMap_quotedChar_append_inj {s t x y : List Char}
    (same : s.flatMap quotedChar ++ '\x22' :: x = t.flatMap quotedChar ++ '\x22' :: y) :
    s = t ∧ x = y := by
  induction s generalizing t with
  | nil =>
      cases t with
      | nil => exact ⟨rfl, List.tail_eq_of_cons_eq same⟩
      | cons d t =>
          obtain ⟨first, others, written, noQuote⟩ := exists_quotedChar_eq_cons d
          rw [List.flatMap_cons, written] at same
          exact absurd (List.head_eq_of_cons_eq same).symm noQuote
  | cons c s ih =>
      cases t with
      | nil =>
          obtain ⟨first, others, written, noQuote⟩ := exists_quotedChar_eq_cons c
          rw [List.flatMap_cons, written] at same
          exact absurd (List.head_eq_of_cons_eq same) noQuote
      | cons d t =>
          rw [List.flatMap_cons, List.flatMap_cons, List.append_assoc, List.append_assoc] at same
          have read := congrArg readChar same
          rw [readChar_quotedChar, readChar_quotedChar, Option.some.injEq, Prod.mk.injEq] at read
          obtain ⟨rfl, later⟩ := read
          obtain ⟨rfl, rfl⟩ := ih later
          exact ⟨rfl, rfl⟩

/-- A quoted text and what follows it are determined by what they make together. -/
theorem quoted_append_inj {s t x y : String} (same : quoted s ++ x = quoted t ++ y) :
    s = t ∧ x = y := by
  have chars := congrArg String.toList same
  simp only [String.toList_append, toList_quoted, quotedChars, List.cons_append,
    List.append_assoc, List.nil_append, List.cons.injEq, true_and] at chars
  exact (flatMap_quotedChar_append_inj chars).imp String.toList_inj.mp String.toList_inj.mp

end Flotilla.Text
