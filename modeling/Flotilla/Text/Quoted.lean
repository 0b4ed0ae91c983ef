import Flotilla.Text.Unprintable
import Flotilla.Text.Extender

/-!
# Quoted text

A text in double quotes that shows on one line what it holds: the quote, the backslash and
four control characters have a short escape, and every other character that would not be
seen by itself is written by its code point. All other characters stand for themselves.
-/

namespace Flotilla.Text

/-- Whether a quoted text writes a character by its code point, whatever stands around it. -/
def isHidden (c : Char) : Bool :=
  isUnprintable c || isExtender c

/-- The digits of a code point, to base sixteen, in lower case and without leading zeros. -/
def hexDigits (n : Nat) : List Char :=
  Nat.toDigits 16 n

/-- One character as it is written between the quotes. -/
def quotedChar (c : Char) : List Char :=
  if c = '\x00' then ['\\', '0']
  else if c = '\t' then ['\\', 't']
  else if c = '\r' then ['\\', 'r']
  else if c = '\n' then ['\\', 'n']
  else if c = '\\' then ['\\', '\\']
  else if c = '\x22' then ['\\', '\x22']
  else if isHidden c then '\\' :: 'u' :: '\x7b' :: hexDigits c.toNat ++ ['\x7d']
  else [c]

/-- A text in quotes, as characters. -/
def quotedChars (s : List Char) : List Char :=
  '\x22' :: s.flatMap quotedChar ++ ['\x22']

/-- A text in quotes. -/
def quoted (s : String) : String :=
  String.ofList (quotedChars s.toList)

/-- A list of texts, each in quotes, in square brackets and separated by commas. -/
def quotedList (texts : List String) : String :=
  "[" ++ ", ".intercalate (texts.map quoted) ++ "]"

theorem toList_quoted (s : String) : (quoted s).toList = quotedChars s.toList := by
  simp [quoted]

end Flotilla.Text
