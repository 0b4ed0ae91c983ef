import Flotilla.Text.Cut

/-!
# Host masks

The address of a chat user, written `nick!login@host`. The nick ends at the first `!` or
`@`; what follows up to the first `@` after it is the login, and the rest is the host. The
separators before a login and before a host do not belong to them, however many there are.
Every text is a host mask; a part that is missing is empty.

A mask is cut at two places, found by looking for separators. The text can be cut there
(`nick?_eq`, `login?_eq`, `host?_eq`), so that every mask has its three parts.
-/

namespace Flotilla

/-- A host mask, kept as it was written. -/
structure Hostmask where
  raw : String
  deriving DecidableEq

namespace Hostmask

/-- Whether a character ends the nick. -/
def endsNick (c : Char) : Bool := c = '!' || c = '@'

/-! ## Where a mask is cut -/

/-- Where the nick ends. -/
def nickEnd (m : Hostmask) : Nat := Text.placeOf endsNick m.raw.toList

/-- What stands from there on. -/
def rest? (m : Hostmask) : Option String := Text.cut? m.raw m.nickEnd m.raw.utf8ByteSize

/-- Where the login ends. -/
def loginEnd? (m : Hostmask) : Option Nat :=
  m.rest?.map fun rest => m.nickEnd + Text.placeOf (· == '@') rest.toList

def nick? (m : Hostmask) : Option String := Text.cut? m.raw 0 m.nickEnd

/-- The login, without the exclamation marks before it. -/
def login? (m : Hostmask) : Option String := do
  let part ← Text.cut? m.raw m.nickEnd (← m.loginEnd?)
  return Text.trimStart '!' part

/-- The host, without the at signs before it. -/
def host? (m : Hostmask) : Option String := do
  let part ← Text.cut? m.raw (← m.loginEnd?) m.raw.utf8ByteSize
  return Text.trimStart '@' part

/-! ## The parts, by characters -/

/-- What stands before the first separator. -/
def nickChars (raw : List Char) : List Char :=
  raw.takeWhile fun c => !endsNick c

/-- What stands from the first separator on. -/
def afterNick (raw : List Char) : List Char :=
  raw.dropWhile fun c => !endsNick c

/-- What stands from there up to the first at sign. -/
def loginPart (raw : List Char) : List Char := (afterNick raw).takeWhile (· != '@')

/-- What stands from that at sign on. -/
def hostPart (raw : List Char) : List Char := (afterNick raw).dropWhile (· != '@')

/-- The login, without the exclamation marks before it. -/
def loginChars (raw : List Char) : List Char := (loginPart raw).dropWhile (· = '!')

/-- The host, without the at signs before it. -/
def hostChars (raw : List Char) : List Char := (hostPart raw).dropWhile (· = '@')

theorem nickChars_append_afterNick (raw : List Char) : nickChars raw ++ afterNick raw = raw :=
  List.takeWhile_append_dropWhile

theorem loginPart_append_hostPart (raw : List Char) :
    loginPart raw ++ hostPart raw = afterNick raw :=
  List.takeWhile_append_dropWhile

/-! ## The places found are places to cut at -/

section

variable (m : Hostmask)

theorem nickEnd_eq : m.nickEnd = (String.ofList (nickChars m.raw.toList)).utf8ByteSize :=
  Text.placeOf_eq endsNick _

theorem raw_eq_nick_append :
    m.raw = String.ofList (nickChars m.raw.toList) ++ String.ofList (afterNick m.raw.toList) := by
  rw [← String.ofList_append, nickChars_append_afterNick, String.ofList_toList]

theorem afterNick_eq :
    String.ofList (afterNick m.raw.toList) =
      String.ofList (loginPart m.raw.toList) ++ String.ofList (hostPart m.raw.toList) := by
  rw [← String.ofList_append, loginPart_append_hostPart]

theorem nick?_eq : m.nick? = some (String.ofList (nickChars m.raw.toList)) := by
  have cut := Text.cut?_prefix (String.ofList (nickChars m.raw.toList))
    (String.ofList (afterNick m.raw.toList))
  rwa [← raw_eq_nick_append, ← nickEnd_eq] at cut

theorem rest?_eq : m.rest? = some (String.ofList (afterNick m.raw.toList)) := by
  have cut := Text.cut?_suffix (String.ofList (nickChars m.raw.toList))
    (String.ofList (afterNick m.raw.toList))
  rwa [← raw_eq_nick_append, ← nickEnd_eq] at cut

theorem loginEnd?_eq :
    m.loginEnd? = some (m.nickEnd + (String.ofList (loginPart m.raw.toList)).utf8ByteSize) := by
  rw [loginEnd?, rest?_eq, Option.map_some, String.toList_ofList, Text.placeOf_eq]
  rfl

theorem login?_eq : m.login? = some (String.ofList (loginChars m.raw.toList)) := by
  have cut := Text.cut?_append (String.ofList (nickChars m.raw.toList))
    (String.ofList (loginPart m.raw.toList)) (String.ofList (hostPart m.raw.toList))
  rw [String.append_assoc, ← afterNick_eq, ← raw_eq_nick_append, ← nickEnd_eq] at cut
  simp [login?, loginEnd?_eq, cut, Text.trimStart, loginChars]

theorem host?_eq : m.host? = some (String.ofList (hostChars m.raw.toList)) := by
  have cut := Text.cut?_suffix (String.ofList (nickChars m.raw.toList) ++
    String.ofList (loginPart m.raw.toList)) (String.ofList (hostPart m.raw.toList))
  rw [String.utf8ByteSize_append (t := String.ofList (loginPart _))] at cut
  rw [String.append_assoc, ← afterNick_eq, ← raw_eq_nick_append, ← nickEnd_eq] at cut
  simp [host?, loginEnd?_eq, cut, Text.trimStart, hostChars]

end

/-! ## The parts of a mask -/

def nick (m : Hostmask) : String := m.nick?.get (by rw [nick?_eq]; rfl)

def login (m : Hostmask) : String := m.login?.get (by rw [login?_eq]; rfl)

def host (m : Hostmask) : String := m.host?.get (by rw [host?_eq]; rfl)

theorem nick_eq (m : Hostmask) : m.nick = String.ofList (nickChars m.raw.toList) :=
  Option.get_of_eq_some _ m.nick?_eq

theorem login_eq (m : Hostmask) : m.login = String.ofList (loginChars m.raw.toList) :=
  Option.get_of_eq_some _ m.login?_eq

theorem host_eq (m : Hostmask) : m.host = String.ofList (hostChars m.raw.toList) :=
  Option.get_of_eq_some _ m.host?_eq

end Hostmask

end Flotilla
