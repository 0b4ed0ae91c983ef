import Flotilla.Hostmask
import Mathlib.Data.List.TakeWhile

/-!
# What the parts of a host mask tell

A mask is written from a nick, a login and a host (`Parts.full` and the forms that leave something
out) and read by its parts (`Hostmask.parts`). Every text can be read: the places where it is cut
are places to cut at (`exists_loginEnd`), and it is its three parts with nothing but separators in
between (`exists_marks`).

What was written comes back but for one thing (`lossless_up_to_marks`): a login that begins with
exclamation marks comes back without them (`Parts.trimmed`), since they are taken for separators.
So a mask is lossless exactly if its login does not begin with one, and two masks show the same
parts exactly if they differ in nothing else.
-/

namespace Flotilla.Hostmask

/-- A nick, a login and a host. -/
structure Parts where
  nick : String
  login : String
  host : String
  deriving DecidableEq

/-- The parts of a mask. -/
def parts (m : Hostmask) : Parts := { nick := m.nick, login := m.login, host := m.host }

namespace Parts

/-- What parts have to be like to stand in a mask. -/
structure WellFormed (p : Parts) : Prop where
  nick : '!' ∉ p.nick.toList ∧ '@' ∉ p.nick.toList
  login : '@' ∉ p.login.toList
  host : '@' ∉ p.host.toList

/-- The mask with all three parts. -/
def full (p : Parts) : Hostmask := ⟨p.nick ++ "!" ++ p.login ++ "@" ++ p.host⟩

/-- The mask of the nick and the host. -/
def withoutLogin (p : Parts) : Hostmask := ⟨p.nick ++ "@" ++ p.host⟩

/-- The mask of the nick and the login. -/
def withoutHost (p : Parts) : Hostmask := ⟨p.nick ++ "!" ++ p.login⟩

/-- The mask of the nick alone. -/
def bare (p : Parts) : Hostmask := ⟨p.nick⟩

/-- The parts without the exclamation marks that the login begins with. -/
def trimmed (p : Parts) : Parts := { p with login := Text.trimStart '!' p.login }

end Parts

/-! ## Reading any text -/

theorem parts_eq (m : Hostmask) :
    m.parts =
      { nick := String.ofList (nickChars m.raw.toList)
        login := String.ofList (loginChars m.raw.toList)
        host := String.ofList (hostChars m.raw.toList) } := by
  rw [parts, nick_eq, login_eq, host_eq]

/-- Every text is the parts of its mask, with exclamation marks before the login and at signs
before the host. -/
theorem exists_marks (m : Hostmask) :
    ∃ marks ats, m.raw = m.nick ++ marks ++ m.login ++ ats ++ m.host ∧
      (∀ c ∈ marks.toList, c = '!') ∧ ∀ c ∈ ats.toList, c = '@' := by
  refine ⟨String.ofList ((loginPart m.raw.toList).takeWhile (· = '!')),
    String.ofList ((hostPart m.raw.toList).takeWhile (· = '@')), ?_, ?_, ?_⟩
  · have login := (loginPart m.raw.toList).takeWhile_append_dropWhile (p := (· = '!'))
    have host := (hostPart m.raw.toList).takeWhile_append_dropWhile (p := (· = '@'))
    simp only [nick_eq, login_eq, host_eq, ← String.ofList_append, List.append_assoc]
    rw [hostChars, host, loginChars, ← List.append_assoc (List.takeWhile _ _), login,
      loginPart_append_hostPart, nickChars_append_afterNick, String.ofList_toList]
  · intro c mem
    rw [String.toList_ofList] at mem
    simpa using List.mem_takeWhile_imp mem
  · intro c mem
    rw [String.toList_ofList] at mem
    simpa using List.mem_takeWhile_imp mem

/-- A mask is cut at places to cut at, and the second one is not before the first. -/
theorem exists_loginEnd (m : Hostmask) :
    ∃ place, m.loginEnd? = some place ∧ m.nickEnd ≤ place ∧ Text.CutsAt m.raw m.nickEnd ∧
      Text.CutsAt m.raw place := by
  obtain ⟨place, found, login⟩ := Option.bind_eq_some_iff.mp m.login?_eq
  obtain ⟨part, cut, -⟩ := Option.bind_eq_some_iff.mp login
  exact ⟨place, found, Text.isSome_cut?_iff.mp (Option.isSome_of_eq_some cut)⟩

/-! ## Reading what was written -/

/-- What is read off a mask of which the fields are known: a nick without separators, a login
behind an exclamation mark and without at signs, and a host behind an at sign. The last two may be
missing. -/
theorem parts_ofList {n l h : List Char} (nick : ∀ c ∈ n, endsNick c = false)
    (login : ∀ c ∈ l.head?, c = '!') (noAt : '@' ∉ l) (host : ∀ c ∈ h.head?, c = '@') :
    parts ⟨String.ofList (n ++ (l ++ h))⟩ =
      { nick := String.ofList n
        login := String.ofList (l.dropWhile (· = '!'))
        host := String.ofList (h.dropWhile (· = '@')) } := by
  have ends : ∀ c ∈ (l ++ h).head?, (!endsNick c) = false := by
    intro c first
    cases l with
    | nil => rw [host c first]; rfl
    | cons d l => rw [login c first]; rfl
  have ends' : ∀ c ∈ h.head?, (c != '@') = false := by
    intro c first
    rw [host c first]
    rfl
  have passed : ∀ c ∈ n, (!endsNick c) = true := by simpa using nick
  obtain ⟨nickTaken, later⟩ := Text.takeWhile_append_of_head passed ends
  obtain ⟨loginTaken, hostLeft⟩ := Text.takeWhile_append_of_head
    (fun c mem => bne_iff_ne.mpr (ne_of_mem_of_not_mem mem noAt)) ends'
  rw [parts_eq, String.toList_ofList, nickChars, nickTaken, loginChars, hostChars, loginPart,
    hostPart, afterNick, later, loginTaken, hostLeft]

namespace Parts

variable {p q : Parts}

theorem WellFormed.endsNick (wf : p.WellFormed) : ∀ c ∈ p.nick.toList, endsNick c = false := by
  intro c mem
  simp [Hostmask.endsNick, ne_of_mem_of_not_mem mem wf.nick.1, ne_of_mem_of_not_mem mem wf.nick.2]

/-- A host behind its at sign is read without the at sign. -/
theorem WellFormed.dropWhile_host (wf : p.WellFormed) :
    ('@' :: p.host.toList).dropWhile (· = '@') = p.host.toList := by
  rw [List.dropWhile_cons_of_pos (by simp)]
  exact (Text.takeWhile_append_of_head (a := []) nofun fun c first => by
    simpa using ne_of_mem_of_not_mem (List.mem_of_mem_head? first) wf.host).2

theorem WellFormed.parts_full (wf : p.WellFormed) : p.full.parts = p.trimmed := by
  have read := parts_ofList (l := '!' :: p.login.toList) (h := '@' :: p.host.toList) wf.endsNick
    (by simp) (by simpa using wf.login) (by simp)
  rw [wf.dropWhile_host] at read
  simpa [full, trimmed, Text.trimStart, String.append_assoc] using read

theorem WellFormed.parts_withoutLogin (wf : p.WellFormed) :
    p.withoutLogin.parts = { p with login := "" } := by
  have read := parts_ofList (l := []) (h := '@' :: p.host.toList) wf.endsNick nofun (by simp)
    (by simp)
  rw [wf.dropWhile_host] at read
  simpa [withoutLogin, String.append_assoc] using read

theorem WellFormed.parts_withoutHost (wf : p.WellFormed) :
    p.withoutHost.parts = { p.trimmed with host := "" } := by
  have read := parts_ofList (l := '!' :: p.login.toList) (h := []) wf.endsNick (by simp)
    (by simpa using wf.login) nofun
  simpa [withoutHost, trimmed, Text.trimStart, String.append_assoc] using read

theorem WellFormed.parts_bare (wf : p.WellFormed) :
    p.bare.parts = { nick := p.nick, login := "", host := "" } := by
  have read := parts_ofList (l := []) (h := []) wf.endsNick nofun (by simp) nofun
  simpa [bare] using read

/-- Nothing is trimmed exactly if the login does not begin with an exclamation mark. -/
theorem trimmed_eq_iff : p.trimmed = p ↔ p.login.toList.head? ≠ some '!' := by
  have login : p.trimmed = p ↔ Text.trimStart '!' p.login = p.login := by
    cases p
    simp [trimmed]
  rw [login, Text.trimStart, ← String.toList_inj, String.toList_ofList,
    List.dropWhile_eq_self_iff]
  cases p.login.toList <;> simp

/-- A mask is written back as it was exactly if nothing was trimmed. -/
theorem full_trimmed_eq_iff : p.trimmed.full = p.full ↔ p.trimmed = p := by
  cases p
  simp [full, trimmed]

end Parts

/-! ## Main statement -/

/-- Every text can be read as a mask, since it can be cut at the places found, and is the parts read
with nothing but separators in between. Of parts that were written into a mask, whichever were, the
same ones are read, but for the exclamation marks that the login begins with. A mask with all three
parts is written back from what is read exactly if there are none, and two of them read the same
exactly if they differ in nothing else. -/
theorem lossless_up_to_marks (m : Hostmask) (p q : Parts) (wf : p.WellFormed)
    (wf' : q.WellFormed) :
    (m.nick? = some m.nick ∧ m.login? = some m.login ∧ m.host? = some m.host) ∧
    (∃ place, m.loginEnd? = some place ∧ m.nickEnd ≤ place ∧ Text.CutsAt m.raw m.nickEnd ∧
      Text.CutsAt m.raw place) ∧
    (∃ marks ats, m.raw = m.nick ++ marks ++ m.login ++ ats ++ m.host ∧
      (∀ c ∈ marks.toList, c = '!') ∧ ∀ c ∈ ats.toList, c = '@') ∧
    p.full.parts = p.trimmed ∧
    p.withoutLogin.parts = { p with login := "" } ∧
    p.withoutHost.parts = { p.trimmed with host := "" } ∧
    p.bare.parts = { nick := p.nick, login := "", host := "" } ∧
    (p.full.parts = p ↔ p.login.toList.head? ≠ some '!') ∧
    (p.full.parts.full = p.full ↔ p.login.toList.head? ≠ some '!') ∧
    (p.full.parts = q.full.parts ↔ p.trimmed = q.trimmed) := by
  refine ⟨?_, m.exists_loginEnd, m.exists_marks, wf.parts_full, wf.parts_withoutLogin,
    wf.parts_withoutHost, wf.parts_bare, ?_, ?_, ?_⟩
  · rw [nick_eq, login_eq, host_eq]
    exact ⟨m.nick?_eq, m.login?_eq, m.host?_eq⟩
  · rw [wf.parts_full, Parts.trimmed_eq_iff]
  · rw [wf.parts_full, Parts.full_trimmed_eq_iff, Parts.trimmed_eq_iff]
  · rw [wf.parts_full, wf'.parts_full]

end Flotilla.Hostmask

namespace Flotilla

namespace Sample

/-- A login that begins with an exclamation mark. -/
def marked : Hostmask.Parts := { nick := "a", login := "!b", host := "c" }

/-- The same without the mark. -/
def unmarked : Hostmask.Parts := { nick := "a", login := "b", host := "c" }

theorem wellFormed_marked : marked.WellFormed := ⟨by decide, by decide, by decide⟩

theorem wellFormed_unmarked : unmarked.WellFormed := ⟨by decide, by decide, by decide⟩

end Sample

namespace Hostmask

/-- Both masks read the same, and only one of them as it was written. -/
theorem lossless_up_to_marks_of_two :
    Sample.marked.WellFormed ∧ Sample.unmarked.WellFormed ∧
    Sample.unmarked.full.parts = Sample.unmarked ∧
    Sample.marked.full.parts = Sample.unmarked ∧
    Sample.marked.full.parts = Sample.unmarked.full.parts := by
  obtain ⟨-, -, -, read, -, -, -, -, -, alike⟩ := lossless_up_to_marks Sample.marked.full
    Sample.marked Sample.unmarked Sample.wellFormed_marked Sample.wellFormed_unmarked
  obtain ⟨-, -, -, -, -, -, -, faithful, -⟩ := lossless_up_to_marks Sample.unmarked.full
    Sample.unmarked Sample.unmarked Sample.wellFormed_unmarked Sample.wellFormed_unmarked
  refine ⟨Sample.wellFormed_marked, Sample.wellFormed_unmarked, ?_, ?_, ?_⟩
  · exact faithful.mpr (by decide)
  · exact read.trans (by decide)
  · exact alike.mpr (by decide)

/-- The parts of the mask `a!!b@c` were `a`, `!b` and `c`, and it reads as `a`, `b` and `c`, as the
mask `a!b@c` does. -/
theorem not_lossless_of_marked :
    Sample.marked.WellFormed ∧ Sample.marked.full.raw = "a!!b@c" ∧
    Sample.marked.full.login = "b" ∧ Sample.marked.login = "!b" ∧
    Sample.marked.full ≠ Sample.unmarked.full ∧
    Sample.marked.full.parts = Sample.unmarked.full.parts := by
  refine ⟨Sample.wellFormed_marked, by decide, ?_, rfl, by decide, ?_⟩
  · rw [login_eq]
    decide
  · rw [parts_eq, parts_eq]
    decide

end Hostmask

end Flotilla
