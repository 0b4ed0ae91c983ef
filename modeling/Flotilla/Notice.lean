import Flotilla.Hostmask

/-!
# Notices

A message that somebody sent to a channel or to the bot alone, and where a reply to it goes:
to the channel if there is one, addressed to the sender by nick, else to the sender.
-/

namespace Flotilla

/-- A message received. -/
structure Notice where
  /-- Who sent it. -/
  hostmask : Hostmask
  /-- The nick a reply is addressed to, if there is one. -/
  user : Option String
  /-- The channel it was sent to, if it was. -/
  channel : Option String
  message : String
  deriving DecidableEq

/-- Why a notice cannot be answered. -/
inductive RespondError where
  | noRecipient

namespace RespondError

def label : RespondError → String
  | .noRecipient => "NoRecipient"

def message : RespondError → String
  | .noRecipient => "notice has no channel and no sender to respond to"

end RespondError

namespace Notice

/-- Whether the notice was sent to the bot alone. -/
def isPrivate (n : Notice) : Bool := n.channel.isNone

/-- The target and the text of a reply. -/
def respond (n : Notice) (text : String) : Except RespondError (String × String) :=
  match n.channel, n.user with
  | some channel, some nick => .ok (channel, nick ++ ": " ++ text)
  | some channel, none => .ok (channel, text)
  | none, some nick => .ok (nick, text)
  | none, none => .error .noRecipient

end Notice

end Flotilla
