import StompRelay.Frame.Command
import StompRelay.Frame.Headers
import StompRelay.Message.Payload
/-!
# Messages

A message is addressed to or comes from the session of one client. The session and the command say
where it goes; the headers and the payload are what the broker gets or sent.

## Main definitions

* `SessionId` — the name of a client's session
* `Message` — an addressed message
* `Message.notice` — tells a client that its session failed
-/

namespace StompRelay

/-- The name of a client's session. -/
abbrev SessionId := String

/-- A message for or from the session of one client. -/
structure Message where
  session : SessionId
  command : Option Command
  headers : Headers
  payload : Payload

namespace Message

/-- Tells a client what happened to its session. -/
def notice (session : SessionId) (text : String) : Message :=
  ⟨session, some .error, [⟨"message", text⟩], .empty⟩

/-- The declared type of the payload. -/
def contentType? (m : Message) : Option String := m.headers.contentType?

end Message

end StompRelay
