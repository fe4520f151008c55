import StompRelay.Message.Basic
import StompRelay.Message.Error
/-!
# Failures of the relay

Why the relay could not do what it was asked for. Each failure names the session that it concerns.

## Main definitions

* `WriteFault` — why a frame could not be written
* `Failure` — the failures, with their wording
-/

namespace StompRelay

/-- Why a frame could not be written. Whoever wrote it is told of a broken pipe in either case; only
the wording differs. -/
inductive WriteFault where
  /-- The session was closed on this side. -/
  | closed
  /-- The broker has gone. -/
  | brokenPipe
  deriving DecidableEq, Repr

/-- The wording of a fault. -/
def WriteFault.message : WriteFault → String
  | .closed => "relay session closed"
  | .brokenPipe => "broken pipe"

/-- Why the relay could not do what it was asked for. -/
inductive Failure where
  | connectionEstablishment (session : SessionId) (address reason : String)
  | sessionNotFound (session : SessionId)
  | sessionAlreadyExists (session : SessionId)
  | frameSyntax (session : SessionId) (fault : Frame.Fault)
  | socketIo (session : SessionId) (fault : WriteFault)
  | conversion (session : SessionId) (error : Error)
  | busClosed (session : SessionId)
  deriving DecidableEq, Repr

namespace Failure

/-- The session that a failure concerns. -/
def session : Failure → SessionId
  | connectionEstablishment session _ _ => session
  | sessionNotFound session => session
  | sessionAlreadyExists session => session
  | frameSyntax session _ => session
  | socketIo session _ => session
  | conversion session _ => session
  | busClosed session => session

/-- The wording of a failure. -/
def message : Failure → String
  | connectionEstablishment session address reason =>
    "Could not connect session " ++ session ++ " to broker at " ++ address ++ ": " ++ reason
  | sessionNotFound session => "Relay session not found: " ++ session
  | sessionAlreadyExists session => "Relay session already exists: " ++ session
  | frameSyntax session fault =>
    "Malformed frame on session " ++ session ++ ": " ++ (Error.frame fault).message
  | socketIo session fault => "Socket I/O failure on session " ++ session ++ ": " ++ fault.message
  | conversion session error =>
    "Could not convert payload for session " ++ session ++ ": " ++ error.message
  | busClosed session => "Local bus closed, dropping message for session " ++ session

end Failure

end StompRelay
