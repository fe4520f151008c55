import StompRelay.Relay.Bus
import StompRelay.Relay.Failure
/-!
# Calls

Everything that the relay is asked to do is a call. A call moves from stage to stage; between two
stages anything else may happen. Most stages pass at once; a call waits only for its turn to write,
for room in the connection, for room on the bus, or for a connection to be opened.

## Main definitions

* `Purpose` — what a call is for
* `Outcome` — how a call ends
* `Stage` — how far a call is
* `Call` — a call
-/

namespace StompRelay

/-- What a call is for. -/
inductive Purpose where
  /-- Send a message under a command. -/
  | forward (m : Message) (c : Command)
  /-- Open a connection for the session of a message, then send it. -/
  | login (m : Message) (c : Command)
  /-- Send a message to log out, then end its session. -/
  | logout (m : Message)
  /-- End the session of a client that has gone. -/
  | depart (session : SessionId)
  /-- Register a session over a connection that is open already, with or without a reader, and
  keep it outside the relay or not. -/
  | attach (session : SessionId) (reads holds : Bool)
  /-- Write bytes to a session. -/
  | write (e : Place) (frame : Bytes)
  /-- Deliver a message to the bus. -/
  | deliver (m : Message)
  /-- Close a session. -/
  | close (e : Place)
  /-- End the session under an id, or only the one with the given number. -/
  | teardown (session : SessionId) (only : Option Epoch)
  /-- End all sessions. -/
  | teardownAll

/-- How a call ends. -/
inductive Outcome where
  | ok
  | failed (f : Failure)
  /-- A write failed. -/
  | broken (f : WriteFault)
  /-- So many sessions were ended. -/
  | ended (count : Nat)
  deriving DecidableEq, Repr

/-- How far a call is. -/
inductive Stage where
  /-- It checks that no session has its id yet. -/
  | admitting
  /-- It waits for a connection to be opened. -/
  | dialing
  /-- It registers a session. -/
  | registering (e : Place)
  /-- It starts the reader of a registered session. -/
  | starting (e : Place)
  /-- It looks the session of its message up. -/
  | finding
  /-- It turns its message into a frame for a session. -/
  | encoding (e : Place)
  /-- It asks for its turn to write. -/
  | asking (e : Place) (frame : Bytes)
  /-- It waits for its turn to write. -/
  | waiting (e : Place) (frame : Bytes)
  /-- It writes; `rest` has not been accepted yet. -/
  | writing (e : Place) (rest : Bytes)
  /-- Its write failed; it ends that session. -/
  | failing (e : Place) (f : WriteFault)
  /-- It ends the session under its id, if it has the number asked for. -/
  | removing (only : Option Epoch) (found missed : Outcome)
  /-- It ends all sessions. -/
  | clearing
  /-- It shuts the write sides of sessions it has removed, and ends with an outcome; what its
  purpose asks for after sending is still to come unless `final`. -/
  | closing (es : List Place) (o : Outcome) (final : Bool)
  /-- It gets in line for the bus. -/
  | joining
  /-- It waits in line for the bus. -/
  | posting
  /-- It has ended. -/
  | done (o : Outcome)

/-- What the relay is asked to do, and how far that is. -/
structure Call where
  purpose : Purpose
  stage : Stage

namespace Purpose

/-- The client that a call is about; calls about a session by its place concern none. -/
def session? : Purpose → Option SessionId
  | forward m _ | login m _ | logout m | deliver m => some m.session
  | depart session | attach session _ _ | teardown session _ => some session
  | write _ _ | close _ | teardownAll => none

/-- The id under which a call looks for its session. -/
def id (p : Purpose) : SessionId := p.session?.getD ""

/-- The message that a call sends, and the command that it sends it under. -/
def sends? : Purpose → Option (Message × Command)
  | forward m c | login m c => some (m, c)
  | logout m => some (m, .disconnect)
  | _ => none

/-- The first stage. A call to register a session is started with that session. -/
def start (newest : Place) : Purpose → Stage
  | forward _ _ | logout _ => .finding
  | login _ _ => .admitting
  | depart _ => .removing none .ok .ok
  | attach _ _ _ => .registering newest
  | write e frame => .asking e frame
  | deliver _ => .joining
  | close e => .closing [e] .ok true
  | teardown _ only => .removing only (.ended 1) (.ended 0)
  | teardownAll => .clearing

/-- The stage after the message has been sent, or not, with the given outcome. -/
def conclude (o : Outcome) : Purpose → Stage
  | logout _ => .removing none o o
  | _ => .done o

/-- The stage after a write failed: a message ends the session that it was for. -/
def afterBreak (e : Place) (f : WriteFault) : Purpose → Stage
  | write _ _ => .done (.broken f)
  | _ => .failing e f

end Purpose

namespace Stage

/-- The outcome of a call that has ended. -/
def outcome? : Stage → Option Outcome
  | done o => some o
  | _ => none

/-- Whether a call keeps the given session. -/
def keeps (e : Place) : Stage → Bool
  | registering e' | starting e' | encoding e' | asking e' _ | waiting e' _ | writing e' _
  | failing e' _ => e == e'
  | closing es _ _ => es.contains e
  | _ => false

end Stage

end StompRelay
