import StompRelay.Line.Event
import StompRelay.Relay.Settle
/-!
# What events ask for

An event from the local bus makes one call. A client that connects gets a connection of its own, all
else goes over the connection that it has.

## Main definitions

* `Event.purpose` — the call that an event makes
* `Relay.handle` — an event is handled to its end
* `Relay.shutdown` — the relay ends all sessions
-/

namespace StompRelay

/-- The call that a message makes. One without a command is sent under `SEND`. -/
def Message.purpose (m : Message) : Purpose :=
  match m.command with
  | none => .forward m .send
  | some c =>
    if c.opensConnection then .login m c
    else if c = .disconnect then .logout m
    else .forward m c

/-- The call that an event makes. -/
def Event.purpose : Event → Purpose
  | .message m => m.purpose
  | .closed session => .depart session

namespace Relay

/-- Whether a call waits for a connection. -/
def dials (s : Relay) (i : CallId) : Bool :=
  match s.calls[i]? with
  | some ⟨_, .dialing⟩ => true
  | _ => false

/-- A call is made and goes as far as it can. If it waits for a connection, it gets the answer to
that at once. -/
def perform (setup : Setup) (dial : Except String Nat) (s : Relay) (p : Purpose) :
    Option Outcome × Relay :=
  let i := s.calls.length
  let s := ((((s.start p).settle setup).dialed setup i dial).settle setup)
  (s.outcome? i, s)

/-- An event is handled to its end; its outcome. There is none while the call still waits. -/
def handle (setup : Setup) (dial : Except String Nat) (s : Relay) (e : Event) :
    Option Outcome × Relay :=
  s.perform setup dial e.purpose

/-- The relay ends all sessions. -/
def shutdown (setup : Setup) (s : Relay) : Relay :=
  (s.start .teardownAll).settle setup

end Relay

end StompRelay
