import StompRelay.Config.Basic
import StompRelay.Line.Input
import StompRelay.Line.Printer
import StompRelay.Relay.Dispatch
import StompRelay.Relay.Peer
/-!
# Serving the local bus

Events are handled one after the other, in the order in which their lines come in. Messages for
clients go out as soon as they are posted. At the end of the input all sessions are ended, and what
is still posted goes out.

## Main definitions

* `Setup.ofConfig` — the part of the settings that the relay goes by
* `Relay.serve` — the messages that go out for given events
* `Relay.transcript` — the lines that go out for given input
-/

namespace StompRelay

/-- The part of the settings that the relay goes by. -/
def Setup.ofConfig (c : Config) : Setup := ⟨.standard, c.relay.maxFrameBytes, c.broker.address⟩

namespace Relay

/-- The messages that go out for given events, where each connection that is asked for is answered
alike. -/
def serve (setup : Setup) (dial : Except String Nat) (s : Relay) : List Event → List Message
  | [] => ((s.shutdown setup).receiveAll setup none).1
  | e :: es =>
    let (ms, s) := (s.handle setup dial e).2.receiveAll setup none
    ms ++ serve setup dial s es

/-- The lines that go out for given input. -/
def transcript (c : Config) (dial : Except String Nat) (input : Bytes) : List (List Char) :=
  ((Relay.empty c.relay.busCapacity).serve (.ofConfig c) dial (BusInput.events input)).map
    Message.toLine

end Relay

end StompRelay
