import StompRelay.Relay.Settle
/-!
# The far ends

The broker at its end of a connection, and the receiver at the end of the bus, take and give while
the relay runs: whenever something is full or empty, the relay gets time to make room or to provide
more.

## Main definitions

* `Relay.brokerSend` — the broker sends as much as it can
* `Relay.brokerRead` — the broker reads all that it can get
* `Relay.receiveAll` — all messages that the bus can get are received
-/

namespace StompRelay

/-- How sending went. -/
structure Sent where
  /-- How many bytes were sent. -/
  count : Nat
  /-- Whether the relay's end was gone before all were. -/
  broken : Bool
  deriving DecidableEq, Repr

/-- What reading found. -/
structure Received where
  bytes : Bytes
  /-- Whether the end of the stream was seen. -/
  ended : Bool
  deriving DecidableEq, Repr

namespace Relay

/-- How many bytes the broker may put into a connection now; none once the relay's end is gone. -/
def brokerRoom (s : Relay) (e : Place) : Nat :=
  match s.sessions[e]? with
  | none => 0
  | some x => if s.released e then 0 else x.toRelay.room

/-- The bytes that the broker may take out of a connection now. -/
def brokerWaiting (s : Relay) (e : Place) : Bytes :=
  match s.sessions[e]? with
  | none => []
  | some x => x.toBroker.waiting

/-- The broker sends bytes as long as there is room; those that remain. -/
def sendAll (setup : Setup) (s : Relay) (e : Place) (bs : Bytes) : Bytes × Relay :=
  if _h : min (s.brokerRoom e) bs.length = 0 then (bs, s)
  else
    sendAll setup ((s.brokerPut e (bs.take (s.brokerRoom e))).settle setup) e
      (bs.drop (s.brokerRoom e))
termination_by bs.length
decreasing_by
  rw [List.length_drop]
  omega

/-- The broker sends as much as it can. -/
def brokerSend (setup : Setup) (s : Relay) (e : Place) (bs : Bytes) : Sent × Relay :=
  let (rest, s) := s.sendAll setup e bs
  (⟨bs.length - rest.length, !rest.isEmpty && s.released e⟩, s)

/-- The broker reads as long as there are bytes, at most so many. -/
def readAll (setup : Setup) (s : Relay) (e : Place) (limit : Nat) : Bytes × Relay :=
  let n := min limit (s.brokerWaiting e).length
  if _h : n = 0 then ([], s)
  else
    let (rest, t) := readAll setup ((s.brokerTake e n).settle setup) e (limit - n)
    ((s.brokerWaiting e).take n ++ rest, t)
termination_by limit
decreasing_by omega

/-- How many bytes may reach the broker while nobody else does anything. -/
def brokerAhead (setup : Setup) (s : Relay) (e : Place) : Nat :=
  (s.brokerWaiting e).length + s.work setup

/-- The broker reads all that it can get, at most so many bytes if a limit is given. The end of the
stream is seen only by a read that asks for more than there is. -/
def brokerRead (setup : Setup) (s : Relay) (e : Place) (limit : Option Nat) : Received × Relay :=
  let (bs, s) := s.readAll setup e (limit.getD (s.brokerAhead setup e))
  (⟨bs, limit != some bs.length && s.endedByRelay e⟩, s)

/-- At most `n` messages are received from the bus, one at a time. -/
def receiveUpTo (setup : Setup) : Nat → Relay → List Message × Relay
  | 0, s => ([], s)
  | n + 1, s =>
    match s.receive with
    | none => ([], s)
    | some (m, s) =>
      let (ms, s) := receiveUpTo setup n (s.settle setup)
      (m :: ms, s)

/-- All messages that the bus can get are received, at most so many if a limit is given. -/
def receiveAll (setup : Setup) (s : Relay) (limit : Option Nat) : List Message × Relay :=
  s.receiveUpTo setup (limit.getD (s.bus.queue.length + s.work setup))

end Relay

end StompRelay
