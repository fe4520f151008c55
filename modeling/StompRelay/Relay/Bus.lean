import StompRelay.Message.Basic
/-!
# The local bus

The queue of messages on their way to clients. It holds only so many; whoever has a message for a
full bus waits in line. The bus knows every message that was ever posted.

## Main definitions

* `Place`, `Epoch`, `CallId` — how sessions and calls are told apart
* `Ticket` — who waits in line
* `Bus`, `Bus.posted` — the bus, and all messages ever posted
* `Bus.join`, `Bus.leave`, `Bus.mayPost`, `Bus.post` — what deliverers do
* `Bus.receive`, `Bus.drop` — what the receiver does

## Main results

* `Bus.posted_post`, `Bus.posted_drop` — what was posted stays on record
-/

namespace StompRelay

/-- The place of a session among all that ever were. -/
abbrev Place := Nat

/-- The number that a session draws when it is opened. -/
abbrev Epoch := Nat

/-- The number of a call among all that were ever started. -/
abbrev CallId := Nat

/-- Who waits to deliver a message: the reader of a session, or a call. -/
inductive Ticket where
  | reader (e : Place)
  | call (i : CallId)
  deriving DecidableEq, Repr

/-- The queue of messages on their way to clients. -/
structure Bus where
  /-- How many messages may be on the way. -/
  capacity : Nat
  /-- The messages that have been received, or lost with the receiver, latest first. -/
  received : List Message
  /-- The messages on the way. -/
  queue : List Message
  /-- Who waits to deliver, in order of arrival. -/
  line : List Ticket
  /-- Whether the receiver has gone. -/
  closed : Bool

namespace Bus

/-- The most messages that any bus can hold: a number of 61 bits. -/
def maxCapacity : Nat := 2305843009213693951

/-- A bus on which nothing was posted; it has room for at least one message. -/
def empty (capacity : Nat) : Bus := ⟨max 1 capacity, [], [], [], false⟩

/-- All messages ever posted. -/
def posted (b : Bus) : List Message := b.received.reverse ++ b.queue

/-- Goes to the end of the line. -/
def join (b : Bus) (t : Ticket) : Bus := { b with line := b.line ++ [t] }

/-- Gives a place in the line up. -/
def leave (b : Bus) (t : Ticket) : Bus := { b with line := b.line.filter (· ≠ t) }

/-- Whether the holder of a ticket may post now: it is first in line and there is room. -/
def mayPost (b : Bus) (t : Ticket) : Bool :=
  b.line.head? = some t && b.queue.length < b.capacity

/-- Posts a message and leaves the line. -/
def post (b : Bus) (t : Ticket) (m : Message) : Bus :=
  { b.leave t with queue := b.queue ++ [m] }

/-- Receives the next message, if there is one. -/
def receive (b : Bus) : Option (Message × Bus) :=
  match b.queue with
  | [] => none
  | m :: queue => some (m, { b with received := m :: b.received, queue := queue })

/-- Drops the receiver; messages on the way are lost. -/
def drop (b : Bus) : Bus :=
  { b with closed := true, received := b.queue.reverse ++ b.received, queue := [] }

@[simp] theorem posted_post (b : Bus) (t : Ticket) (m : Message) :
    (b.post t m).posted = b.posted ++ [m] := by
  simp [posted, post, leave]

@[simp] theorem posted_drop (b : Bus) : b.drop.posted = b.posted := by
  simp [posted, drop]

end Bus

end StompRelay
