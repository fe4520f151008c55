import StompRelay.Text.Utf8
/-!
# Byte pipes

One direction of a connection: bytes go in at one end and come out at the other in the same order,
and only so many may be on the way. A pipe knows everything that ever passed through it.

## Main definitions

* `Pipe` — a pipe, with what is on the way and what has come out
* `Pipe.sent`, `Pipe.room` — all that was ever put in, and how much more may be put in now
* `Pipe.put`, `Pipe.take` — its two ends

## Main results

* `Pipe.sent_put`, `Pipe.sent_take` — nothing is lost or reordered
-/

namespace StompRelay

/-- One direction of a connection. -/
structure Pipe where
  /-- How many bytes may be on the way. -/
  capacity : Nat
  /-- The bytes that have come out, latest first. -/
  taken : Bytes
  /-- The bytes on the way. -/
  waiting : Bytes
  deriving DecidableEq, Repr

namespace Pipe

/-- A pipe into which nothing has been put. -/
def empty (capacity : Nat) : Pipe := ⟨capacity, [], []⟩

/-- All bytes ever put in. -/
def sent (p : Pipe) : Bytes := p.taken.reverse ++ p.waiting

/-- How many more bytes may be put in now. -/
def room (p : Pipe) : Nat := p.capacity - p.waiting.length

/-- Puts bytes in. -/
def put (p : Pipe) (bs : Bytes) : Pipe := { p with waiting := p.waiting ++ bs }

/-- Takes at most `n` bytes out: those bytes, and the pipe without them. -/
def take (p : Pipe) (n : Nat) : Bytes × Pipe :=
  (p.waiting.take n,
    { p with taken := (p.waiting.take n).reverse ++ p.taken, waiting := p.waiting.drop n })

@[simp] theorem sent_put (p : Pipe) (bs : Bytes) : (p.put bs).sent = p.sent ++ bs := by
  simp [sent, put]

@[simp] theorem sent_take (p : Pipe) (n : Nat) : (p.take n).2.sent = p.sent := by
  simp [sent, take, List.append_assoc, List.take_append_drop]

end Pipe

end StompRelay
