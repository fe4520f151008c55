import StompRelay.Relay.Assembly
import StompRelay.Relay.Bus
import StompRelay.Relay.Pipe
/-!
# Sessions

A session is one connection to the broker on behalf of a client, from the moment the connection is
open. Calls write frames to it one after the other, in the order in which they asked to. A reader
of its own turns what the broker sends into messages for the client.

## Main definitions

* `Reader` — how far the reader of a session is
* `Session` — a session
* `Session.close` — shuts the write side, unless a write holds it
* `Session.push?`, `Session.accept` — how a frame gets into the connection

## Main results

* `Session.eq_of_push?` — bytes get into the connection in order
-/

namespace StompRelay

/-- How far the reader of a session is. -/
inductive Reader where
  /-- The input is still with the call that opened the session. -/
  | unstarted
  /-- There is none: the input stays open and nobody reads it. -/
  | absent
  /-- It reads. Bytes fetched from the connection are in `chunk`, and `frame` is under way. -/
  | reading (chunk : Bytes) (frame : Assembly)
  /-- It waits for room on the bus for a frame; it will go on with `chunk`. -/
  | delivering (m : Message) (chunk : Bytes)
  /-- It has stopped and waits for room on the bus for a last message. -/
  | notifying (m : Message)
  /-- It has stopped, and will end its session. -/
  | ending
  /-- It has ended its session, and will shut the write side. -/
  | shutting
  /-- It is done and has given the input up. -/
  | finished

/-- Whether the reader's end of the input is still there. -/
def Reader.holdsInput : Reader → Bool
  | .finished => false
  | _ => true

/-- One connection to the broker on behalf of a client. -/
structure Session where
  id : SessionId
  /-- Its number, by which it is told from others under the same id. -/
  epoch : Epoch
  /-- Whether the close signal has fired. -/
  closed : Bool
  toBroker : Pipe
  toRelay : Pipe
  /-- Whether the write side has been shut. -/
  shut : Bool
  /-- Whether the broker has dropped its end. -/
  brokerGone : Bool
  /-- Whether fetching fails, once all that was sent has been fetched. -/
  inputFailed : Bool
  /-- The calls that write or wait to write, in the order in which they asked to. -/
  writers : List CallId
  /-- Bytes accepted from a write and not yet in the connection. -/
  unsent : Bytes
  /-- Whether somebody outside the relay keeps the session. -/
  held : Bool
  reader : Reader

namespace Session

/-- A session over a new connection, with pipes of the given capacity. -/
def new (id : SessionId) (epoch : Epoch) (capacity : Nat) : Session :=
  ⟨id, epoch, false, .empty capacity, .empty capacity, false, false, false, [], [], false,
    .unstarted⟩

/-- How many bytes a session accepts before they have to go into the connection, and how many the
reader fetches at once. -/
def bufferSize : Nat := 8192

/-- Fires the close signal. -/
def cancel (x : Session) : Session := { x with closed := true }

/-- Fires the close signal and shuts the write side, unless a call holds or awaits it: then that
call finds the session closed. -/
def close (x : Session) : Session :=
  -- bytes accepted from an earlier write are given up with the write side
  if x.writers.isEmpty then { x with closed := true, shut := true } else x.cancel

@[simp] theorem closed_close (x : Session) : x.close.closed = true := by
  unfold close
  split <;> rfl

@[simp] theorem epoch_close (x : Session) : x.close.epoch = x.epoch := by
  unfold close
  split <;> rfl

@[simp] theorem reader_close (x : Session) : x.close.reader = x.reader := by
  unfold close
  split <;> rfl

@[simp] theorem toRelay_close (x : Session) : x.close.toRelay = x.toRelay := by
  unfold close
  split <;> rfl

@[simp] theorem brokerGone_close (x : Session) : x.close.brokerGone = x.brokerGone := by
  unfold close
  split <;> rfl

@[simp] theorem inputFailed_close (x : Session) : x.close.inputFailed = x.inputFailed := by
  unfold close
  split <;> rfl

/-- Whether nothing more is sent to the relay. -/
def inputEnded (x : Session) : Bool := x.inputFailed || x.brokerGone

@[simp] theorem inputEnded_close (x : Session) : x.close.inputEnded = x.inputEnded := by
  simp [inputEnded]

/-- Whether the connection takes no more bytes. -/
def broken (x : Session) : Bool := x.shut || x.brokerGone

/-- Puts the start of some bytes into the connection: what could not be put yet, and the session;
none while there is no room. -/
def put? (x : Session) (bs : Bytes) : Option (Bytes × Session) :=
  match bs.take x.toBroker.room with
  | [] => none
  | b :: chunk =>
    some (bs.drop x.toBroker.room, { x with toBroker := x.toBroker.put (b :: chunk) })

/-- Puts the start of what is accepted and not yet in the connection there, or of the given bytes
if there is no such thing: what remains of those bytes, and the session; none while there is no
room. -/
def push? (x : Session) (rest : Bytes) : Option (Bytes × Session) :=
  if x.unsent.isEmpty then x.put? rest
  else (x.put? x.unsent).map fun (unsent, x) => (rest, { x with unsent := unsent })

/-- Whether bytes are accepted at once, behind those accepted before: together they are no more than
the buffer holds, and they do not fill it alone. -/
def hasSpace (x : Session) (bs : Bytes) : Bool :=
  (bs.drop (bufferSize - x.unsent.length)).isEmpty && (bs.drop (bufferSize - 1)).isEmpty

/-- Accepts bytes. -/
def accept (x : Session) (bs : Bytes) : Session := { x with unsent := x.unsent ++ bs }

/-- Takes a call out of the queue of writers. -/
def leave (x : Session) (i : CallId) : Session :=
  { x with writers := x.writers.filter (· ≠ i) }

/-- What is put into the connection is the start of the bytes. -/
theorem eq_of_put? {x y : Session} {bs bs' : Bytes} (h : x.put? bs = some (bs', y)) :
    ∃ b chunk, bs = b :: chunk ++ bs'
      ∧ y = { x with toBroker := x.toBroker.put (b :: chunk) } := by
  unfold put? at h
  split at h
  · cases h
  · rename_i b chunk hb
    cases h
    exact ⟨b, chunk, by rw [← hb, List.take_append_drop], rfl⟩

/-- What a session puts into the connection is the start of what it has to put there. -/
theorem eq_of_push? {x y : Session} {rest rest' : Bytes}
    (h : x.push? rest = some (rest', y)) :
    ∃ bs, x.unsent ++ rest = bs ++ (y.unsent ++ rest')
      ∧ y = { x with unsent := y.unsent, toBroker := x.toBroker.put bs } := by
  unfold push? at h
  split at h
  · rename_i hu
    rw [List.isEmpty_iff] at hu
    obtain ⟨b, chunk, rfl, rfl⟩ := eq_of_put? h
    exact ⟨b :: chunk, by simp [hu], rfl⟩
  · obtain ⟨⟨unsent, z⟩, hz, heq⟩ := Option.map_eq_some_iff.mp h
    cases heq
    obtain ⟨b, chunk, hu, rfl⟩ := eq_of_put? hz
    exact ⟨b :: chunk, by simp [hu], rfl⟩

end Session

end StompRelay
