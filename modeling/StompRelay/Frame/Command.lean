/-!
# Commands

The commands of STOMP 1.2, of clients and of servers.

## Main definitions

* `Command`, `Command.token` — the commands and the words that name them on the wire
* `Command.ofToken?` — the command that a word names
* `Command.opensConnection` — whether a client logs in with it
* `Command.escapesHeaders` — whether its headers are escaped

## Main results

* `Command.ofToken?_eq_some_iff` — a word names a command exactly if it is the command's token
-/

namespace StompRelay

/-- A command of a frame. -/
inductive Command where
  | connect
  | stomp
  | send
  | subscribe
  | unsubscribe
  | ack
  | nack
  | begin
  | commit
  | abort
  | disconnect
  | connected
  | message
  | receipt
  | error
  deriving DecidableEq, Repr

namespace Command

/-- All commands. -/
def all : List Command :=
  [connect, stomp, send, subscribe, unsubscribe, ack, nack, begin, commit, abort, disconnect,
    connected, message, receipt, error]

/-- The word that names a command on the wire. -/
def token : Command → String
  | connect => "CONNECT"
  | stomp => "STOMP"
  | send => "SEND"
  | subscribe => "SUBSCRIBE"
  | unsubscribe => "UNSUBSCRIBE"
  | ack => "ACK"
  | nack => "NACK"
  | begin => "BEGIN"
  | commit => "COMMIT"
  | abort => "ABORT"
  | disconnect => "DISCONNECT"
  | connected => "CONNECTED"
  | message => "MESSAGE"
  | receipt => "RECEIPT"
  | error => "ERROR"

/-- The command that a word names. -/
def ofToken? (s : String) : Option Command := all.find? fun c => c.token = s

/-- A client logs in with this command, so it opens a connection to the broker. -/
def opensConnection : Command → Bool
  | connect | stomp => true
  | _ => false

/-- The frames of a login carry their headers verbatim; all other frames escape names and
values. -/
def escapesHeaders : Command → Bool
  | connect | stomp | connected => false
  | _ => true

theorem token_injective {c d : Command} (h : c.token = d.token) : c = d := by
  revert h
  cases c <;> cases d <;> decide

@[simp] theorem ofToken?_token (c : Command) : ofToken? c.token = some c := by
  cases c <;> decide

/-- A word names a command exactly if it is the command's token. -/
theorem ofToken?_eq_some_iff {s : String} {c : Command} : ofToken? s = some c ↔ s = c.token := by
  constructor
  · intro h
    have := List.find?_some h
    simpa using (of_decide_eq_true this).symm
  · rintro rfl
    exact ofToken?_token c

end Command

end StompRelay
