import StompRelay.Relay.Step
/-!
# Coming to rest

Left alone, the relay comes to rest: every step uses up some of the work that is ahead, and no step
makes more of it. What happens until then is one of the possible runs: whoever moves goes on as long
as it can, then the first who can move does, readers before calls and older ones before newer ones.

## Main definitions

* `Relay.work` — a bound on the steps ahead
* `Relay.next?` — the next move
* `Relay.settle` — the state in which the relay comes to rest
-/

namespace StompRelay

/-! ### The work ahead -/

/-- The work of a reader. A byte of a chunk may take a step to be read and a step to be
delivered. -/
def Reader.work : Reader → Nat
  | .unstarted | .absent | .finished => 0
  | .shutting => 1
  | .ending => 2
  | .notifying _ => 3
  | .reading chunk _ => 4 + 2 * chunk.length
  | .delivering _ chunk => 5 + 2 * chunk.length

/-- The work in a session. A byte in the connection may take one more step, to be fetched. -/
def Session.work (x : Session) : Nat :=
  x.reader.work + 3 * x.toRelay.waiting.length + x.unsent.length

/-- The length of the frame that a call sends. -/
def Purpose.frameLength (setup : Setup) (p : Purpose) : Nat :=
  match p.sends? with
  | none => 0
  | some (m, c) =>
    match setup.codec.encode m c with
    | .ok frame => frame.length
    | .error _ => 0

/-- The work of a call, where at most so many sessions may have to be ended at once. A byte of a
frame may take a step to be accepted and a step to be sent. -/
def Call.work (setup : Setup) (registered : Nat) (c : Call) : Nat :=
  match c.stage with
  | .done _ | .dialing => 0
  | .admitting | .posting => 1
  | .joining => 2
  | .removing _ _ _ => 3
  | .closing es _ final => (if final then 1 else 4) + es.length
  | .failing _ _ => 6
  | .writing _ rest => 7 + 2 * rest.length
  | .waiting _ bytes => 8 + 2 * bytes.length
  | .asking _ bytes => 9 + 2 * bytes.length
  | .encoding _ => 10 + 2 * c.purpose.frameLength setup
  | .finding => 11 + 2 * c.purpose.frameLength setup
  | .starting _ => 16 + 2 * c.purpose.frameLength setup
  | .registering _ => 17 + 2 * c.purpose.frameLength setup
  | .clearing => 2 + registered

/-- Whether a call is about to register a session. -/
def Stage.registers : Stage → Bool
  | .registering _ => true
  | _ => false

namespace Relay

/-- How many sessions may have to be ended at once. -/
def registrable (s : Relay) : Nat :=
  s.registry.length + s.calls.countP fun c => c.stage.registers

/-- A bound on the steps ahead. -/
def work (setup : Setup) (s : Relay) : Nat :=
  s.sessions.foldr (fun x n => x.work + n) 0
    + s.calls.foldr (fun c n => c.work setup s.registrable + n) 0

/-! ### Running -/

/-- The move of the first reader that can move. -/
def nextReader? (setup : Setup) (s : Relay) : Option (Actor × Relay) :=
  s.sessions.zipIdx.findSome? fun (x, e) => (s.stepReader setup e x).map fun t => (.reader e, t)

/-- The move of the first call that can move. -/
def nextCall? (setup : Setup) (s : Relay) : Option (Actor × Relay) :=
  s.calls.zipIdx.findSome? fun (c, i) => (s.stepCall setup i c).map fun t => (.call i, t)

/-- The next move, and whose it is. -/
def next? (setup : Setup) (last : Option Actor) (s : Relay) : Option (Actor × Relay) :=
  (last.bind fun a => (s.step? setup a).map fun t => (a, t))
    <|> s.nextReader? setup <|> s.nextCall? setup

/-- The state after at most `n` moves. -/
def settleWithin (setup : Setup) : Nat → Option Actor → Relay → Relay
  | 0, _, s => s
  | n + 1, last, s =>
    match s.next? setup last with
    | none => s
    | some (a, t) => settleWithin setup n (some a) t

/-- The state in which the relay comes to rest. -/
def settle (setup : Setup) (s : Relay) : Relay := settleWithin setup (s.work setup) none s

end Relay

end StompRelay
