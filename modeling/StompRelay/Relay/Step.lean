import StompRelay.Message.Codec
import StompRelay.Relay.State
/-!
# Steps of the relay

The readers and the calls move independently of each other, each one step at a time. Besides, the
world outside may start calls, open or refuse connections, send, read, drop its ends and break what
the relay reads from, and receive from the bus. The possible runs of the relay are all orders of
such steps.

## Main definitions

* `Setup` — what does not change while the relay runs
* `Relay.stepReader`, `Relay.stepCall` — one step of a reader and of a call
* `Relay.Actor`, `Relay.step?` — who moves, and to which state
* `Relay.start`, `Relay.attach`, `Relay.dialed` — calls and connections from outside
* `Relay.brokerPut`, `Relay.brokerTake`, `Relay.brokerDrop`, `Relay.breakInput`, `Relay.receive`,
  `Relay.dropBus`, `Relay.letGo`, `Relay.forget` — other moves from outside
* `Relay.Move`, `Relay.move?` — what may happen next, and the state after it
* `Relay.Step`, `Relay.Reachable` — one step of either kind, and the states of all runs
* `Relay.Quiet` — no reader and no call can move
-/

namespace StompRelay

/-- What does not change while the relay runs. -/
structure Setup where
  codec : Codec
  /-- The largest frame accepted from the broker. -/
  maxFrameBytes : Nat
  /-- Where connections are opened. -/
  address : String

namespace Relay

/-! ### Readers -/

/-- The last message of a session whose connection broke off. -/
def lostConnection : String := "Lost connection"

/-- The last message of a session whose broker sent no frame. -/
def malformedFrame (id : SessionId) (f : Frame.Fault) : String :=
  "Malformed frame: " ++ (Failure.frameSyntax id f).message

/-- The last message of a session whose broker sent too large a frame. -/
def frameTooLarge (limit : Nat) : String :=
  "Frame too large (limit " ++ toString limit ++ " bytes)"

/-- The reader of a session gets in line for the bus. -/
def joinBus (s : Relay) (e : Place) (r : Reader) : Relay :=
  { s.setReader e r with bus := s.bus.join (.reader e) }

/-- The reader of a session stops and gets in line with a last message. -/
def notify (s : Relay) (e : Place) (id : SessionId) (text : String) : Relay :=
  s.joinBus e (.notifying (.notice id text))

/-- The reader of a session leaves the line. -/
def leaveBus (s : Relay) (e : Place) (r : Reader) : Relay :=
  { s.setReader e r with bus := s.bus.leave (.reader e) }

/-- The reader of a session posts the message that it waited with. -/
def postFrom (s : Relay) (e : Place) (m : Message) (r : Reader) : Relay :=
  { s.setReader e r with bus := s.bus.post (.reader e) m }

/-- The effect of one byte on the reader of a session. -/
def readByte (setup : Setup) (s : Relay) (e : Place) (x : Session) (frame : Assembly) (b : UInt8)
    (chunk : Bytes) : Relay :=
  match frame.feed b with
  | .more frame => s.setReader e (.reading chunk frame)
  | .tooLarge => s.notify e x.id (frameTooLarge setup.maxFrameBytes)
  | .complete content =>
    match Codec.decode x.id content with
    | .error f => s.notify e x.id (malformedFrame x.id f)
    | .ok none => s.setReader e (.reading chunk (.empty setup.maxFrameBytes))
    | .ok (some m) => s.joinBus e (.delivering m chunk)

/-- The reader of a session fetches bytes from the connection; none while there is nothing to
fetch. -/
def fetch (s : Relay) (e : Place) (x : Session) (frame : Assembly) : Option Relay :=
  -- what was sent before the broker went, or before fetching failed, is still read
  if x.toRelay.waiting.isEmpty then
    if x.inputFailed then some (s.notify e x.id lostConnection)
    else if x.brokerGone then some (s.notify e x.id lostConnection)
    else none
  else
    let (chunk, toRelay) := x.toRelay.take Session.bufferSize
    some (s.modifySession e fun x =>
      { x with toRelay := toRelay, reader := .reading chunk frame })

/-- One step of the reader of a session; none while it cannot move. The close signal comes first
wherever it is looked at; a last message is not given up for it. -/
def stepReader (setup : Setup) (s : Relay) (e : Place) (x : Session) : Option Relay :=
  match x.reader with
  | .unstarted | .absent | .finished => none
  | .reading chunk frame =>
    if x.closed then some (s.setReader e .ending)
    else
      match chunk with
      | b :: chunk => some (s.readByte setup e x frame b chunk)
      | [] => s.fetch e x frame
  | .delivering m chunk =>
    if x.closed || s.bus.closed then some (s.leaveBus e .ending)
    else if s.bus.mayPost (.reader e) then
      some (s.postFrom e m (.reading chunk (.empty setup.maxFrameBytes)))
    else none
  -- the close signal is not looked at any more
  | .notifying m =>
    if s.bus.closed then some (s.leaveBus e .ending)
    else if s.bus.mayPost (.reader e) then some (s.postFrom e m .ending)
    else none
  | .ending =>
    match s.teardown? x.id (some x.epoch) with
    | some (_, s) => some (s.setReader e .shutting)
    -- somebody else has ended the session, and closes it
    | none => some (s.setReader e .finished)
  | .shutting => some (s.modifySession e fun x => { x.close with reader := .finished })

/-! ### Calls -/

/-- A call registers a session under an id; the input of a session that is refused is dropped. -/
def stepRegister (s : Relay) (i : CallId) (id : SessionId) (e : Place) : Relay :=
  match s.registered? id with
  | some _ => (s.setReader e .finished).setStage i (.done (.failed (.sessionAlreadyExists id)))
  | none => { s.setStage i (.starting e) with registry := s.registry ++ [(id, e)] }

/-- A call starts the reader of a session that it has registered. -/
def stepStart (setup : Setup) (s : Relay) (i : CallId) (p : Purpose) (e : Place) : Relay :=
  let reading : Reader := .reading [] (.empty setup.maxFrameBytes)
  match p with
  | .attach _ reads holds =>
    (s.modifySession e fun x =>
      { x with reader := if reads then reading else .absent, held := holds }).setStage i (.done .ok)
  | _ => (s.setReader e reading).setStage i .finding

/-- A call ends its write. -/
def endWrite (s : Relay) (i : CallId) (e : Place) (stage : Stage) : Relay :=
  (s.modifySession e fun x => x.leave i).setStage i stage

/-- A call that has its turn goes on writing; none while the connection takes nothing. -/
def stepWrite (s : Relay) (i : CallId) (p : Purpose) (e : Place) (rest : Bytes) : Option Relay :=
  match s.sessions[e]? with
  | none => none
  | some x =>
    -- the close signal wins over everything that could go on
    if x.closed then some (s.endWrite i e (p.afterBreak e .closed))
    else if !rest.isEmpty && x.hasSpace rest then
      some ((s.modifySession e fun x => x.accept rest).setStage i (.writing e []))
    -- the write has ended when nothing of it, nor of earlier ones, is left
    else if rest.isEmpty && x.unsent.isEmpty then some (s.endWrite i e (p.conclude .ok))
    else if x.broken then some (s.endWrite i e (p.afterBreak e .brokenPipe))
    -- a frame too large to be accepted goes into the connection directly
    else
      (x.push? rest).map fun (rest, x) =>
        let s := s.modifySession e fun _ => x
        -- nothing comes between the last bytes of a frame and the end of its write
        if rest.isEmpty && x.unsent.isEmpty then s.endWrite i e (p.conclude .ok)
        else s.setStage i (.writing e rest)

/-- A call that has removed sessions goes on closing them. -/
def stepClose (s : Relay) (i : CallId) (p : Purpose) (o : Outcome) (final : Bool) :
    List Place → Relay
  | [] => s.setStage i (if final then .done o else p.conclude o)
  | e :: es => (s.modifySession e Session.close).setStage i (.closing es o final)

/-- A call turns its message into a frame. -/
def stepEncode (setup : Setup) (s : Relay) (i : CallId) (p : Purpose) (e : Place) : Option Relay :=
  p.sends?.map fun (m, c) =>
    match setup.codec.encode m c with
    | .error error => s.setStage i (p.conclude (.failed (.conversion m.session error)))
    | .ok frame => s.setStage i (.asking e frame)

/-- A call waits in line for the bus. -/
def stepPost (s : Relay) (i : CallId) (m : Message) : Option Relay :=
  if s.bus.closed then
    some ({ s with bus := s.bus.leave (.call i) }.setStage i
      (.done (.failed (.busClosed m.session))))
  else if s.bus.mayPost (.call i) then
    some ({ s with bus := s.bus.post (.call i) m }.setStage i (.done .ok))
  else none

/-- One step of a call; none while it cannot move. -/
def stepCall (setup : Setup) (s : Relay) (i : CallId) (c : Call) : Option Relay :=
  let p := c.purpose
  let id := p.id
  match c.stage with
  | .admitting =>
    match s.registered? id with
    | some _ => some (s.setStage i (.done (.failed (.sessionAlreadyExists id))))
    | none => some (s.setStage i .dialing)
  | .dialing => none
  | .registering e => some (s.stepRegister i id e)
  | .starting e => some (s.stepStart setup i p e)
  | .finding =>
    match s.registered? id with
    | some e => some (s.setStage i (.encoding e))
    | none => some (s.setStage i (p.conclude (.failed (.sessionNotFound id))))
  | .encoding e => s.stepEncode setup i p e
  | .asking e frame =>
    some ((s.modifySession e fun x => { x with writers := x.writers ++ [i] }).setStage i
      (.waiting e frame))
  | .waiting e frame =>
    match s.sessions[e]? with
    | none => none
    | some x =>
      if x.writers.head? = some i then
        if x.closed then some (s.endWrite i e (p.afterBreak e .closed))
        else some (s.setStage i (.writing e frame))
      else none
  | .writing e rest => s.stepWrite i p e rest
  | .failing e f =>
    match s.sessions[e]? with
    | none => none
    | some x =>
      match s.teardown? id (some x.epoch) with
      | some (_, s) => some (s.setStage i (.closing [e] (.failed (.socketIo id f)) false))
      | none => some (s.setStage i (p.conclude (.failed (.socketIo id f))))
  | .removing only found missed =>
    match s.teardown? id only with
    | some (e, s) => some (s.setStage i (.closing [e] found true))
    | none => some (s.setStage i (.done missed))
  | .clearing =>
    -- all close signals fire before the first session is closed
    let es := s.registeredPlaces
    some ({ s.cancelAll es with registry := [] }.setStage i (.closing es (.ended es.length) true))
  | .closing es o final => some (s.stepClose i p o final es)
  | .joining => some ({ s with bus := s.bus.join (.call i) }.setStage i .posting)
  | .posting =>
    match p with
    | .deliver m => s.stepPost i m
    | _ => none
  | .done _ => none

/-! ### Who moves -/

/-- Who may move by itself. -/
inductive Actor where
  | reader (e : Place)
  | call (i : CallId)
  deriving DecidableEq, Repr

/-- One step of a reader or a call; none while it cannot move. -/
def step? (setup : Setup) (s : Relay) : Actor → Option Relay
  | .reader e => s.sessions[e]?.bind fun x => s.stepReader setup e x
  | .call i => s.calls[i]?.bind fun c => s.stepCall setup i c

/-! ### Moves from outside -/

/-- Starts a call; its number is the number of calls before it. -/
def start (s : Relay) (p : Purpose) : Relay :=
  { s with calls := s.calls ++ [⟨p, p.start s.sessions.length⟩] }

/-- Opens a connection with pipes of the given capacity and starts a call that registers it. -/
def attach (s : Relay) (id : SessionId) (capacity : Nat) (reads holds : Bool) : Relay :=
  (s.start (.attach id reads holds)).openSession id capacity

/-- Answers a call that waits for a connection: with the capacity of its pipes, or with the reason
for which it was not opened. -/
def dialed (setup : Setup) (s : Relay) (i : CallId) (answer : Except String Nat) : Relay :=
  match s.calls[i]? with
  | some ⟨p, .dialing⟩ =>
    let id := p.id
    match answer with
    | .error reason =>
      s.setStage i (.done (.failed (.connectionEstablishment id setup.address reason)))
    | .ok capacity => (s.setStage i (.registering s.sessions.length)).openSession id capacity
  | _ => s

/-- The broker puts bytes into a connection. -/
def brokerPut (s : Relay) (e : Place) (bs : Bytes) : Relay :=
  s.modifySession e fun x => { x with toRelay := x.toRelay.put bs }

/-- The broker takes at most `n` bytes out of a connection. -/
def brokerTake (s : Relay) (e : Place) (n : Nat) : Relay :=
  s.modifySession e fun x => { x with toBroker := (x.toBroker.take n).2 }

/-- The broker drops its end of a connection. -/
def brokerDrop (s : Relay) (e : Place) : Relay :=
  s.modifySession e fun x => { x with brokerGone := true }

/-- Fetching from a connection fails from now on. -/
def breakInput (s : Relay) (e : Place) : Relay :=
  s.modifySession e fun x => { x with inputFailed := true }

/-- The next message is received from the bus, if there is one. -/
def receive (s : Relay) : Option (Message × Relay) :=
  s.bus.receive.map fun (m, bus) => (m, { s with bus := bus })

/-- The receiver of the bus goes. -/
def dropBus (s : Relay) : Relay := { s with bus := s.bus.drop }

/-- A session is no longer held outside the relay. -/
def letGo (s : Relay) (e : Place) : Relay := s.modifySession e fun x => { x with held := false }

/-- The entry of an id is removed; its session is not closed. -/
def forget (s : Relay) (id : SessionId) : Relay :=
  { s with registry := s.registry.filter (·.1 ≠ id) }

/-- Whether a call may be started from outside as things are: a session is registered only along
with its connection, and a session that is written to or closed by its place is there. -/
def mayStart (s : Relay) : Purpose → Bool
  | .attach _ _ _ => false
  | .write e _ | .close e => e < s.sessions.length
  | _ => true

/-- Whether the broker may put bytes into a connection: both ends are there, they would still be
read, and there is room. -/
def mayPut (s : Relay) (e : Place) (bs : Bytes) : Bool :=
  !s.released e && s.sessions[e]?.any fun x => !x.inputEnded && bs.length ≤ x.toRelay.room

/-! ### Runs -/

/-- What may happen next: somebody in the relay moves, or the world outside does something. -/
inductive Move where
  | act (a : Actor)
  | start (p : Purpose)
  | attach (id : SessionId) (capacity : Nat) (reads holds : Bool)
  | dialed (i : CallId) (answer : Except String Nat)
  | brokerPut (e : Place) (bs : Bytes)
  | brokerTake (e : Place) (n : Nat)
  | brokerDrop (e : Place)
  | breakInput (e : Place)
  | receive
  | dropBus
  | letGo (e : Place)
  | forget (id : SessionId)

/-- The state after a move; none where it is not possible. -/
def move? (setup : Setup) (s : Relay) : Move → Option Relay
  | .act a => s.step? setup a
  | .start p => if s.mayStart p then some (s.start p) else none
  | .attach id capacity reads holds => some (s.attach id capacity reads holds)
  | .dialed i answer => some (s.dialed setup i answer)
  | .brokerPut e bs => if s.mayPut e bs then some (s.brokerPut e bs) else none
  | .brokerTake e n => some (s.brokerTake e n)
  | .brokerDrop e => some (s.brokerDrop e)
  | .breakInput e => some (s.breakInput e)
  | .receive => s.receive.map Prod.snd
  | .dropBus => some s.dropBus
  | .letGo e => some (s.letGo e)
  | .forget id => some (s.forget id)

/-- One step of the relay or of the world outside. -/
def Step (setup : Setup) (s t : Relay) : Prop := ∃ m, s.move? setup m = some t

/-- The states of all runs from a relay at its start. -/
inductive Reachable (setup : Setup) (busCapacity : Nat) : Relay → Prop where
  | empty : Reachable setup busCapacity (.empty busCapacity)
  | step {s t : Relay} : Reachable setup busCapacity s → Step setup s t →
    Reachable setup busCapacity t

/-- No reader and no call can move. -/
def Quiet (setup : Setup) (s : Relay) : Prop := ∀ a, s.step? setup a = none

end Relay

end StompRelay
