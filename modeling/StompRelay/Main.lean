import Std.Async.DNS
import Std.Async.TCP
import Std.Async.Timer
import Std.Sync.Mutex
import StompRelay.CommandLine.Startup
import StompRelay.Relay.Service
/-!
# The program

The relay between standard input, standard output and the network. The relay itself is a state that
moves on its own; here it is told what arrives, and what it sends is taken away. The state is shared
by the thread that reads standard input and by the tasks that wait for the network; whoever changes
it also lets it come to rest, prints what was posted and starts what the connections have to do.

## Main definitions

* `World`, `Shared.update` — the relay with its connections, and how they are changed
* `Shared.serve` — the events of standard input are handled one after the other
* `main` — the program
-/

namespace StompRelay

open Std.Async (Async)
open Std.Async.TCP.Socket (Client)

/-! ### Connections -/

/-- A connection to the broker, and what is under way on it. -/
structure Link where
  place : Place
  client : Client
  /-- Bytes are being sent. -/
  sending : Bool
  /-- No bytes will be sent any more. -/
  ended : Bool
  /-- Nothing will be received any more. -/
  deaf : Bool

/-- The relay with its connections. -/
structure World where
  relay : Relay
  links : List Link

/-- What a connection has to do. -/
inductive Errand where
  | send (l : Link) (bs : Bytes)
  | finish (l : Link)
  | hangUp (l : Link)

/-- How many bytes for the broker may wait to be sent. -/
def linkCapacity : Nat := 65536

/-- Changes the connection of a session. -/
def World.modifyLink (w : World) (e : Place) (f : Link → Link) : World :=
  { w with links := w.links.map fun l => if l.place = e then f l else l }

/-- What a connection has to do now. -/
def World.errandsOf (w : World) (l : Link) : List Errand :=
  let waiting := w.relay.brokerWaiting l.place
  let outgoing :=
    if l.sending || l.ended then []
    else if !waiting.isEmpty then [.send l waiting]
    else if w.relay.endedByRelay l.place then [.finish l]
    else []
  if !l.deaf && w.relay.released l.place then outgoing ++ [.hangUp l] else outgoing

/-- The connections with an errand under way. -/
def World.begin (w : World) : Errand → World
  | .send l _ => w.modifyLink l.place fun l => { l with sending := true }
  | .finish l => w.modifyLink l.place fun l => { l with ended := true }
  | .hangUp l => w.modifyLink l.place fun l => { l with deaf := true }

/-! ### Changing the world -/

/-- What the threads and tasks of the program share. -/
structure Shared where
  setup : Setup
  world : Std.Mutex World
  changed : Std.Condvar

/-- The relay comes to rest; the lines of the messages that were posted, and the errands. -/
def World.rest (setup : Setup) (w : World) : String × List Errand × World :=
  let (ms, relay) := (w.relay.settle setup).receiveAll setup none
  let w := { w with relay := relay }
  let errands := w.links.flatMap w.errandsOf
  (String.ofList (Message.toLines ms), errands, errands.foldl World.begin w)

/-- Prints a text at once. -/
def printText (text : String) : IO Unit := do
  let out ← IO.getStdout
  out.putStr text
  out.flush

mutual

/-- Changes the world, lets the relay come to rest and starts all errands. -/
partial def Shared.update {α : Type} (sh : Shared) (f : World → α × World) : IO α := do
  let (a, errands) ← sh.world.atomically do
    let (a, w) := f (← get)
    let (text, errands, w) := w.rest sh.setup
    printText text
    set w
    return (a, errands)
  sh.changed.notifyAll
  errands.forM sh.run
  return a

/-- Starts an errand. -/
partial def Shared.run (sh : Shared) (errand : Errand) : IO Unit :=
  match errand with
  | .send l bs => do
    let task : Async Unit := do
      let sent ← try
          l.client.send (ByteArray.mk bs.toArray)
          pure true
        catch _ => pure false
      sh.update fun w =>
        let relay :=
          if sent then w.relay.brokerTake l.place bs.length else w.relay.brokerDrop l.place
        ((), { w with relay := relay }.modifyLink l.place fun l =>
          { l with sending := false, ended := !sent })
    discard task.asTask
  | .finish l => do
    let task : Async Unit := try l.client.shutdown catch _ => pure ()
    discard task.asTask
  | .hangUp l => l.client.native.cancelRecv

end

/-- Passes bytes from the broker to the relay, until no reader takes them. -/
partial def Shared.pass (sh : Shared) (e : Place) (bs : Bytes) : IO Bool := do
  if bs.isEmpty then return true
  let rest ← sh.update fun w =>
    let (rest, relay) := w.relay.sendAll sh.setup e bs
    (rest, { w with relay := relay })
  if rest.length = bs.length then return false
  sh.pass e rest

/-- Receives from a connection until the broker has closed it or no reader is left. -/
partial def Shared.listen (sh : Shared) (e : Place) (client : Client) : Async Unit := do
  let received : Except IO.Error (Option ByteArray) ←
    try pure (.ok (← client.recv? 8192)) catch fault => pure (.error fault)
  match received with
  | .ok (some bytes) =>
    if ← sh.pass e bytes.toList then sh.listen e client
  | .ok none => sh.update fun w => ((), { w with relay := w.relay.brokerDrop e })
  | .error _ => sh.update fun w => ((), { w with relay := w.relay.breakInput e })

/-! ### Opening connections -/

/-- Connects to the first of some addresses that accepts. -/
def connectAny (broker : Broker) : List Std.Net.IPAddr → Async (Except String Client)
  | [] => return .error "could not resolve to any address"
  | ip :: ips => do
    let port := UInt16.ofNat broker.port
    let address : Std.Net.SocketAddress := match ip with
      | .v4 ip => .v4 ⟨ip, port⟩
      | .v6 ip => .v6 ⟨ip, port⟩
    try
      let client ← Client.mk
      client.connect address
      if broker.noDelay then client.noDelay
      return .ok client
    catch e =>
      if ips.isEmpty then return .error (toString e) else connectAny broker ips

/-- Connects to the broker in the time that the settings allow. -/
def connect (broker : Broker) : IO (Except String Client) := do
  let attempt : Async (Except String Client) := do
    try
      connectAny broker (← Std.Async.DNS.getAddrInfo broker.host (toString broker.port)).toList
    catch e => return .error (toString e)
  let timeout : Async (Except String Client) := do
    let seconds := min broker.connectTimeout 4294967296
    Std.Async.sleep (Std.Time.Millisecond.Offset.ofNat (1000 * seconds))
    return .error "connect timed out"
  (Async.race attempt timeout).block

/-- Opens the connection that a call waits for, and starts to listen to it. -/
def Shared.dial (sh : Shared) (broker : Broker) (i : CallId) : IO Unit := do
  match ← connect broker with
  | .error reason =>
    sh.update fun w => ((), { w with relay := w.relay.dialed sh.setup i (.error reason) })
  | .ok client =>
    let e ← sh.update fun w =>
      let e := w.relay.sessions.length
      (e, { relay := w.relay.dialed sh.setup i (.ok linkCapacity)
            links := ⟨e, client, false, false, false⟩ :: w.links })
    discard (sh.listen e client).asTask

/-! ### Serving -/

/-- Waits until something holds of the world. -/
def Shared.await {α : Type} (sh : Shared) (f : World → Option α) : IO (Option α) :=
  sh.world.atomicallyOnce sh.changed (do return (f (← get)).isSome) (do return f (← get))

/-- An event is handled to its end. -/
def Shared.handle (sh : Shared) (broker : Broker) (event : Event) : IO Unit := do
  let i ← sh.update fun w =>
    (w.relay.calls.length, { w with relay := w.relay.start event.purpose })
  if (← sh.await fun w => some (w.relay.dials i)) = some true then sh.dial broker i
  match ← sh.await fun w => w.relay.outcome? i with
  | some (.failed f) => IO.eprintln f.message
  | _ => return

/-- Handles the events of standard input, up to a line that is not text. -/
partial def Shared.serve (sh : Shared) (broker : Broker) (input : IO.FS.Stream) : IO Unit := do
  let line ← try input.getLine catch _ => pure ""
  if line.isEmpty then return
  (BusInput.events (Utf8.encodeText line)).forM (sh.handle broker)
  sh.serve broker input

/-- Gives the connections some time to send what is left. -/
def Shared.drain (sh : Shared) : Nat → IO Unit
  | 0 => return
  | n + 1 => do
    let waits ← sh.await fun w => some (w.links.any fun l => l.sending || !l.ended)
    if waits = some true then
      IO.sleep 10
      sh.drain n

/-- The relay serves until the end of standard input, then ends all sessions. -/
def serve (c : Config) : IO Unit := do
  let sh : Shared := ⟨.ofConfig c, ← Std.Mutex.new ⟨.empty c.relay.busCapacity, []⟩,
    ← Std.Condvar.new⟩
  sh.serve c.broker (← IO.getStdin)
  sh.update fun w => ((), { w with relay := w.relay.start .teardownAll })
  sh.drain 500

/-! ### Starting -/

/-- What is found under a path. -/
def fileAt (path : String) : IO File := do
  try
    return .regular (← IO.FS.readBinFile path).toList
  catch
    | .noFileOrDirectory _ _ _ => return .absent
    -- what stands on the way to a file is a directory, or there is no such file
    | .inappropriateType _ code _ => return if code = 21 then .directory else .absent
    | .permissionDenied _ _ _ => return .locked "Permission denied (os error 13)"
    | e => return .locked (toString e)

/-- Why the program could not start, for those who read standard error. -/
def Startup.Halt.complaint : Startup.Halt → Option String
  | .options .misuse => some "error: unexpected arguments; for more information, try '--help'"
  | .options _ => none
  | .filter f => some ("Error: " ++ f.message)
  | .config f => some ("Error: " ++ f.message)
  | .busTooLarge => some "the bus is too large"

/-- What the program finds at its start. -/
def surroundings (args : List String) : IO Surroundings := do
  let names := ["STOMPGATE_CONFIG", "STOMPGATE_BROKER_HOST", "STOMPGATE_BROKER_PORT",
    "STOMPGATE_CONNECT_TIMEOUT_SECS", "STOMPGATE_MAX_FRAME_BYTES", "RUST_LOG"]
  let values ← names.mapM fun name => return (name, ← IO.getEnv name)
  let env : Environment := fun name => (values.lookup name).join
  let globalPath :=
    Config.globalPath (← IO.getEnv "XDG_CONFIG_HOME") ((← IO.getEnv "HOME").getD "")
  let named := match Options.parse (env "STOMPGATE_CONFIG") args with
    | .ok o => o.configPath.toList
    | .error _ => []
  let files ← (globalPath :: named).mapM fun path => return (path, ← fileAt path)
  return ⟨env, globalPath, fun path => (files.lookup path).getD .absent⟩

/-- The program ends with the number of an exit code. -/
def run (args : List String) : IO UInt32 := do
  let w ← surroundings args
  match Startup.config w args with
  | .ok c =>
    serve c
    return UInt32.ofNat ExitCode.success.number
  | .error halt =>
    printText (String.join ((halt.output w).map fun line => line ++ "\n"))
    halt.complaint.forM fun text => IO.eprintln text
    return UInt32.ofNat halt.exitCode.number

end StompRelay

/-- The program. -/
def main (args : List String) : IO UInt32 := StompRelay.run args
