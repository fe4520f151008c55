import StompRelay.CommandLine.Options
import StompRelay.Config.Layers
import StompRelay.LogFilter
import StompRelay.Relay.Bus
/-!
# Starting the relay

At its start the relay reads the command line, then the log filter, then the settings. The first of
these that is wrong ends it, with an exit code that tells which.

## Main definitions

* `ExitCode` — how the program ends
* `Surroundings` — what the program finds at its start
* `Startup.Halt` — why it ends at once, with its exit code and what it prints
* `Startup.config` — the settings that it goes on with
-/

namespace StompRelay

/-- How the program ends. -/
inductive ExitCode where
  | success
  /-- It could not start. -/
  | failure
  /-- Its arguments are wrong. -/
  | misuse
  /-- It gave up at once. -/
  | aborted
  deriving DecidableEq, Repr

/-- The number of an exit code. -/
def ExitCode.number : ExitCode → Nat
  | .success => 0
  | .failure => 1
  | .misuse => 2
  | .aborted => 101

/-- What the program finds at its start. -/
structure Surroundings where
  env : Environment
  /-- Where the global settings file is. -/
  globalPath : String
  /-- What is found under each path. -/
  fileAt : String → File

namespace Startup

/-- The log filter where the environment sets none. -/
def defaultFilter : String := "stompgate_relay=info"

/-- The settings file that the environment names. -/
def namedFile (w : Surroundings) : Option String := w.env "STOMPGATE_CONFIG"

/-- Why the program ends at once. -/
inductive Halt where
  | options (stop : Options.Stop)
  | filter (fault : LogFilter.Fault)
  | config (fault : Config.Fault)
  /-- No bus can hold so many messages. -/
  | busTooLarge
  deriving DecidableEq, Repr

/-- The exit code. -/
def Halt.exitCode : Halt → ExitCode
  | .options .misuse => .misuse
  | .options _ => .success
  | .filter _ | .config _ => .failure
  | .busTooLarge => .aborted

/-- What is printed for those who asked. -/
def Halt.output (w : Surroundings) : Halt → List String
  | .options .help => Options.usage (namedFile w)
  | .options .version => [Options.version]
  | _ => []

/-- The settings of the files, the environment and the command line. -/
def configFor (w : Surroundings) (o : Options) : Except Config.Fault Config :=
  (Config.load (w.globalPath, w.fileAt w.globalPath)
    (o.configPath.map fun path => (path, w.fileAt path)) w.env).map fun c => c.override o.overrides

/-- The settings that the program goes on with. -/
def config (w : Surroundings) (args : List String) : Except Halt Config :=
  match Options.parse (namedFile w) args with
  | .error stop => .error (.options stop)
  | .ok o =>
    match LogFilter.maxLevel (LogFilter.directives defaultFilter (w.env "RUST_LOG")) with
    | .error fault => .error (.filter fault)
    | .ok _ =>
      match configFor w o with
      | .error fault => .error (.config fault)
      | .ok c => if c.relay.busCapacity ≤ Bus.maxCapacity then .ok c else .error .busTooLarge

end Startup

end StompRelay
