import StompRelay.Config.Basic
import StompRelay.Text.Numeral
/-!
# Options

The relay is started with options only. An option that takes a value finds it after an equals sign
or in the next argument, which must not look like an option; none may be given twice. The first
argument that is wrong, or that asks for information, decides.

## Main definitions

* `Options` — what is chosen on the command line
* `Options.Stop` — why the relay is not started
* `Argument` — the forms of an argument
* `Options.parse` — the options that arguments choose
* `Options.usage`, `Options.version` — the information that can be asked for
-/

namespace StompRelay

/-- What is chosen on the command line. -/
structure Options where
  /-- The path of a settings file. -/
  configPath : Option String
  overrides : Overrides
  /-- Whether log lines are JSON. -/
  logJson : Bool
  deriving DecidableEq, Repr

/-! ### Arguments -/

/-- The forms of an argument. -/
inductive Argument where
  /-- Two hyphens alone, after which no options come. -/
  | terminator
  /-- Two hyphens and a name, and what is attached by an equals sign. -/
  | long (name : String) (attached : Option String)
  /-- One hyphen and letters, of which the first is given. -/
  | short (letter : Char)
  /-- Anything else, and a hyphen alone. -/
  | operand (text : String)
  deriving DecidableEq, Repr

/-- The form of an argument. -/
def Argument.ofString (s : String) : Argument :=
  match s.toList with
  | ['-', '-'] => .terminator
  | '-' :: '-' :: cs =>
    .long (String.ofList (cs.takeWhile (· != '=')))
      (match cs.dropWhile (· != '=') with
        | [] => none
        | _ :: value => some (String.ofList value))
  | '-' :: c :: _ => .short c
  | _ => .operand s

namespace Options

/-- Nothing is chosen. -/
def none : Options := ⟨.none, .none, false⟩

/-- Why the relay is not started. -/
inductive Stop where
  /-- Help was asked for. -/
  | help
  /-- The version was asked for. -/
  | version
  /-- An argument is wrong. -/
  | misuse
  deriving DecidableEq, Repr

/-- The options that take a value. -/
inductive Key where
  | config
  | brokerHost
  | brokerPort
  | connectTimeout
  | maxFrameBytes
  deriving DecidableEq, Repr

/-- All options that take a value. -/
def Key.all : List Key := [.config, .brokerHost, .brokerPort, .connectTimeout, .maxFrameBytes]

/-- The name of an option. -/
def Key.name : Key → String
  | .config => "config"
  | .brokerHost => "broker-host"
  | .brokerPort => "broker-port"
  | .connectTimeout => "connect-timeout"
  | .maxFrameBytes => "max-frame-bytes"

/-- Whether a value was chosen. -/
def has (o : Options) : Key → Bool
  | .config => o.configPath.isSome
  | .brokerHost => o.overrides.host.isSome
  | .brokerPort => o.overrides.port.isSome
  | .connectTimeout => o.overrides.connectTimeout.isSome
  | .maxFrameBytes => o.overrides.maxFrameBytes.isSome

/-- Reads a port, which may bear either sign; so minus zero is a port. -/
def readPort (cs : List Char) : Option Nat :=
  match cs with
  -- one sign only
  | '-' :: '+' :: _ => .none
  | '-' :: ds => Numeral.readBounded 0 ds
  | ds => Numeral.readBounded maxPort ds

/-- The options with a value; none if the option does not take it. -/
def set? (o : Options) (k : Key) (value : String) : Option Options :=
  let p := o.overrides
  let withOverrides (p : Overrides) : Options := { o with overrides := p }
  let word := Numeral.readBounded maxWord value.toList
  match k with
  | .config => if value.isEmpty then .none else some { o with configPath := some value }
  | .brokerHost => some (withOverrides { p with host := some value })
  | .brokerPort => (readPort value.toList).map fun n => withOverrides { p with port := some n }
  | .connectTimeout => word.map fun n => withOverrides { p with connectTimeout := some n }
  | .maxFrameBytes => word.map fun n => withOverrides { p with maxFrameBytes := some n }

/-- The options with a value for an option that has none yet. -/
def assign (o : Options) (k : Key) (value : String) : Except Stop Options :=
  if o.has k then .error .misuse
  else
    match o.set? k value with
    | .none => .error .misuse
    | some o => .ok o

/-- What a named option is. -/
inductive Named where
  | help
  | version
  | logJson
  | valued (k : Key)
  deriving DecidableEq, Repr

/-- The option of a name. -/
def Named.ofName? (name : String) : Option Named :=
  match name with
  | "help" => some .help
  | "version" => some .version
  | "log-json" => some .logJson
  | _ => (Key.all.find? fun k => k.name == name).map .valued

/-- An option that takes no value is given. -/
def raise (o : Options) : Named → Except Stop Options
  | .help => .error .help
  | .version => .error .version
  | .logJson => if o.logJson then .error .misuse else .ok { o with logJson := true }
  | .valued _ => .error .misuse

/-- The options that arguments choose besides those chosen before. -/
def parseFrom (o : Options) : List String → Except Stop Options
  | [] => .ok o
  | arg :: args =>
    match Argument.ofString arg with
    | .terminator => if args.isEmpty then .ok o else .error .misuse
    | .operand _ => .error .misuse
    | .short letter =>
      if letter = 'h' then .error .help
      else if letter = 'V' then .error .version
      else .error .misuse
    | .long name attached =>
      match Named.ofName? name, attached, args with
      | .none, _, _ => .error .misuse
      | some (.valued k), some value, args =>
        match o.assign k value with
        | .error stop => .error stop
        | .ok o => parseFrom o args
      -- the value is the next argument, unless that looks like an option
      | some (.valued k), .none, value :: args =>
        match Argument.ofString value, o.assign k value with
        | .operand _, .ok o => parseFrom o args
        | _, _ => .error .misuse
      | some (.valued _), .none, [] => .error .misuse
      | some _, some _, _ => .error .misuse
      | some named, .none, args =>
        match o.raise named with
        | .error stop => .error stop
        | .ok o => parseFrom o args

/-- The options that arguments choose; a settings file may also be named by a default, which is
looked at only where the arguments name none. -/
def parse (configDefault : Option String) (args : List String) : Except Stop Options :=
  match parseFrom .none args with
  | .error stop => .error stop
  | .ok o =>
    match o.configPath, configDefault with
    | .none, some path => o.assign .config path
    | _, _ => .ok o

/-! ### Information -/

/-- The name of the program. -/
def program : String := "stompgate-relay"

/-- The line that tells the version. -/
def version : String := program ++ " 0.1.0-alpha.1"

/-- The lines that tell how the relay is started. -/
def usage (configDefault : Option String) : List String :=
  ["StompGate relay - bridges local client sessions to a STOMP broker",
    "",
    "Usage: " ++ program ++ " [OPTIONS]",
    "",
    "Options:",
    "      --config <CONFIG>",
    "          Path to a JSON settings file [env: STOMPGATE_CONFIG="
      ++ configDefault.getD "" ++ "]",
    "      --broker-host <BROKER_HOST>",
    "          Broker host",
    "      --broker-port <BROKER_PORT>",
    "          Broker port",
    "      --connect-timeout <CONNECT_TIMEOUT>",
    "          Broker connect timeout in seconds",
    "      --max-frame-bytes <MAX_FRAME_BYTES>",
    "          Largest inbound frame in bytes before a session is dropped",
    "      --log-json",
    "          Output logs as JSON (for structured log aggregation)",
    "  -h, --help",
    "          Print help",
    "  -V, --version",
    "          Print version"]

end Options

end StompRelay
