/-!
# Settings

Where the broker is, how to connect to it, and how much the relay holds at once.

## Main definitions

* `Broker`, `Limits`, `Config` — the settings and their defaults
* `Broker.address` — where to connect
* `Overrides`, `Config.override` — single settings that replace those of a file
-/

namespace StompRelay

/-- The largest port number, of 16 bits. -/
def maxPort : Nat := 65535

/-- The largest of all other numbers, of 64 bits. -/
def maxWord : Nat := 18446744073709551615

/-- Where and how to reach the broker. -/
structure Broker where
  host : String
  port : Nat
  /-- How many seconds connecting may take. -/
  connectTimeout : Nat
  /-- Whether small writes are sent at once. -/
  noDelay : Bool
  deriving DecidableEq, Repr

/-- The broker on this machine, at the port of the protocol. -/
def Broker.default : Broker := ⟨"127.0.0.1", 61613, 10, true⟩

/-- Where to connect. -/
def Broker.address (b : Broker) : String := b.host ++ ":" ++ toString b.port

/-- How much the relay holds at once. -/
structure Limits where
  /-- The largest frame accepted from the broker, in bytes. -/
  maxFrameBytes : Nat
  /-- How many messages for clients may wait on the local bus. -/
  busCapacity : Nat
  deriving DecidableEq, Repr

/-- Frames up to a mebibyte, and 1024 messages. -/
def Limits.default : Limits := ⟨1024 * 1024, 1024⟩

/-- All settings. -/
structure Config where
  broker : Broker
  relay : Limits
  deriving DecidableEq, Repr

/-- The settings used where nothing else is said. -/
def Config.default : Config := ⟨.default, .default⟩

/-- Single settings that take precedence over those of a file. -/
structure Overrides where
  host : Option String
  port : Option Nat
  connectTimeout : Option Nat
  maxFrameBytes : Option Nat
  deriving DecidableEq, Repr

/-- No setting is replaced. -/
def Overrides.none : Overrides := ⟨.none, .none, .none, .none⟩

/-- The settings with those replaced that are given. -/
def Config.override (c : Config) (o : Overrides) : Config :=
  { broker :=
      { c.broker with
        host := o.host.getD c.broker.host
        port := o.port.getD c.broker.port
        connectTimeout := o.connectTimeout.getD c.broker.connectTimeout }
    relay := { c.relay with maxFrameBytes := o.maxFrameBytes.getD c.relay.maxFrameBytes } }

end StompRelay
