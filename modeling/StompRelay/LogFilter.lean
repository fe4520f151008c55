import StompRelay.Text.Blank
import StompRelay.Text.Numeral
import StompRelay.Text.Quoted
/-!
# Log filters

A log filter is a list of directives, each of which sets the least severe level that is logged, for
one target or for all of them.

## Main definitions

* `LogFilter.Level` — how much is logged
* `LogFilter.directives` — the directives in force
* `LogFilter.maxLevel` — the most that any directive of a filter lets through
* `LogFilter.Fault` — why a filter is refused, with its wording
* `LogFormat` — the shape of log lines
-/

namespace StompRelay

/-- The shape of log lines. -/
inductive LogFormat where
  | text
  | json
  deriving DecidableEq, Repr

/-- The name of a shape. -/
def LogFormat.name : LogFormat → String
  | .text => "Text"
  | .json => "Json"

/-- The shape chosen by a flag. -/
def LogFormat.ofFlag (json : Bool) : LogFormat := if json then .json else .text

namespace LogFilter

/-- How much is logged. -/
inductive Level where
  | off
  | error
  | warn
  | info
  | debug
  | trace
  deriving DecidableEq, Repr

/-- The levels from the least to the most. -/
def Level.all : List Level := [.off, .error, .warn, .info, .debug, .trace]

/-- The name of a level. -/
def Level.name : Level → String
  | .off => "off"
  | .error => "error"
  | .warn => "warn"
  | .info => "info"
  | .debug => "debug"
  | .trace => "trace"

/-- The place of a level among all levels. -/
def Level.rank : Level → Nat
  | .off => 0
  | .error => 1
  | .warn => 2
  | .info => 3
  | .debug => 4
  | .trace => 5

/-- The more verbose of two levels. -/
def Level.max (a b : Level) : Level := if a.rank < b.rank then b else a

/-- The level that a word names, by its place or by its name in any letter case. -/
def Level.ofWord? (cs : List Char) : Option Level :=
  match Numeral.readBounded 5 cs with
  | some n => Level.all[n]?
  | none => Level.all.find? fun l => l.name.toList == cs.map Char.toLower

/-- Why a filter is refused. -/
inductive Cause where
  /-- A directive starts with a character that starts no target. -/
  | directive
  /-- What follows an equals sign is no level. -/
  | level
  deriving DecidableEq, Repr

/-- The wording of a cause. -/
def Cause.message : Cause → String
  | .directive => "invalid filter directive"
  | .level =>
    "error parsing level filter: expected one of \"off\", \"error\", \"warn\", \"info\", "
      ++ "\"debug\", \"trace\", or a number 0-5"

/-- A filter that is refused, and why. -/
structure Fault where
  filter : String
  cause : Cause
  deriving DecidableEq, Repr

/-- The wording of a fault. -/
def Fault.message (f : Fault) : String :=
  "Configuration error: Invalid log filter " ++ Text.quoted f.filter ++ ": " ++ f.cause.message

/-- Whether a directive may start with a character. -/
def startsDirective (c : Char) : Bool :=
  c.isAlphanum || c == '-' || c == ':' || c == '_' || 0x80 ≤ c.toNat

/-- The parts of a text between commas. -/
def splitCommas : List Char → List (List Char)
  | [] => [[]]
  | c :: cs =>
    if c = ',' then [] :: splitCommas cs
    else
      match splitCommas cs with
      | [] => [[c]]
      | part :: rest => (c :: part) :: rest

/-- The level that a directive sets. A target alone lets everything through. The equals sign is
looked for between the blanks around a directive, and its position counted from the start. -/
def directiveLevel (cs : List Char) : Except Cause Level :=
  match Text.trim cs with
  | [] => .error .directive
  | c :: rest =>
    if !startsDirective c then .error .directive
    else if (c :: rest).contains '=' then
      match cs.drop (((c :: rest).takeWhile (· != '=')).length + 1) with
      -- a target with nothing after its equals sign
      | [] => .ok .trace
      | word =>
        match Level.ofWord? word with
        | some l => .ok l
        | none => .error .level
    else .ok ((Level.ofWord? cs).getD .trace)

/-- The directives in force: the chosen ones unless they are blank, else the default ones. -/
def directives (default : String) (chosen : Option String) : String :=
  match chosen with
  | some s => if (Text.trim s.toList).isEmpty then default else s
  | none => default

/-- The most that any directive of a filter lets through; errors where there is no directive. -/
def maxLevel (filter : String) : Except Fault Level :=
  let parts := (splitCommas filter.toList).filter fun part => !part.isEmpty
  match parts.mapM directiveLevel with
  | .error cause => .error ⟨filter, cause⟩
  | .ok [] => .ok .error
  | .ok (l :: ls) => .ok (ls.foldl Level.max l)

end LogFilter

end StompRelay
