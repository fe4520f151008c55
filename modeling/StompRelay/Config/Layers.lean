import StompRelay.Config.File
/-!
# Layers of settings

Settings come from several places, each taking precedence over those before it: the defaults, one
file, and single values from the environment. The file is the global one, unless another is named;
that one replaces the global one as a whole. A global file that exists has to be sound even then.

## Main definitions

* `Config.globalPath` — where the global file is
* `Environment`, `Overrides.ofEnvironment` — single values from the environment
* `Config.load` — the settings from all places
-/

namespace StompRelay

/-- The value of each variable that is set to a text. -/
abbrev Environment := String → Option String

/-- Where the global file is: below the configuration directory if that is an absolute path, else
below the home directory. -/
def Config.globalPath (configHome : Option String) (home : String) : String :=
  let directory := match configHome with
    | some path => if path.toList.head? = some '/' then path else home ++ "/.config"
    | none => home ++ "/.config"
  directory ++ "/stompgate/settings.json"

/-- The single values in the environment. Any text is a host; a number that is not acceptable is
passed over. -/
def Overrides.ofEnvironment (env : Environment) : Overrides where
  host := env "STOMPGATE_BROKER_HOST"
  port := (env "STOMPGATE_BROKER_PORT").bind fun v => Numeral.readBounded maxPort v.toList
  connectTimeout :=
    (env "STOMPGATE_CONNECT_TIMEOUT_SECS").bind fun v => Numeral.readBounded maxWord v.toList
  maxFrameBytes :=
    (env "STOMPGATE_MAX_FRAME_BYTES").bind fun v => Numeral.readBounded maxWord v.toList

/-- The settings of the global file where it exists, else the defaults. -/
def Config.ofGlobal (path : String) (file : File) : Except Config.Fault Config :=
  if file.exists then Config.ofFile path file else .ok .default

/-- The settings of the files: those of the named file, if one is named. -/
def Config.ofFiles (global : String × File) (named : Option (String × File)) :
    Except Config.Fault Config := do
  let base ← Config.ofGlobal global.1 global.2
  match named with
  -- the named file replaces the global one, it does not refine it
  | none => return base
  | some (path, file) => Config.ofFile path file

/-- The settings of the files and the environment. -/
def Config.load (global : String × File) (named : Option (String × File)) (env : Environment) :
    Except Config.Fault Config :=
  (Config.ofFiles global named).map fun c => c.override (.ofEnvironment env)

end StompRelay
