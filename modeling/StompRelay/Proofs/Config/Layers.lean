import StompRelay.CommandLine.Startup
import StompRelay.Proofs.Config.Written
import StompRelay.Proofs.Frame.Grammar
/-!
# Where each setting comes from

Every setting is taken from the first place that gives it: the command line, the environment, the
settings file, its default. The settings do not depend on each other. Of two files, the one that is
named is asked for all settings, and the global one for none; but a global file that exists has to
be sound even then.

A number in the environment that is not acceptable counts as not given. On the command line it would
have been refused before.

## Main definitions

* `Numeral.Spelled` — the texts of numbers
* `Override` — what a variable of the environment gives for a number
* `Startup.Base` — the settings of the files
* `Startup.Layered` — where each setting comes from

## Main results

* `Numeral.readBounded_eq_some_iff` — numbers are read from their texts
* `Startup.configFor_eq_ok_iff` — when there are settings, and which
* `Startup.config_layered` — the same, setting by setting
-/

namespace StompRelay

/-! ### Numbers in the environment -/

namespace Numeral

/-- The texts of numbers: digits, with leading zeros or without, after a plus sign or none. -/
inductive Spelled : List Char → Nat → Prop where
  | bare {ds : List Char} : Json.Digits ds → Spelled ds (value ds)
  | plus {ds : List Char} : Json.Digits ds → Spelled ('+' :: ds) (value ds)

variable {bound n k : Nat} {cs ds : List Char}

/-- A plus sign is no digit. -/
theorem not_digits_plus : ¬Json.Digits ('+' :: ds) := fun h =>
  Bool.false_ne_true (h.all '+' List.mem_cons_self)

theorem digits_iff : Json.Digits ds ↔ (ds.isEmpty || !ds.all isDigit) = false := by
  rw [Bool.or_eq_false_iff, Bool.not_eq_false', List.all_eq_true]
  constructor
  · exact fun h => ⟨by simpa using h.ne_nil, h.all⟩
  · exact fun ⟨hne, hall⟩ => ⟨by simpa using hne, hall⟩

/-- After its sign a number is read from digits. -/
theorem readDigits_eq_some_iff :
    (if ds.isEmpty || !ds.all isDigit then none
      else if value ds ≤ bound then some (value ds) else none) = some n
      ↔ (Json.Digits ds ∧ value ds = n) ∧ n ≤ bound := by
  rw [digits_iff, ← Bool.not_eq_true]
  split
  · rename_i h
    exact iff_of_false nofun fun ⟨⟨hnot, _⟩, _⟩ => hnot h
  · rename_i h
    rw [and_iff_right h]
    split
    · rename_i hle
      rw [Option.some.injEq]
      exact ⟨fun heq => ⟨heq, heq ▸ hle⟩, And.left⟩
    · rename_i hgt
      exact iff_of_false nofun fun ⟨heq, hle⟩ => hgt (heq ▸ hle)

/-- A number is read from its texts, if it respects the bound, and from no others. -/
theorem readBounded_eq_some_iff :
    readBounded bound cs = some n ↔ Spelled cs n ∧ n ≤ bound := by
  unfold readBounded
  extract_lets ds
  rw [readDigits_eq_some_iff]
  subst ds
  split
  · rename_i ds
    refine and_congr_left fun _ => ⟨?_, ?_⟩
    · rintro ⟨hds, rfl⟩
      exact .plus hds
    · intro h
      cases h with
      | bare hds => exact absurd hds not_digits_plus
      | plus hds => exact ⟨hds, rfl⟩
  · rename_i hplus
    refine and_congr_left fun _ => ⟨?_, ?_⟩
    · rintro ⟨hds, rfl⟩
      exact .bare hds
    · intro h
      cases h with
      | bare hds => exact ⟨hds, rfl⟩
      | plus hds => exact absurd rfl (hplus _)

end Numeral

/-- What a variable of the environment gives for a number up to a bound. -/
inductive Override (bound : Nat) : Option String → Option Nat → Prop where
  /-- It is not set. -/
  | unset : Override bound none none
  | taken {v : String} {n : Nat} : Numeral.Spelled v.toList n → n ≤ bound →
    Override bound (some v) (some n)
  /-- It is set to something else, or to a number that is too large. -/
  | ignored {v : String} : (∀ n, Numeral.Spelled v.toList n → bound < n) →
    Override bound (some v) none

theorem override_readBounded (bound : Nat) (v : Option String) :
    Override bound v (v.bind fun v => Numeral.readBounded bound v.toList) := by
  cases v with
  | none => exact .unset
  | some v =>
    rw [Option.bind_some]
    cases hread : Numeral.readBounded bound v.toList with
    | none =>
      refine .ignored fun n hn => Nat.lt_of_not_le fun hle => ?_
      exact nomatch hread.symm.trans (Numeral.readBounded_eq_some_iff.mpr ⟨hn, hle⟩)
    | some n =>
      obtain ⟨hn, hle⟩ := Numeral.readBounded_eq_some_iff.mp hread
      exact .taken hn hle

/-! ### Files -/

/-- A file that exists, and holds no settings. -/
def File.Unsound (f : File) : Prop := f.exists = true ∧ ∀ c, ¬f.Holds c

namespace Startup

/-- The settings of the files: those of the one that is named, else those of the global one, else
the defaults. -/
inductive Base (w : Surroundings) (o : Options) : Config → Prop where
  | named {path : String} {c : Config} : o.configPath = some path → (w.fileAt path).Holds c →
    Base w o c
  | global {c : Config} : o.configPath = none → (w.fileAt w.globalPath).Holds c → Base w o c
  | default : o.configPath = none → w.fileAt w.globalPath = .absent → Base w o .default

/-- Each setting comes from the command line where that gives it, else from the environment, else
from the settings of the files. -/
structure Layered (w : Surroundings) (o : Options) (base c : Config) : Prop where
  host : c.broker.host
    = (o.overrides.host <|> w.env "STOMPGATE_BROKER_HOST").getD base.broker.host
  port : ∃ given, Override maxPort (w.env "STOMPGATE_BROKER_PORT") given
    ∧ c.broker.port = (o.overrides.port <|> given).getD base.broker.port
  connectTimeout : ∃ given, Override maxWord (w.env "STOMPGATE_CONNECT_TIMEOUT_SECS") given
    ∧ c.broker.connectTimeout
      = (o.overrides.connectTimeout <|> given).getD base.broker.connectTimeout
  /-- Neither the command line nor the environment gives it. -/
  noDelay : c.broker.noDelay = base.broker.noDelay
  maxFrameBytes : ∃ given, Override maxWord (w.env "STOMPGATE_MAX_FRAME_BYTES") given
    ∧ c.relay.maxFrameBytes = (o.overrides.maxFrameBytes <|> given).getD base.relay.maxFrameBytes
  busCapacity : c.relay.busCapacity = base.relay.busCapacity

variable {w : Surroundings} {o : Options} {c base : Config}

theorem ofGlobal_eq_ok_iff {path : String} {f : File} :
    Config.ofGlobal path f = .ok c ↔ f.Holds c ∨ f = .absent ∧ c = .default := by
  cases f with
  | absent =>
    have hholds : ¬File.Holds .absent c := nofun
    simp [Config.ofGlobal, File.exists, hholds, eq_comm]
  | directory | locked | regular => simp [Config.ofGlobal, File.exists, Config.ofFile_eq_ok_iff]

/-- A global file does no harm exactly if it is sound or does not exist. -/
theorem exists_ofGlobal_iff (path : String) {f : File} :
    (∃ c, Config.ofGlobal path f = .ok c) ↔ ¬f.Unsound := by
  simp only [ofGlobal_eq_ok_iff, File.Unsound, not_and, not_forall, not_not]
  cases f with
  | absent => simp [File.exists]
  | directory | locked | regular => simp [File.exists]

/-- The files give settings if the global one does no harm, and the one that counts holds them. -/
theorem ofFiles_eq_ok_iff :
    Config.ofFiles (w.globalPath, w.fileAt w.globalPath)
        (o.configPath.map fun path => (path, w.fileAt path)) = .ok base
      ↔ ¬(w.fileAt w.globalPath).Unsound ∧ Base w o base := by
  rw [Config.ofFiles, bind_eq_ok_iff]
  cases hpath : o.configPath with
  | none =>
    have hbase :
        Base w o base ↔ Config.ofGlobal w.globalPath (w.fileAt w.globalPath) = .ok base := by
      rw [ofGlobal_eq_ok_iff]
      constructor
      · intro hb
        cases hb with
        | named hnamed => exact nomatch hpath.symm.trans hnamed
        | global _ hholds => exact .inl hholds
        | default _ habsent => exact .inr ⟨habsent, rfl⟩
      · rintro (hholds | ⟨habsent, rfl⟩)
        · exact .global hpath hholds
        · exact .default hpath habsent
    rw [hbase, ← exists_ofGlobal_iff w.globalPath]
    constructor
    · rintro ⟨g, hg, heq⟩
      cases heq
      exact ⟨⟨_, hg⟩, hg⟩
    · rintro ⟨-, hg⟩
      exact ⟨base, hg, rfl⟩
  | some path =>
    -- the global file does not count, but it is read
    have hbase : Base w o base ↔ (w.fileAt path).Holds base := by
      constructor
      · intro hb
        cases hb with
        | named hnamed hholds =>
          obtain rfl := Option.some.inj (hpath.symm.trans hnamed)
          exact hholds
        | global hnone | default hnone => exact nomatch hpath.symm.trans hnone
      · exact .named hpath
    rw [hbase, ← exists_ofGlobal_iff w.globalPath, ← exists_and_right]
    exact exists_congr fun _ => and_congr_right fun _ => Config.ofFile_eq_ok_iff

/-- Sound files give settings. -/
theorem exists_base (hglobal : ¬(w.fileAt w.globalPath).Unsound)
    (hnamed : ∀ path, o.configPath = some path → ∃ c, (w.fileAt path).Holds c) :
    ∃ base, Base w o base := by
  cases hpath : o.configPath with
  | some path =>
    obtain ⟨c, hholds⟩ := hnamed path hpath
    exact ⟨c, .named hpath hholds⟩
  | none =>
    obtain ⟨c, hc⟩ := (exists_ofGlobal_iff w.globalPath).mpr hglobal
    rcases ofGlobal_eq_ok_iff.mp hc with hholds | ⟨habsent, -⟩
    · exact ⟨c, .global hpath hholds⟩
    · exact ⟨.default, .default hpath habsent⟩

/-- There are settings if the files give some. What the environment gives replaces them, and then
what the command line gives. -/
theorem configFor_eq_ok_iff :
    configFor w o = .ok c ↔ ¬(w.fileAt w.globalPath).Unsound ∧ ∃ base, Base w o base
      ∧ c = (base.override (.ofEnvironment w.env)).override o.overrides := by
  have hfiles := @ofFiles_eq_ok_iff w o
  rw [configFor, Config.load]
  cases hread : Config.ofFiles (w.globalPath, w.fileAt w.globalPath)
      (o.configPath.map fun path => (path, w.fileAt path)) with
  | error fault =>
    refine iff_of_false nofun fun ⟨hsound, base, hb, _⟩ => ?_
    exact nomatch hread.symm.trans (hfiles.mpr ⟨hsound, hb⟩)
  | ok base =>
    obtain ⟨hsound, hb⟩ := hfiles.mp hread
    rw [and_iff_right hsound]
    constructor
    · intro heq
      cases heq
      exact ⟨base, hb, rfl⟩
    · rintro ⟨base', hb', rfl⟩
      cases hread.symm.trans (hfiles.mpr ⟨hsound, hb'⟩)
      rfl

/-- What is replaced twice has the value given last. -/
theorem getD_getD {α : Type} (last first : Option α) (a : α) :
    last.getD (first.getD a) = (last <|> first).getD a := by
  cases last <;> rfl

/-- Each setting is replaced alone. -/
theorem layered_override :
    Layered w o base ((base.override (.ofEnvironment w.env)).override o.overrides) where
  host := getD_getD _ _ _
  port := ⟨_, override_readBounded _ _, getD_getD _ _ _⟩
  connectTimeout := ⟨_, override_readBounded _ _, getD_getD _ _ _⟩
  noDelay := rfl
  maxFrameBytes := ⟨_, override_readBounded _ _, getD_getD _ _ _⟩
  busCapacity := rfl

/-- The settings with which the relay starts, for every content or absence of the files, every
environment and every choice on the command line.

There are none exactly if the global file exists and holds none, be it that it cannot be opened,
that it is no text or that its text writes none, or a file is named that does not exist or holds
none. Otherwise each setting has the value of the first of these that gives it: the command line,
the environment, the settings of the files, where what the one file that counts leaves out has its
default. -/
theorem config_layered (w : Surroundings) (o : Options) :
    ((∃ fault, configFor w o = .error fault) ↔ (w.fileAt w.globalPath).Unsound
        ∨ ∃ path, o.configPath = some path ∧ ∀ c, ¬(w.fileAt path).Holds c)
      ∧ ∀ c, configFor w o = .ok c → ∃ base, Base w o base ∧ Layered w o base c := by
  have hok (c : Config) := @configFor_eq_ok_iff w o c
  constructor
  · have hfails : (∃ fault, configFor w o = .error fault) ↔ ∀ c, configFor w o ≠ .ok c := by
      cases configFor w o <;> simp
    rw [hfails]
    constructor
    · intro hnone
      by_contra hnot
      rw [not_or] at hnot
      obtain ⟨hglobal, hnamed⟩ := hnot
      obtain ⟨base, hb⟩ := exists_base hglobal fun path hpath => by
        by_contra hnoc
        exact hnamed ⟨path, hpath, not_exists.mp hnoc⟩
      exact hnone _ ((hok _).mpr ⟨hglobal, base, hb, rfl⟩)
    · rintro (hglobal | ⟨path, hpath, hnone⟩) c hc
      · exact ((hok c).mp hc).1 hglobal
      · obtain ⟨-, base, hb, -⟩ := (hok c).mp hc
        cases hb with
        | named hnamed hholds =>
          obtain rfl := Option.some.inj (hpath.symm.trans hnamed)
          exact hnone _ hholds
        | global hnopath | default hnopath => exact nomatch hpath.symm.trans hnopath
  · intro c hc
    obtain ⟨-, base, hb, rfl⟩ := (hok c).mp hc
    exact ⟨base, hb, layered_override⟩

/-- A global file, a file that gives three settings, one that cannot be opened, and an environment
that sets an empty host, a port that is too large and a timeout. -/
def fourPlaces : Surroundings where
  env
    | "STOMPGATE_BROKER_HOST" => some ""
    | "STOMPGATE_BROKER_PORT" => some "65536"
    | "STOMPGATE_CONNECT_TIMEOUT_SECS" => some "+007"
    | _ => none
  globalPath := "/g"
  fileAt
    | "/g" => .regular (Utf8.encodeText "\x7b\"relay\":\x7b\"bus_capacity\":7\x7d\x7d")
    | "/n" => .regular (Utf8.encodeText
      "\x7b\"note\":[1e999],\"broker\":\x7b\"port\":61614,\"host\":\"mq\"\x7d,\"relay\":[1]\x7d")
    | "/k" => .locked "Permission denied (os error 13)"
    | _ => .absent

/-- Each layer gives something: the command line the limit of frames, the environment the host and
the timeout, the named file the port, and nobody the rest. There are no settings if a file is named
that does not exist, or that cannot be opened. -/
theorem config_layered_of_four_places :
    (∃ base, Base fourPlaces ⟨some "/n", ⟨none, none, none, some 4096⟩, false⟩ base
        ∧ Layered fourPlaces ⟨some "/n", ⟨none, none, none, some 4096⟩, false⟩ base
          ⟨⟨"", 61614, 7, true⟩, ⟨4096, 1024⟩⟩)
      ∧ (∃ fault, configFor fourPlaces ⟨some "/x", .none, false⟩ = .error fault)
      ∧ ∃ fault, configFor fourPlaces ⟨some "/k", .none, false⟩ = .error fault := by
  have hok : configFor fourPlaces ⟨some "/n", ⟨none, none, none, some 4096⟩, false⟩
      = .ok ⟨⟨"", 61614, 7, true⟩, ⟨4096, 1024⟩⟩ := by decide +kernel
  have habsent : ∀ c, ¬File.Holds .absent c := fun _ ⟨_, heq, _⟩ => nomatch heq
  have hlocked : ∀ c, ¬File.Holds (.locked "Permission denied (os error 13)") c :=
    fun _ ⟨_, heq, _⟩ => nomatch heq
  exact ⟨(config_layered fourPlaces _).2 _ hok,
    (config_layered fourPlaces _).1.mpr (.inr ⟨"/x", rfl, habsent⟩),
    (config_layered fourPlaces _).1.mpr (.inr ⟨"/k", rfl, hlocked⟩)⟩

end Startup

end StompRelay
