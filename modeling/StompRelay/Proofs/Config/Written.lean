import StompRelay.Config.File
import StompRelay.Proofs.Json.Records
import StompRelay.Proofs.Text.Utf8
/-!
# What a settings file writes

The words of a settings file give at most one value for each setting. A setting that they leave out
has its default, be it that the file leaves out the setting, its section, or everything. What else
there is in a file is passed over, as long as it is written well.

## Main definitions

* `TextForm`, `WholeForm`, `FlagForm` — the words of a single value
* `Broker.WrittenBy`, `Limits.WrittenBy`, `Config.WrittenBy` — the settings that words write
* `File.Holds` — a file is a text that writes settings

## Main results

* `Config.parse_eq_some_iff` — a text is read as the settings that it writes
* `Config.ofFile_eq_ok_iff` — and so is a file
-/

namespace StompRelay

open Json

/-! ### Single values -/

/-- A string. -/
inductive TextForm : List Token → String → Prop where
  | mk (s : String) : TextForm [.text (.ok s)] s

/-- A whole number from zero up to a bound. -/
inductive WholeForm (bound : Nat) : List Token → Nat → Prop where
  | mk {n : Nat} : n ≤ bound → WholeForm bound [.number (some (.whole n))] n

/-- A truth value. -/
inductive FlagForm : List Token → Bool → Prop where
  | mk (b : Bool) : FlagForm [.bool b] b

theorem reads_string : Reader.string.Reads TextForm := by
  refine (Reader.reads_token _).congr fun ws s => ⟨?_, ?_⟩
  · rintro ⟨t, rfl, ht⟩
    dsimp only at ht
    split at ht
    · cases ht
      exact .mk s
    · cases ht
  · rintro ⟨⟩
    exact ⟨_, rfl, rfl⟩

theorem reads_natural (bound : Nat) : (Reader.natural bound).Reads (WholeForm bound) := by
  refine (Reader.reads_token _).congr fun ws n => ⟨?_, ?_⟩
  · rintro ⟨t, rfl, ht⟩
    dsimp only at ht
    split at ht
    · split at ht
      · rename_i hle
        cases ht
        exact .mk hle
      · cases ht
    · cases ht
  · rintro ⟨hle⟩
    exact ⟨_, rfl, if_pos hle⟩

theorem reads_bool : Reader.bool.Reads FlagForm := by
  refine (Reader.reads_token _).congr fun ws b => ⟨?_, ?_⟩
  · rintro ⟨t, rfl, ht⟩
    dsimp only at ht
    split at ht
    · cases ht
      exact .mk b
    · cases ht
  · rintro ⟨⟩
    exact ⟨_, rfl, rfl⟩

/-! ### Sections -/

/-- The settings of the broker are those that are given, and their defaults where none are. -/
structure Broker.GivenBy (given : List (String × List Token)) (b : Broker) : Prop where
  host : Filled TextForm (given.lookup "host") "127.0.0.1" b.host
  port : Filled (WholeForm maxPort) (given.lookup "port") 61613 b.port
  connectTimeout :
    Filled (WholeForm maxWord) (given.lookup "connect_timeout_secs") 10 b.connectTimeout
  noDelay : Filled FlagForm (given.lookup "tcp_nodelay") true b.noDelay

/-- Words write a section with such settings of the broker. -/
def Broker.WrittenBy (ws : List Token) (b : Broker) : Prop :=
  ∃ given, RecordWords ["host", "port", "connect_timeout_secs", "tcp_nodelay"] ws given
    ∧ b.GivenBy given

/-- The limits are those that are given, and their defaults where none are. -/
structure Limits.GivenBy (given : List (String × List Token)) (l : Limits) : Prop where
  maxFrameBytes :
    Filled (WholeForm maxWord) (given.lookup "max_frame_bytes") 1048576 l.maxFrameBytes
  busCapacity : Filled (WholeForm maxWord) (given.lookup "bus_capacity") 1024 l.busCapacity

/-- Words write a section with such limits. -/
def Limits.WrittenBy (ws : List Token) (l : Limits) : Prop :=
  ∃ given, RecordWords ["max_frame_bytes", "bus_capacity"] ws given ∧ l.GivenBy given

/-- The sections are those that are given, and their defaults where none are. -/
structure Config.GivenBy (given : List (String × List Token)) (c : Config) : Prop where
  broker : Filled Broker.WrittenBy (given.lookup "broker") .default c.broker
  relay : Filled Limits.WrittenBy (given.lookup "relay") .default c.relay

/-- Words write such settings. -/
def Config.WrittenBy (ws : List Token) (c : Config) : Prop :=
  ∃ given, RecordWords ["broker", "relay"] ws given ∧ c.GivenBy given

/-- The settings of the broker as slots. -/
def Broker.slots : List (Slot Broker) :=
  [⟨"host", String, Reader.string, TextForm, Broker.host, fun b v => { b with host := v }⟩,
    ⟨"port", Nat, Reader.natural maxPort, WholeForm maxPort, Broker.port,
      fun b v => { b with port := v }⟩,
    ⟨"connect_timeout_secs", Nat, Reader.natural maxWord, WholeForm maxWord,
      Broker.connectTimeout, fun b v => { b with connectTimeout := v }⟩,
    ⟨"tcp_nodelay", Bool, Reader.bool, FlagForm, Broker.noDelay,
      fun b v => { b with noDelay := v }⟩]

/-- The limits as slots. -/
def Limits.slots : List (Slot Limits) :=
  [⟨"max_frame_bytes", Nat, Reader.natural maxWord, WholeForm maxWord, Limits.maxFrameBytes,
      fun l v => { l with maxFrameBytes := v }⟩,
    ⟨"bus_capacity", Nat, Reader.natural maxWord, WholeForm maxWord, Limits.busCapacity,
      fun l v => { l with busCapacity := v }⟩]

/-- The sections as slots. -/
def Config.slots : List (Slot Config) :=
  [⟨"broker", Broker, Reader.record Broker.fields .default, Broker.WrittenBy, Config.broker,
      fun c v => { c with broker := v }⟩,
    ⟨"relay", Limits, Reader.record Limits.fields .default, Limits.WrittenBy, Config.relay,
      fun c v => { c with relay := v }⟩]

theorem Broker.lawful_slots : Lawful Broker.slots where
  reads := by
    simp only [slots, List.forall_mem_cons]
    exact ⟨reads_string, reads_natural _, reads_natural _, reads_bool, nofun⟩
  get_set := by simp [slots]
  get_set_of_ne := by simp [slots]
  ext := by
    rintro ⟨_, _, _, _⟩ ⟨_, _, _, _⟩
    simp +contextual [slots]
  begins := by
    simp only [slots, List.forall_mem_cons]
    exact ⟨nofun, nofun, nofun, nofun, nofun⟩
  nodup := by decide

theorem Limits.lawful_slots : Lawful Limits.slots where
  reads := by
    simp only [slots, List.forall_mem_cons]
    exact ⟨reads_natural _, reads_natural _, nofun⟩
  get_set := by simp [slots]
  get_set_of_ne := by simp [slots]
  ext := by
    rintro ⟨_, _⟩ ⟨_, _⟩
    simp +contextual [slots]
  begins := by
    simp only [slots, List.forall_mem_cons]
    exact ⟨nofun, nofun, nofun⟩
  nodup := by decide

theorem Broker.givenBy_iff {given : List (String × List Token)} {b : Broker} :
    Gives Broker.slots given .default b ↔ b.GivenBy given := by
  simp only [Gives, slots, List.forall_mem_cons]
  constructor
  · rintro ⟨hhost, hport, htimeout, hdelay, -⟩
    exact ⟨hhost, hport, htimeout, hdelay⟩
  · rintro ⟨hhost, hport, htimeout, hdelay⟩
    exact ⟨hhost, hport, htimeout, hdelay, nofun⟩

theorem Limits.givenBy_iff {given : List (String × List Token)} {l : Limits} :
    Gives Limits.slots given .default l ↔ l.GivenBy given := by
  simp only [Gives, slots, List.forall_mem_cons]
  constructor
  · rintro ⟨hframe, hbus, -⟩
    exact ⟨hframe, hbus⟩
  · rintro ⟨hframe, hbus⟩
    exact ⟨hframe, hbus, nofun⟩

theorem Config.givenBy_iff {given : List (String × List Token)} {c : Config} :
    Gives Config.slots given .default c ↔ c.GivenBy given := by
  simp only [Gives, slots, List.forall_mem_cons]
  constructor
  · rintro ⟨hbroker, hrelay, -⟩
    exact ⟨hbroker, hrelay⟩
  · rintro ⟨hbroker, hrelay⟩
    exact ⟨hbroker, hrelay, nofun⟩

theorem Broker.reads_section : (Reader.record Broker.fields .default).Reads WrittenBy := by
  refine (Broker.lawful_slots.reads_record .default).congr fun ws b => ?_
  simp only [Broker.givenBy_iff]
  rfl

theorem Limits.reads_section : (Reader.record Limits.fields .default).Reads WrittenBy := by
  refine (Limits.lawful_slots.reads_record .default).congr fun ws l => ?_
  simp only [Limits.givenBy_iff]
  rfl

/-- No record starts with the end of an array. -/
theorem Json.RecordWords.head_ne {keys : List String} {ws : List Token}
    {given : List (String × List Token)} : ¬RecordWords keys (.closeArray :: ws) given := by
  intro h
  cases h

theorem Config.lawful_slots : Lawful Config.slots where
  reads := by
    simp only [slots, List.forall_mem_cons]
    exact ⟨Broker.reads_section, Limits.reads_section, nofun⟩
  get_set := by simp [slots]
  get_set_of_ne := by simp [slots]
  ext := by
    rintro ⟨_, _⟩ ⟨_, _⟩
    simp +contextual [slots]
  begins := by
    simp only [slots, List.forall_mem_cons]
    exact ⟨fun _ _ ⟨_, hwords, _⟩ => hwords.head_ne, fun _ _ ⟨_, hwords, _⟩ => hwords.head_ne,
      nofun⟩
  nodup := by decide

theorem Config.reads_sections : (Reader.record Config.fields .default).Reads WrittenBy := by
  refine (Config.lawful_slots.reads_record .default).congr fun ws c => ?_
  simp only [Config.givenBy_iff]
  rfl

/-- A text is read as the settings that it writes. -/
theorem Config.parse_eq_some_iff {cs : List Char} {c : Config} :
    Config.parse cs = some c ↔ c.WrittenBy (tokens cs) := by
  have hparse : Config.parse cs = some c
      ↔ Reader.run (Reader.record Config.fields .default) (tokens cs) = some (c, []) := by
    rw [Config.parse, Reader.run]
    split
    · rename_i heq
      simp [heq]
    · rename_i hrest
      refine iff_of_false (Option.some_ne_none _).symm fun hrun => ?_
      obtain ⟨⟨c', rest, hlt⟩, hrecord, heq⟩ := Option.map_eq_some_iff.mp hrun
      cases heq
      exact hrest _ _ hrecord
  rw [hparse, Config.reads_sections _ _ _]
  simp

/-! ### Files -/

/-- A file is a text that writes such settings. -/
def File.Holds (f : File) (c : Config) : Prop :=
  ∃ cs, f = .regular (Utf8.encode cs) ∧ c.WrittenBy (tokens cs)

/-- The settings of a file are those that it holds. -/
theorem Config.ofFile_eq_ok_iff {path : String} {f : File} {c : Config} :
    Config.ofFile path f = .ok c ↔ f.Holds c := by
  cases f with
  | absent | directory | locked => exact iff_of_false nofun nofun
  | regular content =>
    simp only [Config.ofFile, File.Holds, File.regular.injEq, ← Config.parse_eq_some_iff,
      ← Utf8.decode_eq_ok_iff]
    cases Utf8.decode content with
    | error fault => simp
    | ok cs => cases hparse : Config.parse cs <;> simp [hparse]

end StompRelay
