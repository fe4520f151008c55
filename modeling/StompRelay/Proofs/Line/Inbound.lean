import StompRelay.Proofs.Frame.Grammar
import StompRelay.Proofs.Json.Written
import StompRelay.Proofs.Line.Members
/-!
# Events from their lines

A line that writes an object is understood by what its members are, whatever the layout of the text
and the order of the members. The type may come last; members that are not asked for may stand
anywhere. A member that is asked for may be given once.

## Main definitions

* `Event.MessageLine`, `Event.ClosedLine` — what the members of a line of each type have to be
* `Event.KnownKey` — the keys that a line of its type asks for
* `Event.ShapeCheck` — a check that refuses only what has another shape

## Main results

* `Event.check_message_iff`, `Event.check_closed_iff` — the fields of each type
* `Event.readLine_message_iff`, `Event.readLine_closed_iff` — the lines of each type
* `Event.ofLine_object` — the events of lines that write objects
-/

namespace StompRelay

open Json

/-- A header as a pair of strings. -/
def Header.toJson (h : Header) : Json := .array [.string h.name, .string h.value]

namespace Event

/-! ### What a line has to say -/

/-- What may be given for a command: nothing, null or a word. -/
inductive CommandGiven : List Json → Option String → Prop where
  | absent : CommandGiven [] none
  | null : CommandGiven [.null] none
  | word (s : String) : CommandGiven [.string s] (some s)

/-- What may be given for headers: nothing, or an array of pairs of strings. -/
inductive HeadersGiven : List Json → Headers → Prop where
  | absent : HeadersGiven [] []
  | array (hs : Headers) : HeadersGiven [.array (hs.map Header.toJson)] hs

/-- What may be given for a payload: nothing, null, a text or any other value. -/
inductive PayloadGiven : List Json → Payload → Prop where
  | absent : PayloadGiven [] .empty
  | null : PayloadGiven [.null] .empty
  | text (s : String) : PayloadGiven [.string s] (.text s)
  | json {v : Json} : v ≠ .null → (∀ s, v ≠ .string s) → PayloadGiven [v] (.json v)

/-- The members of a line of type `message`. -/
structure MessageLine (members : List (String × Json)) (d : Draft) : Prop where
  type : given members "type" = [.string "message"]
  session : given members "session_id" = [.string d.session]
  command : CommandGiven (given members "command") d.command
  headers : HeadersGiven (given members "headers") d.headers
  payload : PayloadGiven (given members "payload") d.payload

/-- The members of a line of type `closed`. -/
structure ClosedLine (members : List (String × Json)) (session : SessionId) : Prop where
  type : given members "type" = [.string "closed"]
  session : given members "session_id" = [.string session]

/-- The fields of the line of a message. -/
def draft (m : Message) : Draft := ⟨m.session, m.command.map Command.token, m.headers, m.payload⟩

/-- The name of a type. -/
def Kind.name : Kind → String
  | .message => "message"
  | .closed => "closed"

/-- The fields of a line of each type. -/
def Kind.keys : Kind → List String
  | .message => ["session_id", "command", "headers", "payload"]
  | .closed => ["session_id"]

variable {members : List (String × Json)}

/-! ### Checking the fields -/

/-- A field is what is given once. -/
theorem field_eq (key : String) :
    field members key
      = match given members key with
        | [] => .ok none
        | [v] => .ok (some v)
        | _ => .error .wrongShape := by
  rw [field, given]
  generalize members.filter (fun m => m.1 = key) = ms
  rcases ms with _ | ⟨⟨k, v⟩, _ | ⟨m, ms⟩⟩ <;> rfl

theorem requiredString_iff {key s : String} :
    (field members key >>= requiredString) = .ok s ↔ given members key = [.string s] := by
  rw [field_eq]
  generalize given members key = vs
  rcases vs with _ | ⟨v, _ | ⟨w, vs⟩⟩
  · simp [bind, Except.bind, requiredString]
  · cases v <;> simp [bind, Except.bind, requiredString]
  · simp [bind, Except.bind]

theorem optionalString_iff {key : String} {s : Option String} :
    (field members key >>= optionalString) = .ok s ↔ CommandGiven (given members key) s := by
  rw [field_eq]
  generalize given members key = vs
  constructor
  · intro h
    rcases vs with _ | ⟨v, _ | ⟨w, vs⟩⟩
    · cases h
      exact .absent
    · cases v with
      | null =>
        cases h
        exact .null
      | string s =>
        cases h
        exact .word s
      | _ => cases h
    · cases h
  · rintro (_ | _ | s) <;> rfl

theorem headerOf_iff {v : Json} {h : Header} : headerOf v = .ok h ↔ v = h.toJson := by
  constructor
  · intro hv
    unfold headerOf at hv
    split at hv
    · cases hv
      rfl
    · cases hv
  · rintro rfl
    rfl

theorem mapM_headerOf_iff {items : List Json} {hs : Headers} :
    items.mapM headerOf = .ok hs ↔ items = hs.map Header.toJson := by
  induction items generalizing hs with
  | nil => cases hs <;> simp [pure, Except.pure]
  | cons v items ih =>
    rw [List.mapM_cons, bind_eq_ok_iff]
    simp only [bind_eq_ok_iff, headerOf_iff, ih]
    cases hs <;> simp [pure, Except.pure]

theorem headersOf_iff {key : String} {hs : Headers} :
    (field members key >>= headersOf) = .ok hs ↔ HeadersGiven (given members key) hs := by
  rw [field_eq]
  generalize given members key = vs
  constructor
  · intro h
    rcases vs with _ | ⟨v, _ | ⟨w, vs⟩⟩
    · cases h
      exact .absent
    · cases v with
      | array items =>
        rw [mapM_headerOf_iff.mp h]
        exact .array hs
      | _ => cases h
    · cases h
  · rintro (_ | _)
    · rfl
    · exact mapM_headerOf_iff.mpr rfl

theorem payloadOf_iff {key : String} {p : Payload} :
    (field members key).map payloadOf = .ok p ↔ PayloadGiven (given members key) p := by
  rw [field_eq]
  generalize given members key = vs
  constructor
  · intro h
    rcases vs with _ | ⟨v, _ | ⟨w, vs⟩⟩
    · cases h
      exact .absent
    · cases v with
      | null =>
        cases h
        exact .null
      | string s =>
        cases h
        exact .text s
      | _ =>
        cases h
        exact .json (by simp) (by simp)
    · cases h
  · intro h
    cases h with
    | @json v hnull hstring =>
      cases v with
      | null => exact absurd rfl hnull
      | string s => exact absurd rfl (hstring s)
      | _ => rfl
    | _ => rfl

/-- The fields of a line of type `message` are in order exactly if each is. -/
theorem check_message_iff {dr : Draft} :
    check .message (.named members) = .ok (.inl dr)
      ↔ given members "session_id" = [.string dr.session]
        ∧ CommandGiven (given members "command") dr.command
        ∧ HeadersGiven (given members "headers") dr.headers
        ∧ PayloadGiven (given members "payload") dr.payload := by
  rw [← requiredString_iff, ← optionalString_iff, ← headersOf_iff, ← payloadOf_iff]
  -- all four fields are looked up before the first is checked
  simp only [check, draftOf, bind_eq_ok_iff]
  constructor
  · rintro ⟨s, hs, c, hc, h, hh, p, hp, _, ⟨_, hid, _, hcommand, _, hheaders, ⟨⟩⟩, ⟨⟩⟩
    exact ⟨⟨s, hs, hid⟩, ⟨c, hc, hcommand⟩, ⟨h, hh, hheaders⟩, by rw [hp]; rfl⟩
  · rintro ⟨⟨s, hs, hid⟩, ⟨c, hc, hcommand⟩, ⟨h, hh, hheaders⟩, hpayload⟩
    cases hp : field members "payload" with
    | error f =>
      rw [hp] at hpayload
      cases hpayload
    | ok p =>
      rw [hp] at hpayload
      have hpayload : payloadOf p = dr.payload := Except.ok.inj hpayload
      exact ⟨s, hs, c, hc, h, hh, p, rfl, dr,
        ⟨_, hid, _, hcommand, _, hheaders, by rw [hpayload]; rfl⟩, rfl⟩

/-- The fields of a line of type `closed` are in order exactly if the session is. -/
theorem check_closed_iff {session : SessionId} :
    check .closed (.named members) = .ok (.inr session)
      ↔ given members "session_id" = [.string session] := by
  rw [← requiredString_iff]
  simp only [check, bind_eq_ok_iff]
  constructor
  · rintro ⟨v, hv, _, hsession, ⟨⟩⟩
    exact ⟨v, hv, hsession⟩
  · rintro ⟨v, hv, hsession⟩
    exact ⟨v, hv, _, hsession, rfl⟩

theorem check_message_ne {session : SessionId} :
    check .message (.named members) ≠ .ok (.inr session) := by
  simp only [check, ne_eq, bind_eq_ok_iff]
  rintro ⟨_, _, _, _, _, _, _, _, _, _, ⟨⟩⟩

theorem check_closed_ne {dr : Draft} : check .closed (.named members) ≠ .ok (.inl dr) := by
  simp only [check, ne_eq, bind_eq_ok_iff]
  rintro ⟨_, _, _, _, ⟨⟩⟩

/-! ### Why fields are refused -/

/-- A check that refuses only what has another shape than the one asked for. -/
def ShapeCheck {α : Type} (x : Except Fault α) : Prop := ∀ f, x = .error f → f = .wrongShape

theorem ShapeCheck.bind {α β : Type} {x : Except Fault α} {g : α → Except Fault β}
    (hx : ShapeCheck x) (hg : ∀ a, ShapeCheck (g a)) : ShapeCheck (x >>= g) := by
  cases x with
  | error f =>
    rintro f' ⟨⟩
    exact hx f rfl
  | ok a => exact hg a

theorem shapeCheck_ok {α : Type} (a : α) : ShapeCheck (.ok a : Except Fault α) := by
  rintro f ⟨⟩

theorem shapeCheck_wrongShape {α : Type} : ShapeCheck (.error .wrongShape : Except Fault α) := by
  rintro f ⟨⟩
  rfl

theorem shapeCheck_field (key : String) : ShapeCheck (field members key) := by
  unfold field
  split
  · exact shapeCheck_ok _
  · exact shapeCheck_ok _
  · exact shapeCheck_wrongShape

theorem shapeCheck_requiredString (v : Option Json) : ShapeCheck (requiredString v) := by
  unfold requiredString
  split
  · exact shapeCheck_ok _
  · exact shapeCheck_wrongShape

theorem shapeCheck_optionalString (v : Option Json) : ShapeCheck (optionalString v) := by
  unfold optionalString
  split
  · exact shapeCheck_ok _
  · exact shapeCheck_ok _
  · exact shapeCheck_ok _
  · exact shapeCheck_wrongShape

theorem shapeCheck_headerOf (v : Json) : ShapeCheck (headerOf v) := by
  unfold headerOf
  split
  · exact shapeCheck_ok _
  · exact shapeCheck_wrongShape

theorem shapeCheck_headersOf (v : Option Json) : ShapeCheck (headersOf v) := by
  unfold headersOf
  split
  · exact shapeCheck_ok _
  · rename_i items
    induction items with
    | nil => exact shapeCheck_ok _
    | cons v items ih =>
      rw [List.mapM_cons]
      exact (shapeCheck_headerOf v).bind fun h => ih.bind fun hs => shapeCheck_ok (h :: hs)
  · exact shapeCheck_wrongShape

theorem shapeCheck_check (k : Kind) : ShapeCheck (check k (.named members)) := by
  cases k with
  | message =>
    refine (shapeCheck_field _).bind fun s => (shapeCheck_field _).bind fun c =>
      (shapeCheck_field _).bind fun h => (shapeCheck_field _).bind fun p => ?_
    refine ShapeCheck.bind ?_ fun d => shapeCheck_ok _
    exact (shapeCheck_requiredString s).bind fun _ => (shapeCheck_optionalString c).bind fun _ =>
      (shapeCheck_headersOf h).bind fun _ => shapeCheck_ok _
  | closed =>
    exact (shapeCheck_field _).bind fun s => (shapeCheck_requiredString s).bind fun _ =>
      shapeCheck_ok _

/-! ### Whole lines -/

/-- A line that writes an object is read by its type and its fields. -/
theorem readLine_eq {cs : List Char} (h : WritesObject cs members) :
    readLine (tokens cs)
      = match typeOf? members with
        | some k => check k (.named (fieldsOf members))
        | none => .error .wrongShape := by
  obtain ⟨entries, hcs, hforms, rfl⟩ := h
  rw [hcs.tokens_eq, readLine, readFields_eq hforms]
  cases typeOf? (entries.map Entry.member) with
  | none => rfl
  | some k =>
    simp only [bind, Except.bind]
    cases check k (.named (fieldsOf (entries.map Entry.member))) <;> rfl

theorem ofName?_eq_some_iff {s : String} {k : Kind} : Kind.ofName? s = some k ↔ s = k.name := by
  unfold Kind.ofName? Kind.name
  cases k <;> grind

theorem typeOf?_eq_some_iff {k : Kind} :
    typeOf? members = some k ↔ given members "type" = [.string k.name] := by
  unfold typeOf?
  generalize given members "type" = vs
  rcases vs with _ | ⟨v, _ | ⟨w, vs⟩⟩
  · simp
  · cases v <;> simp [kindOf?, ofName?_eq_some_iff]
  · simp

section Object

variable {cs : List Char} (h : WritesObject cs members)

include h

theorem readLine_message_iff {dr : Draft} :
    readLine (tokens cs) = .ok (.inl dr) ↔ MessageLine members dr := by
  rw [readLine_eq h]
  constructor
  · intro hread
    cases htype : typeOf? members with
    | none =>
      rw [htype] at hread
      cases hread
    | some k =>
      rw [htype] at hread
      cases k with
      | message =>
        obtain ⟨hsession, hcommand, hheaders, hpayload⟩ := check_message_iff.mp hread
        rw [given_fieldsOf (by decide)] at hsession hcommand hheaders hpayload
        exact ⟨typeOf?_eq_some_iff.mp htype, hsession, hcommand, hheaders, hpayload⟩
      | closed => exact absurd hread check_closed_ne
  · rintro ⟨htype, hsession, hcommand, hheaders, hpayload⟩
    have hkind : typeOf? members = some .message := typeOf?_eq_some_iff.mpr htype
    rw [hkind]
    refine check_message_iff.mpr ⟨?_, ?_, ?_, ?_⟩ <;> rwa [given_fieldsOf (by decide)]

theorem readLine_closed_iff {session : SessionId} :
    readLine (tokens cs) = .ok (.inr session) ↔ ClosedLine members session := by
  rw [readLine_eq h]
  constructor
  · intro hread
    cases htype : typeOf? members with
    | none =>
      rw [htype] at hread
      cases hread
    | some k =>
      rw [htype] at hread
      cases k with
      | message => exact absurd hread check_message_ne
      | closed =>
        have hsession := check_closed_iff.mp hread
        rw [given_fieldsOf (by decide)] at hsession
        exact ⟨typeOf?_eq_some_iff.mp htype, hsession⟩
  · rintro ⟨htype, hsession⟩
    have hkind : typeOf? members = some .closed := typeOf?_eq_some_iff.mpr htype
    rw [hkind]
    exact check_closed_iff.mpr (by rwa [given_fieldsOf (by decide)])

theorem shapeCheck_readLine : ShapeCheck (readLine (tokens cs)) := by
  rw [readLine_eq h]
  split
  · exact shapeCheck_check _
  · exact shapeCheck_wrongShape

end Object

/-! ### Fields that are given twice -/

theorem CommandGiven.length_le {vs : List Json} {s : Option String} (h : CommandGiven vs s) :
    vs.length ≤ 1 := by
  cases h <;> simp

theorem HeadersGiven.length_le {vs : List Json} {hs : Headers} (h : HeadersGiven vs hs) :
    vs.length ≤ 1 := by
  cases h <;> simp

theorem PayloadGiven.length_le {vs : List Json} {p : Payload} (h : PayloadGiven vs p) :
    vs.length ≤ 1 := by
  cases h <;> simp

/-- No field of a line is given twice, and neither is its type. -/
theorem MessageLine.length_le {dr : Draft} (h : MessageLine members dr) {key : String}
    (hkey : key = "type" ∨ key ∈ Kind.message.keys) : (given members key).length ≤ 1 := by
  simp only [Kind.keys, List.mem_cons, List.not_mem_nil, or_false] at hkey
  rcases hkey with rfl | rfl | rfl | rfl | rfl
  · simp [h.type]
  · simp [h.session]
  · exact h.command.length_le
  · exact h.headers.length_le
  · exact h.payload.length_le

theorem ClosedLine.length_le {session : SessionId} (h : ClosedLine members session) {key : String}
    (hkey : key = "type" ∨ key ∈ Kind.closed.keys) : (given members key).length ≤ 1 := by
  simp only [Kind.keys, List.mem_cons, List.not_mem_nil, or_false] at hkey
  rcases hkey with rfl | rfl
  · simp [h.type]
  · simp [h.session]

theorem Kind.name_injective {k k' : Kind} (h : k.name = k'.name) : k = k' := by
  revert h
  cases k <;> cases k' <;> decide

/-- The key is the type, or a field of lines of the type that is given. -/
def KnownKey (members : List (String × Json)) (key : String) : Prop :=
  key = "type" ∨ ∃ k : Kind, given members "type" = [.string k.name] ∧ key ∈ k.keys

theorem KnownKey.of_type {key : String} (hkey : KnownKey members key) {k : Kind}
    (htype : given members "type" = [.string k.name]) : key = "type" ∨ key ∈ k.keys := by
  rcases hkey with rfl | ⟨k', htype', hkey⟩
  · exact .inl rfl
  · simp only [htype, List.cons.injEq, string.injEq, and_true] at htype'
    exact .inr (Kind.name_injective htype' ▸ hkey)

theorem readLine_of_twice {cs : List Char} (h : WritesObject cs members) {key : String}
    (hkey : KnownKey members key) (htwice : 2 ≤ (given members key).length) :
    readLine (tokens cs) = .error .wrongShape := by
  -- whatever the line is read as, each field of it would have been given once
  cases hread : readLine (tokens cs) with
  | error f => rw [shapeCheck_readLine h f hread]
  | ok checked =>
    cases checked with
    | inl dr =>
      have hline := (readLine_message_iff h).mp hread
      have hle := hline.length_le (hkey.of_type hline.type)
      omega
    | inr session =>
      have hline := (readLine_closed_iff h).mp hread
      have hle := hline.length_le (hkey.of_type hline.type)
      omega

/-! ### Events -/

/-- A draft becomes a message if its command is one. -/
theorem toMessage_eq_ok_iff {dr : Draft} {m : Message} : dr.toMessage = .ok m ↔ dr = draft m := by
  obtain ⟨session, command, headers, payload⟩ := dr
  obtain ⟨session', command', headers', payload'⟩ := m
  cases command with
  | none => cases command' <;> simp [Draft.toMessage, draft]
  | some token =>
    cases hcommand : Command.ofToken? token with
    | none =>
      -- no command has this token
      have hne (c : Command) : token ≠ c.token := by
        rintro rfl
        cases (Command.ofToken?_token c).symm.trans hcommand
      cases command' <;> simp [Draft.toMessage, draft, hcommand, hne]
    | some c =>
      obtain rfl := Command.ofToken?_eq_some_iff.mp hcommand
      cases command' with
      | none => simp [Draft.toMessage, draft]
      | some c' =>
        have htoken : c.token = c'.token ↔ c = c' := ⟨Command.token_injective, congrArg _⟩
        simp [Draft.toMessage, draft, htoken]

/-- The events of lines that write objects. Such a line is understood by the values that are given
under each key, so neither the layout of its text nor the order of its members matters, nor do
members with other keys. It asks for a message exactly if its members are those of the message, and
tells that a client has gone exactly if they say so. A word that is no command is named in the
fault, and a field that is given twice is refused. -/
theorem ofLine_object {cs : List Char} (h : WritesObject cs members) :
    (∀ m, ofLine cs = .ok (.message m) ↔ MessageLine members (draft m))
      ∧ (∀ session, ofLine cs = .ok (.closed session) ↔ ClosedLine members session)
      ∧ (∀ dr token, MessageLine members dr → dr.command = some token →
        Command.ofToken? token = none → ofLine cs = .error (.frame (.unknownCommand token)))
      ∧ ∀ key, KnownKey members key → 2 ≤ (given members key).length →
        ofLine cs = .error (.json .wrongShape) := by
  refine ⟨fun m => ?_, fun session => ?_, fun dr token hline hcommand hunknown => ?_,
    fun key hkey htwice => ?_⟩
  · rw [← readLine_message_iff h, ofLine]
    cases readLine (tokens cs) with
    | error f => simp
    | ok checked =>
      cases checked with
      | inl dr =>
        simp only [Except.ok.injEq, Sum.inl.injEq, ← toMessage_eq_ok_iff]
        cases dr.toMessage <;> simp [Except.map]
      | inr session => simp
  · rw [← readLine_closed_iff h, ofLine]
    cases readLine (tokens cs) with
    | error f => simp
    | ok checked =>
      cases checked with
      | inl dr => cases hm : dr.toMessage <;> simp [hm, Except.map]
      | inr session => simp
  · rw [ofLine, (readLine_message_iff h).mpr hline]
    simp [Draft.toMessage, hcommand, hunknown, Except.map]
  · rw [ofLine, readLine_of_twice h hkey htwice]

/-- A line whose type comes after its payload and after a member that nobody asks for. -/
def lateTypeLine : String :=
  "\x7b\"payload\":\"hi\",\"n\":[\"x\"],\"type\":\"message\",\"session_id\":\"s\"\x7d"

theorem ofLine_object_of_late_type :
    WritesObject lateTypeLine.toList
        [("payload", .string "hi"), ("n", .array [.string "x"]), ("type", .string "message"),
          ("session_id", .string "s")]
      ∧ ofLine lateTypeLine.toList = .ok (.message ⟨"s", none, [], .text "hi"⟩) := by
  have hlist : Renders (maxDepth - 1) (writeArray [writeString "x"]) (.ofItems [.ofString "x"]) :=
    @renders_array _ _ writeString Item.ofString ["x"] fun s _ => renders_string s
  have h := @writesObject_write
    [(writeString "hi", ⟨.ofString "hi", "payload"⟩),
      (writeArray [writeString "x"], ⟨.ofItems [.ofString "x"], "n"⟩),
      (writeString "message", ⟨.ofString "message", "type"⟩),
      (writeString "s", ⟨.ofString "s", "session_id"⟩)]
    (by simpa [renders_string] using hlist)
  exact ⟨h, ((ofLine_object h).1 _).mpr ⟨rfl, rfl, .absent, .absent, .text "hi"⟩⟩

end Event

end StompRelay
