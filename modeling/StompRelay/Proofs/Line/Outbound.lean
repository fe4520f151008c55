import StompRelay.Line.Input
import StompRelay.Line.Printer
import StompRelay.Proofs.Json.RoundTrip
import StompRelay.Proofs.Line.Inbound
import StompRelay.Proofs.Text.Utf8
/-!
# Messages from their lines

A message goes out as one line of visible text, so cutting what was printed at every line feed
gives the lines of the messages in order. Each line is a JSON object in which everything about the
message is found again: its payload as a text, or as a list of bytes where it is not text.

## Main definitions

* `Payload.content`, `Payload.Unreadable` — the bytes of a payload, and whether they are not text
* `Message.Told` — what the members of an object say about a message

## Main results

* `Message.exists_told` — a line is visible, and its object tells all about the message
* `Message.Told.parse_body` — a JSON payload is found again in the body
* `Message.eq_of_toLine` — messages from a broker are told apart by their lines
* `splitOn_toLines` — the lines are found in what was printed
* `Message.lines_lossless` — all of this in one
-/

namespace StompRelay

/-- The bytes of a payload. A JSON value stands for its text. -/
def Payload.content : Payload → Bytes
  | .empty => []
  | .bytes bs => bs
  | .text s => Utf8.encodeText s
  | .json v => Utf8.encode v.write

/-- The payload is bytes that are not text. -/
def Payload.Unreadable (p : Payload) : Prop := ∃ bs, p = .bytes bs ∧ ∀ s, bs ≠ Utf8.encodeText s

/-- The members of an object tell all about a message. -/
structure Message.Told (members : List (String × Json)) (m : Message) : Prop where
  session : members.lookup "session_id" = some (.string m.session)
  command : members.lookup "command" = m.command.map fun c => .string c.token
  headers : members.lookup "headers" = some (.array (m.headers.map Header.toJson))
  text : ¬m.payload.Unreadable → members.lookup "body_bytes" = none
    ∧ ∃ s, members.lookup "body" = some (.string s) ∧ Utf8.encodeText s = m.payload.content
  bytes : m.payload.Unreadable → members.lookup "body" = none
    ∧ members.lookup "body_bytes"
      = some (.array (m.payload.content.map fun b => .number (.whole b.toNat)))

open Json

variable {m : Message} {body : List Char × Entry} {members : List (String × Json)}

/-! ### The members of a line -/

/-- The body is a string whose bytes are those of the payload, or the list of these bytes. -/
theorem Payload.writeBody_cases (p : Payload) :
    (¬p.Unreadable ∧ ∃ s, Utf8.encodeText s = p.content
      ∧ p.writeBody = writeMember "body" (writeString s))
    ∨ (p.Unreadable ∧ p.writeBody
      = writeMember "body_bytes" (writeArray (p.content.map fun b => Numeral.write b.toNat))) := by
  have readable {p : Payload} (h : ∀ bs, p ≠ .bytes bs) : ¬p.Unreadable :=
    fun ⟨bs, hbs, _⟩ => h bs hbs
  cases p with
  | empty => exact .inl ⟨readable (by simp), "", rfl, rfl⟩
  | text s => exact .inl ⟨readable (by simp), s, rfl, rfl⟩
  | json v =>
    exact .inl ⟨readable (by simp), String.ofList v.write, by simp [Utf8.encodeText, content], rfl⟩
  | bytes bs =>
    cases hdecode : Utf8.decodeText bs with
    | ok s =>
      have hbs := Utf8.decodeText_eq_ok_iff.mp hdecode
      refine .inl ⟨?_, s, hbs.symm, by simp [writeBody, hdecode]⟩
      rintro ⟨_, ⟨⟩, hne⟩
      exact hne s hbs
    | error f =>
      refine .inr ⟨⟨bs, rfl, fun s hs => ?_⟩, by simp [writeBody, hdecode, content]⟩
      rw [Utf8.decodeText_eq_ok_iff.mpr hs] at hdecode
      cases hdecode

/-- A header as an item of the array of headers. -/
def Header.item (h : Header) : Item := .ofItems [.ofString h.name, .ofString h.value]

/-- The members of a line, given that of its body, each with the text of its value. -/
def Message.entries (m : Message) (body : List Char × Entry) : List (List Char × Entry) :=
  (writeString m.session, ⟨.ofString m.session, "session_id"⟩) ::
    (m.command.toList.map fun c => (writeString c.token, ⟨.ofString c.token, "command"⟩)) ++
    [(m.headers.write, ⟨.ofItems (m.headers.map Header.item), "headers"⟩), body]

theorem Message.toLine_eq (hbody : m.payload.writeBody = writeMember body.2.key body.1) :
    m.toLine = writeObject ((m.entries body).map fun p => writeMember p.2.key p.1) := by
  unfold toLine entries
  cases m.command <;> simp [hbody]

theorem renders_headers {d : Nat} (hs : Headers) :
    Renders (d + 2) hs.write (.ofItems (hs.map Header.item)) := by
  refine renders_array fun h _ => ?_
  exact @renders_array _ _ writeString Item.ofString [h.name, h.value] fun s _ => renders_string s

theorem Message.renders_toLine (body : List Char × Entry)
    (hbody : m.payload.writeBody = writeMember body.2.key body.1)
    (h : Renders 126 body.1 body.2.toItem) :
    Renders maxDepth m.toLine (.ofEntries ((m.entries body).map Prod.snd)) := by
  rw [toLine_eq hbody]
  refine renders_object fun p hp => ?_
  simp only [entries, List.cons_append, List.mem_cons, List.mem_append, List.mem_map,
    List.not_mem_nil, or_false] at hp
  rcases hp with rfl | ⟨c, -, rfl⟩ | rfl | rfl
  · exact renders_string _
  · exact renders_string _
  · exact renders_headers _
  · exact h

/-! ### What an object tells -/

/-- The members of the object that a line writes. -/
def Message.lineMembers (m : Message) (body : List Char × Entry) : List (String × Json) :=
  ((m.entries body).map fun p => p.2.member).foldl (fun sorted e => insertMember e.1 e.2 sorted) []

theorem Message.lookup_lineMembers (key : String) :
    (m.lineMembers body).lookup key
      = if key = body.2.key then some body.2.value
        else if key = "headers" then some (.array (m.headers.map Header.toJson))
        else if key = "command" then m.command.map fun c => .string c.token
        else if key = "session_id" then some (.string m.session)
        else none := by
  have hitem : (fun h : Header => h.item.value) = Header.toJson := rfl
  cases hc : m.command with
  | none =>
    have hcommand : key = "command" → key ≠ "session_id" := by
      rintro rfl
      decide
    simp only [lineMembers, entries, hc, lookup_insertMember, Entry.member, Item.ofString,
      Item.ofItems, List.map_map, Function.comp_def, hitem, Option.toList, List.map_nil,
      List.cons_append, List.nil_append, List.map_cons, List.foldl_cons, List.foldl_nil,
      List.lookup_nil, Option.map_none]
    grind
  | some c =>
    simp [lineMembers, entries, hc, lookup_insertMember, Entry.member, Item.ofString, Item.ofItems,
      Function.comp_def, hitem]

/-- A line is visible, and it is read as the object of its members. -/
theorem Message.read_toLine (body : List Char × Entry)
    (hbody : m.payload.writeBody = writeMember body.2.key body.1)
    (h : Renders 126 body.1 body.2.toItem) :
    Visible m.toLine ∧ Json.parse m.toLine = .ok (.object (m.lineMembers body)) := by
  have hline := renders_toLine body hbody h
  refine ⟨hline.visible, ?_⟩
  rw [parse_eq_of_forms hline.wrote.spells hline.forms, Item.ofEntries, ofMembers, List.map_map]
  rfl

/-- The object that a line writes tells all about its message. -/
theorem Message.exists_told (m : Message) :
    Visible m.toLine ∧ ∃ members, Json.parse m.toLine = .ok (.object members) ∧ Told members m := by
  -- the body is the only member that depends on whether the payload is text
  rcases m.payload.writeBody_cases with ⟨hreadable, s, hs, hbody⟩ | ⟨hunreadable, hbody⟩
  · obtain ⟨hvisible, hparse⟩ := read_toLine (writeString s, ⟨.ofString s, "body"⟩) hbody
      (renders_string s)
    exact ⟨hvisible, _, hparse,
      { session := by simp [lookup_lineMembers]
        command := by simp [lookup_lineMembers]
        headers := by simp [lookup_lineMembers]
        text := fun _ =>
          ⟨by simp [lookup_lineMembers], s, by simp [lookup_lineMembers, Item.ofString], hs⟩
        bytes := fun h => absurd h hreadable }⟩
  · obtain ⟨hvisible, hparse⟩ := read_toLine
      (writeArray (m.payload.content.map fun b => Numeral.write b.toNat),
        ⟨.ofItems (m.payload.content.map fun b => .ofNat b.toNat), "body_bytes"⟩) hbody
      (renders_array fun b _ =>
        renders_natural (Nat.le_trans (Nat.le_of_lt b.toNat_lt) (by decide)))
    exact ⟨hvisible, _, hparse,
      { session := by simp [lookup_lineMembers]
        command := by simp [lookup_lineMembers]
        headers := by simp [lookup_lineMembers]
        text := fun h => absurd hunreadable h
        bytes := fun _ => ⟨by simp [lookup_lineMembers], by
          simp [lookup_lineMembers, Item.ofItems, Item.ofNat, Function.comp_def]⟩ }⟩

/-- A JSON payload is found again in the body. -/
theorem Message.Told.parse_body {v : Json} (h : Told members m) (hp : m.payload = .json v)
    (hv : Plain maxDepth v) :
    ∃ s, members.lookup "body" = some (.string s) ∧ Json.parse s.toList = .ok v := by
  have hreadable : ¬m.payload.Unreadable := by
    rw [hp]
    rintro ⟨bs, ⟨⟩, -⟩
  obtain ⟨s, hs, hcontent⟩ := (h.text hreadable).2
  have hwrite : Utf8.encodeText s = Utf8.encodeText (String.ofList v.write) := by
    rw [hcontent, hp, Payload.content, Utf8.encodeText, String.toList_ofList]
  obtain rfl : s = String.ofList v.write := by
    have hdecode := Utf8.decodeText_eq_ok_iff.mpr hwrite
    exact Except.ok.inj ((Utf8.decodeText_eq_ok_iff.mpr rfl).symm.trans hdecode)
  refine ⟨_, hs, ?_⟩
  rw [String.toList_ofList]
  exact hv.parse_write.2

/-! ### Messages from their lines -/

theorem Header.toJson_injective : Function.Injective Header.toJson := by
  rintro ⟨name, value⟩ ⟨name', value'⟩ h
  simp only [toJson, array.injEq, List.cons.injEq, string.injEq] at h
  rw [h.1, h.2.1]

theorem wholeOfByte_injective :
    Function.Injective fun b : UInt8 => Json.number (.whole b.toNat) := by
  intro a b h
  simp only [number.injEq, Number.whole.injEq, Int.natCast_inj] at h
  exact UInt8.toNat_inj.mp h

theorem string_token_injective :
    Function.Injective fun c : Command => Json.string c.token :=
  fun _ _ h => Command.token_injective (string.inj h)

/-- The bytes of a payload are told, as a text or as a list. -/
theorem content_eq_of_told {m m' : Message} (h : m.Told members) (h' : m'.Told members) :
    m.payload.content = m'.payload.content := by
  by_cases hm : m.payload.Unreadable <;> by_cases hm' : m'.payload.Unreadable
  · have heq := Option.some.inj ((h.bytes hm).2.symm.trans (h'.bytes hm').2)
    exact List.map_injective_iff.mpr wholeOfByte_injective (array.inj heq)
  · -- a body that is a list is not a string as well
    obtain ⟨s, hs, -⟩ := (h'.text hm').2
    cases hs.symm.trans (h.bytes hm).1
  · obtain ⟨s, hs, -⟩ := (h.text hm).2
    cases hs.symm.trans (h'.bytes hm').1
  · obtain ⟨s, hs, hcontent⟩ := (h.text hm).2
    obtain ⟨s', hs', hcontent'⟩ := (h'.text hm').2
    obtain rfl := string.inj (Option.some.inj (hs.symm.trans hs'))
    rw [← hcontent, ← hcontent']

/-- Messages whose payloads are bytes are told apart. -/
theorem eq_of_told {id id' : SessionId} {c c' : Option Command} {hs hs' : Headers}
    {bs bs' : Bytes} (h : Message.Told members ⟨id, c, hs, .bytes bs⟩)
    (h' : Message.Told members ⟨id', c', hs', .bytes bs'⟩) :
    (⟨id, c, hs, .bytes bs⟩ : Message) = ⟨id', c', hs', .bytes bs'⟩ := by
  obtain rfl : id = id' := string.inj (Option.some.inj (h.session.symm.trans h'.session))
  obtain rfl : c = c' :=
    Option.map_injective string_token_injective (h.command.symm.trans h'.command)
  obtain rfl : hs = hs' := List.map_injective_iff.mpr Header.toJson_injective
    (array.inj (Option.some.inj (h.headers.symm.trans h'.headers)))
  obtain rfl : bs = bs' := content_eq_of_told h h'
  rfl

/-- Messages from a broker are told apart by their lines. -/
theorem Message.eq_of_toLine {id id' : SessionId} {c c' : Option Command} {hs hs' : Headers}
    {bs bs' : Bytes}
    (h : Message.toLine ⟨id, c, hs, .bytes bs⟩ = Message.toLine ⟨id', c', hs', .bytes bs'⟩) :
    (⟨id, c, hs, .bytes bs⟩ : Message) = ⟨id', c', hs', .bytes bs'⟩ := by
  -- equal lines are read as the same object, which tells all about both messages
  obtain ⟨-, members, hparse, htold⟩ := exists_told ⟨id, c, hs, .bytes bs⟩
  obtain ⟨-, members', hparse', htold'⟩ := exists_told ⟨id', c', hs', .bytes bs'⟩
  rw [h, hparse'] at hparse
  obtain rfl : members' = members := object.inj (Except.ok.inj hparse)
  exact eq_of_told htold htold'

/-! ### Lines among each other -/

/-- Visible text has no bytes below the space. -/
theorem le_of_mem_encode {cs : List Char} (h : Visible cs) : ∀ b ∈ Utf8.encode cs, 0x20 ≤ b := by
  intro b hb
  -- such a byte stands for itself in UTF-8, so its character would be in the text
  refine UInt8.le_iff_toNat_le.mpr (Nat.le_of_not_lt fun hlt => ?_)
  have hlt : b.toNat < 0x20 := hlt
  have hchar := h _ ((Utf8.mem_encode_iff (by omega)).mp hb)
  rw [Utf8.toNat_ofNat (.inl (by omega))] at hchar
  omega

theorem lf_not_mem_toLine (m : Message) : BusInput.lf ∉ Utf8.encode m.toLine :=
  fun h => absurd (le_of_mem_encode m.exists_told.1 _ h) (by decide)

/-- Cutting the lines of messages at every line feed gives them back. -/
theorem splitOn_toLines (ms : List Message) :
    (Utf8.encode (Message.toLines ms)).splitOn BusInput.lf
      = ms.map (fun m => Utf8.encode m.toLine) ++ [[]] := by
  induction ms with
  | nil => rfl
  | cons m ms ih =>
    have hcons : Utf8.encode (Message.toLines (m :: ms))
        = Utf8.encode m.toLine ++ BusInput.lf :: Utf8.encode (Message.toLines ms) := by
      simp only [Message.toLines, List.flatMap_cons, Utf8.encode_append, List.append_assoc]
      rfl
    rw [hcons, List.splitOn_append_cons_self_of_not_mem (lf_not_mem_toLine m), ih]
    rfl

/-- The line of a message has no byte below the space, so the lines of messages are found in what
was printed, in order. The object that a line writes tells all about its message; where the payload
is a JSON value without floating-point numbers, its body is read as that value. Messages from a
broker, whose payloads are bytes, have the same line only if they are the same. -/
theorem Message.lines_lossless (ms : List Message) (m : Message) :
    (∀ b ∈ Utf8.encode m.toLine, 0x20 ≤ b)
      ∧ (Utf8.encode (toLines ms)).splitOn BusInput.lf
        = ms.map (fun m => Utf8.encode m.toLine) ++ [[]]
      ∧ (∃ members, Json.parse m.toLine = .ok (.object members) ∧ Told members m
        ∧ ∀ v, m.payload = .json v → Json.Plain Json.maxDepth v →
          ∃ s, members.lookup "body" = some (.string s) ∧ Json.parse s.toList = .ok v)
      ∧ ∀ (id id' : SessionId) (c c' : Option Command) (hs hs' : Headers) (bs bs' : Bytes),
        toLine ⟨id, c, hs, .bytes bs⟩ = toLine ⟨id', c', hs', .bytes bs'⟩
          ↔ (⟨id, c, hs, .bytes bs⟩ : Message) = ⟨id', c', hs', .bytes bs'⟩ := by
  obtain ⟨hvisible, members, hparse, htold⟩ := m.exists_told
  exact ⟨le_of_mem_encode hvisible, splitOn_toLines ms,
    ⟨members, hparse, htold, fun _ hp hv => htold.parse_body hp hv⟩,
    fun _ _ _ _ _ _ _ _ => ⟨eq_of_toLine, congrArg toLine⟩⟩

end StompRelay
