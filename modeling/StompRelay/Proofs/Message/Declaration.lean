import Mathlib.Data.List.TakeWhile
import StompRelay.Proofs.Message.Conversion
/-!
# Payloads declared under the same media type

Media types are the same if they differ in letter case only, and parameters and blanks around a type
do not belong to it. Whether a text is taken for JSON depends on the type alone; but of the two
forms of JSON types only `application/json` is known in every letter case, while the suffix `+json`
has to be in lower case. So a text declared under such a type in capitals is sent unread.

## Main definitions

* `MediaType.SameType` — two declarations are of the same media type

## Main results

* `MediaType.essence_of_parts` — parameters and blanks do not matter
* `Converter.convert_same_type` — when the same media type makes the same of a payload
* `Converter.capital_suffix_unread` — a text declared as JSON that is not read
-/

namespace StompRelay

namespace Text

variable {before cs after : List Char}

/-- Blanks before a text do not matter to what it trims to. -/
theorem trim_append_left (h : ∀ c ∈ before, isBlank c = true) : trim (before ++ cs) = trim cs := by
  rw [trim, trimLeft, List.dropWhile_append_of_pos h, trim, trimLeft]

theorem trimRight_append (h : ∀ c ∈ after, isBlank c = true) :
    trimRight (cs ++ after) = trimRight cs := by
  rw [trimRight, List.reverse_append,
    List.dropWhile_append_of_pos fun c hc => h c (List.mem_reverse.mp hc), trimRight]

/-- Blanks after a text do not matter to what it trims to. -/
theorem trim_append_right (h : ∀ c ∈ after, isBlank c = true) : trim (cs ++ after) = trim cs := by
  rw [trim, trimLeft, List.dropWhile_append]
  split
  · rename_i hempty
    -- the text is blank, and so is all of it with the blanks after it
    rw [List.isEmpty_iff] at hempty
    rw [List.dropWhile_eq_nil_iff.mpr h, trim, trimLeft, hempty]
  · rw [trimRight_append h, trim, trimLeft]

end Text

namespace MediaType

/-- Two declarations are of the same media type, whose letters may be of either case. -/
def SameType (a b : String) : Prop :=
  (essence a.toList).map Char.toLower = (essence b.toList).map Char.toLower

instance (a b : String) : Decidable (SameType a b) := inferInstanceAs (Decidable (_ = _))

variable {a b : String} {cs ds before type after rest : List Char}

/-- Parameters, and blanks around a type, do not matter. -/
theorem essence_of_parts (hbefore : ∀ c ∈ before, Text.isBlank c = true)
    (hafter : ∀ c ∈ after, Text.isBlank c = true) (htype : ';' ∉ type)
    (hrest : rest = [] ∨ ∃ parameters, rest = ';' :: parameters) :
    essence (before ++ type ++ after ++ rest) = Text.trim type := by
  have semicolon {cs : List Char} (h : ∀ c ∈ cs, Text.isBlank c = true) : ';' ∉ cs := fun hmem =>
    absurd (h _ hmem) (by decide)
  have hpart : ∀ c ∈ before ++ type ++ after, (c != ';') = true := by
    intro c hc
    rw [bne_iff_ne]
    rintro rfl
    rw [List.mem_append, List.mem_append] at hc
    exact hc.elim (·.elim (semicolon hbefore) htype) (semicolon hafter)
  have htake :
      (before ++ type ++ after ++ rest).takeWhile (· != ';') = before ++ type ++ after := by
    rw [List.takeWhile_append_of_pos hpart]
    rcases hrest with rfl | ⟨parameters, rfl⟩ <;> simp
  rw [essence, htake, Text.trim_append_right hafter, Text.trim_append_left hbefore]

/-- The JSON type proper is known in every letter case. -/
theorem isJsonProper_congr (h : cs.map Char.toLower = ds.map Char.toLower) :
    isJsonProper cs = isJsonProper ds := by
  rw [isJsonProper, h, isJsonProper]

/-- The JSON type proper does not have the suffix. -/
theorem hasJsonSuffix_of_isJsonProper (h : isJsonProper cs = true) : hasJsonSuffix cs = false := by
  rw [Bool.eq_false_iff]
  intro hsuffix
  have hlower : ("+json".toList.map Char.toLower) <:+ cs.map Char.toLower :=
    (List.isSuffixOf_iff_suffix.mp hsuffix).map _
  rw [beq_iff_eq.mp h] at hlower
  revert hlower
  decide

/-- The same media type is taken for JSON in both declarations, or in neither, exactly if the suffix
is seen in both or in neither. -/
theorem isJson_congr_iff (h : SameType a b) : isJson (some a) = isJson (some b)
    ↔ hasJsonSuffix (essence a.toList) = hasJsonSuffix (essence b.toList) := by
  have hproper := isJsonProper_congr h
  rw [isJson, isJson, Option.any_some, Option.any_some, hproper]
  cases hb : isJsonProper (essence b.toList) with
  | false => rw [Bool.false_or, Bool.false_or]
  | true =>
    rw [hasJsonSuffix_of_isJsonProper hb, hasJsonSuffix_of_isJsonProper (hproper.trans hb)]
    simp

end MediaType

namespace Converter

variable {contentType contentType' : Option String} {p : Payload} {a b s : String}

/-- The standard list sends a text as it is, but reads it first if it is declared as JSON. -/
theorem convert_standard_text : convert contentType (.text s) standard
    = if MediaType.isJson contentType then jsonBytes (.text s)
      else .ok (Utf8.encodeText s) := by
  rw [convert_of_accepts (accepts_iff_leaf.mpr (leaf_standard _)), kindFor]
  split
  · rfl
  · rfl

/-- What is not a text is converted without regard to its declared type. -/
theorem convert_standard_of_ne_text (h : ∀ s, p ≠ .text s) :
    convert contentType p standard = convert contentType' p standard := by
  cases p with
  | text s => exact absurd rfl (h s)
  | _ => rfl

/-- A text gets past the reading as it is exactly if it is JSON. -/
theorem jsonBytes_text_iff : jsonBytes (.text s) = .ok (Utf8.encodeText s)
    ↔ ∀ f, Json.parse s.toList ≠ .error f := by
  cases hparse : Json.parse s.toList <;> simp [jsonBytes, hparse]

/-- Two declared types make the same of a payload exactly if both or neither are taken for JSON, or
the payload is not a text at fault. -/
theorem convert_standard_eq_iff :
    convert contentType p standard = convert contentType' p standard
      ↔ MediaType.isJson contentType = MediaType.isJson contentType'
        ∨ ∀ s f, p = .text s → Json.parse s.toList ≠ .error f := by
  by_cases htext : ∃ s, p = .text s
  · obtain ⟨s, rfl⟩ := htext
    have hfault : (∀ s' f, Payload.text s = .text s' → Json.parse s'.toList ≠ .error f)
        ↔ jsonBytes (.text s) = .ok (Utf8.encodeText s) := by
      rw [jsonBytes_text_iff]
      exact ⟨fun h f => h s f rfl, fun h s' f hs => Payload.text.inj hs ▸ h f⟩
    rw [hfault, convert_standard_text, convert_standard_text]
    cases MediaType.isJson contentType <;> cases MediaType.isJson contentType' <;>
      simp [eq_comm]
  · exact iff_of_true (convert_standard_of_ne_text fun s hs => htext ⟨s, hs⟩)
      (.inr fun s _ hs => absurd ⟨s, hs⟩ htext)

/-- When two declarations of the same media type make the same of a payload.

They do exactly if the suffix of JSON types is seen in both or in neither, or the payload is not a
text that is no JSON: so they do wherever the types agree in every letter. Where they do not, the
one in which the suffix is seen has the fault in the text found, and under the other the text is
sent unread. Parameters, and blanks around the types, never matter. -/
theorem convert_same_type (p : Payload) (h : MediaType.SameType a b) :
    (convert (some a) p standard = convert (some b) p standard
        ↔ MediaType.hasJsonSuffix (MediaType.essence a.toList)
            = MediaType.hasJsonSuffix (MediaType.essence b.toList)
          ∨ ∀ s f, p = .text s → Json.parse s.toList ≠ .error f)
      ∧ (MediaType.hasJsonSuffix (MediaType.essence a.toList) = true →
        MediaType.hasJsonSuffix (MediaType.essence b.toList) = false →
        ∀ s f, p = .text s → Json.parse s.toList = .error f →
          convert (some a) p standard = .error (.json f)
            ∧ convert (some b) p standard = .ok (Utf8.encodeText s))
      ∧ ∀ before type after rest : List Char, (∀ c ∈ before, Text.isBlank c = true) →
        (∀ c ∈ after, Text.isBlank c = true) → ';' ∉ type →
        (rest = [] ∨ ∃ parameters, rest = ';' :: parameters) →
        MediaType.essence (before ++ type ++ after ++ rest) = Text.trim type := by
  refine ⟨?_, ?_, ?_⟩
  · rw [convert_standard_eq_iff, MediaType.isJson_congr_iff h]
  · rintro ha hb s f rfl hf
    -- neither is the JSON type proper, for that does not have the suffix
    have hproper : MediaType.isJsonProper (MediaType.essence b.toList) = false := by
      rw [← MediaType.isJsonProper_congr h, Bool.eq_false_iff]
      intro hproper
      rw [MediaType.hasJsonSuffix_of_isJsonProper hproper] at ha
      cases ha
    have hja : MediaType.isJson (some a) = true := by simp [MediaType.isJson, ha]
    have hjb : MediaType.isJson (some b) = false := by simp [MediaType.isJson, hb, hproper]
    rw [convert_standard_text, convert_standard_text, if_pos hja, hjb]
    exact ⟨jsonBytes_eq_error_iff.mpr hf, rfl⟩
  · exact fun _ _ _ _ hbefore hafter htype hrest =>
      MediaType.essence_of_parts hbefore hafter htype hrest

/-- A text is read in every letter case of the JSON type proper, and for the suffix only in lower
case. -/
theorem convert_same_type_of_capitals :
    MediaType.SameType "\tApplication/JSON ; charset=UTF-8" "application/json"
      ∧ convert (some "\tApplication/JSON ; charset=UTF-8") (.text "\x7bnot json") standard
        = convert (some "application/json") (.text "\x7bnot json") standard
      ∧ MediaType.SameType "application/x+json" "application/x+JSON"
      ∧ convert (some "application/x+json") (.text "\x7bnot json") standard
        ≠ convert (some "application/x+JSON") (.text "\x7bnot json") standard
      ∧ MediaType.essence "\tApplication/JSON ; charset=UTF-8".toList
        = Text.trim "Application/JSON".toList := by
  have hproper : MediaType.SameType "\tApplication/JSON ; charset=UTF-8" "application/json" := by
    decide
  have hsuffix : MediaType.SameType "application/x+json" "application/x+JSON" := by decide
  have hjson : jsonBytes (.text "\x7bnot json") = .error (.json .malformed) := by decide +kernel
  obtain ⟨hsame, -, hparts⟩ := convert_same_type (.text "\x7bnot json") hproper
  obtain ⟨-, hread, -⟩ := convert_same_type (.text "\x7bnot json") hsuffix
  obtain ⟨hfault, hunread⟩ :=
    hread (by decide) (by decide) _ _ rfl (jsonBytes_eq_error_iff.mp hjson)
  refine ⟨hproper, hsame.mpr (.inl (by decide)), hsuffix, ?_, ?_⟩
  · rw [hfault, hunread]
    intro h
    cases h
  · exact hparts ['\t'] "Application/JSON".toList [' '] "; charset=UTF-8".toList
      (List.forall_mem_singleton.mpr rfl) (List.forall_mem_singleton.mpr rfl) (by decide)
      (.inr ⟨_, rfl⟩)

/-- A text that is declared under a JSON type with its suffix in capitals is sent unread, although
the fault in it is found under the same type in lower case. -/
theorem capital_suffix_unread :
    MediaType.SameType "application/x+JSON" "application/x+json"
      ∧ convert (some "application/x+JSON") (.text "\x7bnot json") standard
        = .ok (Utf8.encodeText "\x7bnot json")
      ∧ convert (some "application/x+json") (.text "\x7bnot json") standard
        = .error (.json .malformed) := by
  have hjson : jsonBytes (.text "\x7bnot json") = .error (.json .malformed) := by decide +kernel
  have hlower : MediaType.isJson (some "application/x+json") = true := by decide
  have hupper : MediaType.isJson (some "application/x+JSON") = false := by decide
  refine ⟨by decide, ?_, ?_⟩
  · rw [convert_standard_text, hupper]
    rfl
  · rw [convert_standard_text, if_pos hlower, hjson]

end Converter

end StompRelay
