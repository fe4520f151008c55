import Mathlib.Data.List.Basic
import StompRelay.Message.Codec
/-!
# What a set of converters makes of a payload

Every payload, with the type it is declared to be of, is accepted by exactly one kind of converter.
So it does not matter in which order converters are tried, how lists of them are nested, or how
often a kind occurs: a list converts as that one kind does if the kind is somewhere in it, and
otherwise not at all.

## Main definitions

* `Converter.Kind`, `Converter.kindFor` — the kinds of converters, and the one for a payload
* `Converter.Leaf` — a kind occurs somewhere in a converter

## Main results

* `Converter.accepts_iff_leaf` — a converter accepts what a kind in it accepts
* `Converter.convert_of_accepts` — and then converts as that kind
* `Converter.conversion_by_kind` — what any list of converters makes of any payload
-/

namespace StompRelay.Converter

/-- The kinds of converters that are not lists. -/
inductive Kind where
  | bytes
  | text
  | json
  deriving DecidableEq, Repr

/-- The converter of a kind. -/
def Kind.converter : Kind → Converter
  | bytes => .bytes
  | text => .text
  | json => .json

/-- The kind that accepts a payload of the given declared type. -/
def kindFor (contentType : Option String) : Payload → Kind
  | .empty | .bytes _ => .bytes
  | .json _ => .json
  | .text _ => if MediaType.isJson contentType then .json else .text

/-- A kind occurs somewhere in a converter. -/
inductive Leaf (k : Kind) : Converter → Prop where
  | self : Leaf k k.converter
  | member {c : Converter} {cs : List Converter} : c ∈ cs → Leaf k c → Leaf k (.firstOf cs)

/-- What holds of each kind, and of a list if it holds of all its members, holds of every
converter. -/
@[elab_as_elim]
theorem tree_induction {P : Converter → Prop} (kind : ∀ k : Kind, P k.converter)
    (firstOf : ∀ cs : List Converter, (∀ c ∈ cs, P c) → P (.firstOf cs)) (c : Converter) : P c :=
  Converter.rec (motive_1 := P) (motive_2 := fun cs => ∀ c ∈ cs, P c) (kind .bytes) (kind .text)
    (kind .json) (fun cs ih => firstOf cs ih) (fun _ h => nomatch h)
    (fun _ _ hc hcs => List.forall_mem_cons.mpr ⟨hc, hcs⟩) c

variable {contentType : Option String} {p : Payload} {k : Kind} {c : Converter}
  {cs cs' : List Converter} {e : Error}

/-! ### Which kind accepts a payload -/

/-- Exactly one kind accepts a payload. -/
theorem accepts_kind_iff :
    accepts contentType p k.converter = true ↔ k = kindFor contentType p := by
  cases hj : MediaType.isJson contentType <;> cases p <;> cases k <;>
    simp [Kind.converter, accepts, kindFor, Payload.raw?, hj]

theorem leaf_kind_iff {k' : Kind} : Leaf k k'.converter ↔ k = k' := by
  constructor
  · intro h
    cases k <;> cases k' <;> first | rfl | cases h
  · rintro rfl
    exact .self

theorem leaf_firstOf_iff : Leaf k (.firstOf cs) ↔ ∃ c ∈ cs, Leaf k c := by
  constructor
  · intro h
    cases k <;> cases h with
    | member hc hleaf => exact ⟨_, hc, hleaf⟩
  · rintro ⟨c, hc, hleaf⟩
    exact .member hc hleaf

/-- A converter accepts a payload exactly if the kind for it occurs somewhere in it. -/
theorem accepts_iff_leaf :
    accepts contentType p c = true ↔ Leaf (kindFor contentType p) c := by
  induction c using tree_induction with
  | kind k => rw [accepts_kind_iff, leaf_kind_iff, eq_comm]
  | firstOf cs ih =>
    rw [accepts, anyAccepts_eq_any, List.any_eq_true, leaf_firstOf_iff]
    exact exists_congr fun c => and_congr_right (ih c)

/-- A payload for a kind. -/
def Kind.sample : Kind → Payload
  | bytes => .empty
  | text => .text ""
  | json => .json .null

/-- Which kinds occur in a converter shows in what it accepts. -/
theorem leaf_iff_accepts_sample : Leaf k c ↔ accepts none k.sample c = true := by
  rw [accepts_iff_leaf]
  cases k <;> rfl

instance (k : Kind) : DecidablePred (Leaf k) := fun _ => decidable_of_iff' _ leaf_iff_accepts_sample

/-! ### What becomes of the payload -/

/-- A converter that accepts a payload converts it as the kind for it does. -/
theorem convert_of_accepts (h : accepts contentType p c = true) :
    convert contentType p c = convert contentType p (kindFor contentType p).converter := by
  induction c using tree_induction with
  | kind k => rw [accepts_kind_iff.mp h]
  | firstOf cs ih =>
    -- the first member that accepts it converts it, itself as the kind does
    rw [accepts, anyAccepts_eq_any, List.any_eq_true, ← List.find?_isSome] at h
    obtain ⟨c, hfind⟩ := Option.isSome_iff_exists.mp h
    rw [convert_of_find? hfind]
    exact ih c (List.mem_of_find?_eq_some hfind) (List.find?_some hfind)

/-- A list of which none accepts a payload has no converter for it. -/
theorem convert_of_not_accepts (h : accepts contentType p (.firstOf cs) ≠ true) :
    convert contentType p (.firstOf cs) = .error (.conversion (.noConverter contentType)) := by
  rw [convert]
  induction cs with
  | nil => rfl
  | cons c cs ih =>
    rw [accepts, anyAccepts, Ne, Bool.or_eq_true, not_or] at h
    rw [convertFirst, if_neg h.1]
    exact ih h.2

/-- What is at fault in a text that is not JSON. -/
theorem jsonBytes_eq_error_iff {s : String} {f : Json.Fault} :
    jsonBytes (.text s) = .error (.json f) ↔ Json.parse s.toList = .error f := by
  cases hparse : Json.parse s.toList <;> simp [jsonBytes, hparse]

/-- The kind for a payload fails only on a text that is declared as JSON and is not. -/
theorem convert_kindFor_eq_error_iff :
    convert contentType p (kindFor contentType p).converter = .error e
      ↔ ∃ s f, p = .text s ∧ MediaType.isJson contentType = true
        ∧ Json.parse s.toList = .error f ∧ e = .json f := by
  cases p with
  | empty | bytes | json =>
    simp [kindFor, Kind.converter, convert, bytesOf, jsonBytes, Payload.raw?]
  | text s =>
    cases hj : MediaType.isJson contentType with
    | false => simp [kindFor, Kind.converter, convert, textBytes, hj]
    | true =>
      cases hparse : Json.parse s.toList <;>
        simp [kindFor, Kind.converter, convert, jsonBytes, hj, hparse, eq_comm]

/-- Lists in which the same kinds occur convert everything alike. -/
theorem convert_congr (h : ∀ k, Leaf k (.firstOf cs) ↔ Leaf k (.firstOf cs')) :
    convert contentType p (.firstOf cs) = convert contentType p (.firstOf cs') := by
  have haccepts : accepts contentType p (.firstOf cs) = true
      ↔ accepts contentType p (.firstOf cs') = true := by
    rw [accepts_iff_leaf, accepts_iff_leaf]
    exact h _
  by_cases hcs : accepts contentType p (.firstOf cs) = true
  · rw [convert_of_accepts hcs, convert_of_accepts (haccepts.mp hcs)]
  · rw [convert_of_not_accepts hcs, convert_of_not_accepts (mt haccepts.mpr hcs)]

theorem leaf_standard (k : Kind) : Leaf k standard := by
  refine leaf_firstOf_iff.mpr ⟨k.converter, ?_, .self⟩
  cases k <;> simp [Kind.converter]

/-- The standard list fails only on a text that is declared as JSON and is not. -/
theorem convert_standard_eq_error_iff :
    convert contentType p standard = .error e
      ↔ ∃ s f, p = .text s ∧ MediaType.isJson contentType = true
        ∧ Json.parse s.toList = .error f ∧ e = .json f := by
  rw [convert_of_accepts (accepts_iff_leaf.mpr (leaf_standard _)), convert_kindFor_eq_error_iff]

/-- A message that has no frame holds a NUL, or its payload has no bytes. -/
theorem error_of_encodeWith {bytesOf : Option String → Payload → Except Error Bytes} {m : Message}
    {command : Command} (h : Codec.encodeWith bytesOf m command = .error e) :
    (∃ fault, e = .frame fault) ∨ bytesOf m.contentType? m.payload = .error e := by
  unfold Codec.encodeWith at h
  split at h
  · cases h
    exact .inl ⟨_, rfl⟩
  · split at h
    · rename_i hbytes
      cases h
      exact .inr hbytes
    · split at h
      · cases h
        exact .inl ⟨_, rfl⟩
      · cases h

/-! ### The whole -/

/-- What lists of converters, nested in any way, make of any payload of any declared type.

Exactly one kind accepts the payload. A list accepts it exactly if that kind occurs somewhere in the
list. Then its bytes, or the error, are those of the kind, and it never fails to find a converter;
otherwise it does. So lists in which the same kinds occur accept and convert everything alike. The
standard list fails only where a text is declared as JSON and is not, and then with the fault in the
text; so for another reason than a NUL only a message with such a payload has no frame. -/
theorem conversion_by_kind (contentType : Option String) (p : Payload) :
    (∃! k : Kind, accepts contentType p k.converter = true)
      ∧ (∀ (k : Kind) (cs : List Converter), accepts contentType p k.converter = true →
        (accepts contentType p (.firstOf cs) = true ↔ Leaf k (.firstOf cs))
          ∧ (Leaf k (.firstOf cs) →
            convert contentType p (.firstOf cs) = convert contentType p k.converter
              ∧ ∀ fault, convert contentType p (.firstOf cs) ≠ .error (.conversion fault))
          ∧ (¬Leaf k (.firstOf cs) →
            convert contentType p (.firstOf cs)
              = .error (.conversion (.noConverter contentType))))
      ∧ (∀ cs cs' : List Converter, (∀ k, Leaf k (.firstOf cs) ↔ Leaf k (.firstOf cs')) →
        accepts contentType p (.firstOf cs) = accepts contentType p (.firstOf cs')
          ∧ convert contentType p (.firstOf cs) = convert contentType p (.firstOf cs'))
      ∧ (∀ e, convert contentType p standard = .error e
        ↔ ∃ s f, p = .text s ∧ MediaType.isJson contentType = true
          ∧ Json.parse s.toList = .error f ∧ e = .json f)
      ∧ ∀ (m : Message) (command : Command) (e : Error), m.payload = p →
        m.contentType? = contentType → Codec.standard.encode m command = .error e →
        (∃ fault, e = .frame fault)
          ∨ ∃ s f, p = .text s ∧ MediaType.isJson contentType = true
            ∧ Json.parse s.toList = .error f ∧ e = .json f := by
  refine ⟨⟨kindFor contentType p, accepts_kind_iff.mpr rfl, fun k hk => accepts_kind_iff.mp hk⟩,
    ?_, ?_, fun e => convert_standard_eq_error_iff, ?_⟩
  · intro k cs hk
    obtain rfl := accepts_kind_iff.mp hk
    refine ⟨accepts_iff_leaf, fun hleaf => ?_, fun hleaf => ?_⟩
    · rw [convert_of_accepts (accepts_iff_leaf.mpr hleaf)]
      refine ⟨rfl, fun fault hfault => ?_⟩
      obtain ⟨s, f, -, -, -, heq⟩ := convert_kindFor_eq_error_iff.mp hfault
      cases heq
    · exact convert_of_not_accepts (mt accepts_iff_leaf.mp hleaf)
  · intro cs cs' hleaves
    refine ⟨Bool.eq_iff_iff.mpr ?_, convert_congr hleaves⟩
    rw [accepts_iff_leaf, accepts_iff_leaf]
    exact hleaves _
  · rintro m command e rfl rfl h
    exact (error_of_encodeWith h).imp_right convert_standard_eq_error_iff.mp

/-- A text that is declared as JSON, and is not. -/
def brokenJson : Message :=
  ⟨"a", none, [⟨"content-type", "application/json;charset=UTF-8"⟩], .text "\x7bnot json"⟩

/-- Lists with a converter for JSON find the fault in the text, however they are nested. A list
without one has no converter for it, although one for text is in the list. -/
theorem conversion_by_kind_of_broken_json :
    convert brokenJson.contentType? brokenJson.payload
          (.firstOf [.text, .firstOf [], .firstOf [.firstOf [.json], .json]])
        = .error (.json .malformed)
      ∧ convert brokenJson.contentType? brokenJson.payload
          (.firstOf [.firstOf [.json], .json, .text]) = .error (.json .malformed)
      ∧ convert brokenJson.contentType? brokenJson.payload (.firstOf [.text, .firstOf [.bytes]])
        = .error (.conversion (.noConverter brokenJson.contentType?))
      ∧ ∃ s f, brokenJson.payload = .text s ∧ Json.parse s.toList = .error f
        ∧ Codec.standard.encode brokenJson .send = .error (.json f) := by
  obtain ⟨-, hkind, hsame, -, hencode⟩ :=
    conversion_by_kind brokenJson.contentType? brokenJson.payload
  have hjson : accepts brokenJson.contentType? brokenJson.payload Kind.json.converter = true := rfl
  have hfault : jsonBytes brokenJson.payload = .error (.json .malformed) := by decide +kernel
  have hnested : convert brokenJson.contentType? brokenJson.payload
      (.firstOf [.text, .firstOf [], .firstOf [.firstOf [.json], .json]])
        = .error (.json .malformed) := by
    obtain ⟨-, hleaf, -⟩ :=
      hkind .json [.text, .firstOf [], .firstOf [.firstOf [.json], .json]] hjson
    rw [(hleaf (by decide)).1]
    exact hfault
  refine ⟨hnested, ?_, ?_, ?_⟩
  · rw [← hnested]
    refine (hsame _ _ ?_).2
    rintro (_ | _ | _) <;> decide
  · exact (hkind .json _ hjson).2.2 (by decide)
  · have hfails : Codec.standard.encode brokenJson .send = .error (.json .malformed) := by
      decide +kernel
    rcases hencode brokenJson .send _ rfl rfl hfails with ⟨fault, hfault⟩ | ⟨s, f, hs, -, hf, heq⟩
    · cases hfault
    · exact ⟨s, f, hs, hf, heq ▸ hfails⟩

end StompRelay.Converter
