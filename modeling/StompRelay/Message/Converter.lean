import StompRelay.Json.Printer
import StompRelay.Json.Reader
import StompRelay.Message.Error
import StompRelay.Message.MediaType
import StompRelay.Message.Payload
/-!
# Converters

A converter turns payloads of some kinds into bytes. Converters are combined into lists, in which
the first that accepts a payload converts it; such a list is a converter again.

## Main definitions

* `Converter` — the three kinds and lists of converters
* `Converter.accepts`, `Converter.convert` — whether a payload is accepted, and its bytes
* `Converter.standard` — the list used unless another is chosen

## Main results

* `Converter.convert_of_find?` — a list converts as the first of it that accepts
-/

namespace StompRelay

/-- Turns payloads of some kinds into bytes. -/
inductive Converter where
  /-- Bytes as they are, and nothing as no bytes. -/
  | bytes
  /-- Text as UTF-8, unless it is declared as JSON. -/
  | text
  /-- JSON values, and text that is declared as JSON. -/
  | json
  /-- Whatever the first that accepts it makes of it. -/
  | firstOf (converters : List Converter)

namespace Converter

mutual

/-- Whether a payload of the given declared type is converted. -/
def accepts (contentType : Option String) (p : Payload) : Converter → Bool
  | .bytes => p.raw?.isSome
  | .text =>
    match p with
    | .text _ => !MediaType.isJson contentType
    | _ => false
  | .json =>
    match p with
    | .json _ => true
    | .text _ => MediaType.isJson contentType
    | _ => false
  | .firstOf cs => anyAccepts contentType p cs

/-- Whether one of the converters accepts a payload. -/
def anyAccepts (contentType : Option String) (p : Payload) : List Converter → Bool
  | [] => false
  | c :: cs => accepts contentType p c || anyAccepts contentType p cs

end

/-- The bytes of a payload that is bytes. -/
def bytesOf (p : Payload) : Except Error Bytes :=
  match p.raw? with
  | some bs => .ok bs
  | none => .error (.conversion .notBytes)

/-- The bytes of a payload that is text. -/
def textBytes : Payload → Except Error Bytes
  | .text s => .ok (Utf8.encodeText s)
  | _ => .error (.conversion .notText)

/-- The bytes of a payload that is a JSON value or the text of one, which is kept as it is. -/
def jsonBytes : Payload → Except Error Bytes
  | .json v => .ok (Utf8.encode v.write)
  | .text s =>
    match Json.parse s.toList with
    | .ok _ => .ok (Utf8.encodeText s)
    | .error f => .error (.json f)
  | _ => .error (.conversion .notJson)

mutual

/-- The bytes of a payload of the given declared type. -/
def convert (contentType : Option String) (p : Payload) : Converter → Except Error Bytes
  | .bytes => bytesOf p
  | .text => textBytes p
  | .json => jsonBytes p
  | .firstOf cs => convertFirst contentType p cs

/-- The bytes that the first accepting converter makes of a payload. -/
def convertFirst (contentType : Option String) (p : Payload) :
    List Converter → Except Error Bytes
  | [] => .error (.conversion (.noConverter contentType))
  | c :: cs =>
    if accepts contentType p c then convert contentType p c else convertFirst contentType p cs

end

/-- Bytes first, then JSON, then text. -/
def standard : Converter := .firstOf [.bytes, .json, .text]

/-- A list as it is shown to a developer. -/
def summary (converters : List Converter) : String :=
  "CompositeConverter \x7b converters: " ++ toString converters.length ++ " \x7d"

theorem anyAccepts_eq_any (contentType : Option String) (p : Payload) (cs : List Converter) :
    anyAccepts contentType p cs = cs.any (accepts contentType p) := by
  induction cs with
  | nil => simp [anyAccepts]
  | cons c cs ih => simp [anyAccepts, ih]

/-- A list converts as the first of it that accepts. -/
theorem convert_of_find? {contentType : Option String} {p : Payload} {cs : List Converter}
    {c : Converter} (h : cs.find? (accepts contentType p) = some c) :
    convert contentType p (.firstOf cs) = convert contentType p c := by
  rw [convert]
  induction cs with
  | nil => simp at h
  | cons d cs ih =>
    rw [convertFirst]
    by_cases hd : accepts contentType p d = true
    · simp_all
    · simp only [Bool.not_eq_true] at hd
      rw [List.find?_cons, hd] at h
      simpa [hd] using ih h

end Converter

end StompRelay
