import StompRelay.Text.Blank
/-!
# Media types

The declared type of a payload is a media type with optional parameters after a semicolon. What
matters here is whether it is a JSON type.

## Main definitions

* `MediaType.essence` — the type without parameters
* `MediaType.isJson` — `application/json`, or a type with the suffix `+json`
-/

namespace StompRelay.MediaType

/-- A declared type without its parameters and without blanks around it. -/
def essence (contentType : List Char) : List Char :=
  Text.trim (contentType.takeWhile (· != ';'))

/-- The JSON type proper, in any letter case. -/
def isJsonProper (cs : List Char) : Bool :=
  cs.map Char.toLower == "application/json".toList

/-- A type with the suffix of JSON types, in lower case. -/
def hasJsonSuffix (cs : List Char) : Bool := "+json".toList.isSuffixOf cs

/-- Whether a payload of this declared type is JSON; an undeclared one is not. -/
def isJson (contentType : Option String) : Bool :=
  contentType.any fun s =>
    isJsonProper (essence s.toList) || hasJsonSuffix (essence s.toList)

end StompRelay.MediaType
