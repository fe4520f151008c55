/-!
# Headers

An ordered list of names and values. A name may occur more than once; looking it up finds its first
value.

## Main definitions

* `Header`, `Headers` — one header and a list of them
* `Headers.append` — adds a header at the end
* `Headers.value?` — the first value of a name
* `Headers.contentType?` — the declared type of the body
-/

namespace StompRelay

/-- A name and a value. -/
structure Header where
  name : String
  value : String
  deriving DecidableEq, Repr

/-- Headers in order, repeated names included. -/
abbrev Headers := List Header

namespace Headers

/-- Adds a header at the end. -/
def append (hs : Headers) (name value : String) : Headers := hs ++ [⟨name, value⟩]

/-- The first value of a name. -/
def value? (hs : Headers) (name : String) : Option String :=
  (hs.find? fun h => h.name = name).map Header.value

/-- The declared type of the body. -/
def contentType? (hs : Headers) : Option String := hs.value? "content-type"

end Headers

end StompRelay
