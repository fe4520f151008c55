import StompRelay.Json.Reader
import StompRelay.Message.Basic
import StompRelay.Message.Error
/-!
# Lines from the local bus

Each line of the local bus is a JSON text that asks for something on behalf of one client: to send
a message, or to note that the client has gone. It is an object whose member `type` says which, or
an array that starts with the type and goes on with the fields in their order.

A line is read from left to right. The type is checked as soon as it is read, the other fields once
the object or array is complete, and last that nothing follows it.

## Main definitions

* `Event` — what a line asks for
* `Event.ofLine` — the event that a line writes

## Main results

* `Event.length_lt_of_readMember` — reading a member takes tokens off the list
-/

namespace StompRelay

/-- What the local bus asks for on behalf of a client. -/
inductive Event where
  /-- Send a message to the broker. -/
  | message (m : Message)
  /-- The client has gone. -/
  | closed (session : SessionId)

namespace Event

/-- The client that an event is about. -/
def session : Event → SessionId
  | .message m => m.session
  | .closed session => session

/-- The two types of lines. -/
inductive Kind where
  | message
  | closed
  deriving DecidableEq, Repr

/-- The type with the given name. -/
def Kind.ofName? (s : String) : Option Kind :=
  if s = "message" then some .message
  else if s = "closed" then some .closed
  else none

/-! ### Reading a line into its fields -/

/-- The fields of a line, by key in the order of reading, or by position. -/
inductive Fields where
  | named (members : List (String × Json))
  | listed (items : List Json)

/-- How many containers of a field may be inside each other. -/
def fieldDepth : Nat := Json.maxDepth - 1

/-- The type of a line at the start of a list of tokens. -/
def readKind : List Json.Token → Except Json.Fault (Kind × List Json.Token)
  | [] => .error .endOfInput
  | .text (.ok s) :: ts =>
    match Kind.ofName? s with
    | some k => .ok (k, ts)
    | none => .error .wrongShape
  | t :: _ => .error t.mismatch

/-- One member of a line. -/
inductive Member where
  | kind (k : Kind)
  | field (key : String) (value : Json)

/-- The value after the colon that follows a key. -/
def readValue (key : String) : List Json.Token → Except Json.Fault (Member × List Json.Token)
  | [] => .error .endOfInput
  | .colon :: ts =>
    if key = "type" then (readKind ts).map (Prod.map Member.kind id)
    else (Json.read (.keep fieldDepth) ts).map (Prod.map (Member.field key) id)
  | _ => .error .malformed

/-- The member at the start of a list of tokens; a second type is refused at its key. -/
def readMember (kindKnown : Bool) : List Json.Token → Except Json.Fault (Member × List Json.Token)
  | [] => .error .endOfInput
  | .text (.ok key) :: ts =>
    if key = "type" ∧ kindKnown then .error .wrongShape else readValue key ts
  | .text (.error f) :: _ => .error f
  | .brokenText f :: _ => .error f
  | _ => .error .malformed

theorem length_lt_of_readKind {ts rest : List Json.Token} {k : Kind}
    (h : readKind ts = .ok (k, rest)) : rest.length < ts.length := by
  unfold readKind at h
  split at h
  · cases h
  · split at h
    · cases h
      simp
    · cases h
  · cases h

theorem length_lt_of_readValue {key : String} {ts rest : List Json.Token} {m : Member}
    (h : readValue key ts = .ok (m, rest)) : rest.length < ts.length := by
  unfold readValue at h
  split at h
  · cases h
  · rename_i ts
    split at h
    · cases hk : readKind ts with
      | error f => rw [hk] at h; cases h
      | ok p =>
        obtain ⟨k, tail⟩ := p
        rw [hk] at h
        cases h
        exact Nat.lt_succ_of_lt (length_lt_of_readKind hk)
    · cases hv : Json.read (.keep fieldDepth) ts with
      | error f => rw [hv] at h; cases h
      | ok p =>
        obtain ⟨v, tail⟩ := p
        rw [hv] at h
        cases h
        exact Nat.lt_succ_of_lt (Json.length_lt_of_read hv)
  · cases h

theorem length_lt_of_readMember {known : Bool} {ts rest : List Json.Token} {m : Member}
    (h : readMember known ts = .ok (m, rest)) : rest.length < ts.length := by
  unfold readMember at h
  split at h
  · cases h
  · split at h
    · cases h
    · exact Nat.lt_succ_of_lt (length_lt_of_readValue h)
  all_goals cases h

/-- The members up to the end of an object, after the type and the members read before, latest
first. -/
def membersFrom (kind : Option Kind) (acc : List (String × Json)) (ts : List Json.Token) :
    Except Json.Fault ((Option Kind × List (String × Json)) × List Json.Token) :=
  match _h : readMember kind.isSome ts with
  | .error f => .error f
  | .ok (m, rest) =>
    let kind := match m with
      | .kind k => some k
      | .field _ _ => kind
    let acc := match m with
      | .kind _ => acc
      | .field key value => (key, value) :: acc
    match rest, _h with
    | [], _ => .error .endOfInput
    | .comma :: rest, _h => membersFrom kind acc rest
    | .closeObject :: rest, _ => .ok ((kind, acc.reverse), rest)
    | _ :: _, _ => .error .malformed
termination_by ts.length
decreasing_by exact Nat.lt_of_succ_lt (length_lt_of_readMember _h)

/-- The items up to the end of an array, after the items read before, latest first. -/
def itemsFrom (acc : List Json) : (ts : List Json.Token) →
    Except Json.Fault (List Json × List Json.Token)
  | [] => .error .endOfInput
  | .closeArray :: ts => .ok (acc.reverse, ts)
  | .comma :: ts =>
    match _h : Json.read (.keep fieldDepth) ts with
    | .error f => .error f
    | .ok (v, rest) => itemsFrom (v :: acc) rest
  | _ :: _ => .error .malformed
termination_by ts => ts.length
decreasing_by exact Nat.lt_succ_of_lt (Json.length_lt_of_read _h)

/-- The type and the fields at the start of a list of tokens. -/
def readFields : List Json.Token → Except Json.Fault ((Kind × Fields) × List Json.Token)
  | [] => .error .endOfInput
  -- without a type nothing else is looked at
  | .openObject :: .closeObject :: _ => .error .wrongShape
  | .openObject :: ts =>
    match membersFrom none [] ts with
    | .error f => .error f
    | .ok ((some kind, members), rest) => .ok ((kind, .named members), rest)
    | .ok ((none, _), _) => .error .wrongShape
  | .openArray :: .closeArray :: _ => .error .wrongShape
  | .openArray :: ts =>
    match readKind ts with
    | .error f => .error f
    | .ok (kind, rest) =>
      match itemsFrom [] rest with
      | .error f => .error f
      | .ok (items, rest) => .ok ((kind, .listed items), rest)
  | t :: _ => .error t.mismatch

/-! ### Checking the fields -/

/-- The value of a field that may be given once. -/
def field (members : List (String × Json)) (key : String) : Except Json.Fault (Option Json) :=
  match members.filter fun m => m.1 = key with
  | [] => .ok none
  | [(_, v)] => .ok (some v)
  | _ => .error .wrongShape

/-- A string that has to be given. -/
def requiredString : Option Json → Except Json.Fault String
  | some (.string s) => .ok s
  | _ => .error .wrongShape

/-- A string that may be left out or null. -/
def optionalString : Option Json → Except Json.Fault (Option String)
  | none | some .null => .ok none
  | some (.string s) => .ok (some s)
  | _ => .error .wrongShape

/-- The header written as a pair of strings. -/
def headerOf : Json → Except Json.Fault Header
  | .array [.string name, .string value] => .ok ⟨name, value⟩
  | _ => .error .wrongShape

/-- The headers written as an array of pairs; none where they are left out. -/
def headersOf : Option Json → Except Json.Fault Headers
  | none => .ok []
  | some (.array items) => items.mapM headerOf
  | _ => .error .wrongShape

/-- The payload that a value stands for. -/
def payloadOf : Option Json → Payload
  | none | some .null => .empty
  | some (.string s) => .text s
  | some v => .json v

/-- The fields of a line of type `message`, with the command still a word. -/
structure Draft where
  session : SessionId
  command : Option String
  headers : Headers
  payload : Payload

/-- A draft from the values of its fields. -/
def draftOf (session command headers payload : Option Json) : Except Json.Fault Draft := do
  let session ← requiredString session
  let command ← optionalString command
  let headers ← headersOf headers
  return ⟨session, command, headers, payloadOf payload⟩

/-- The fields of a line, checked: a draft, or the session of a client that has gone. -/
def check : Kind → Fields → Except Json.Fault (Draft ⊕ SessionId)
  | .message, .named members => do
    let session ← field members "session_id"
    let command ← field members "command"
    let headers ← field members "headers"
    let payload ← field members "payload"
    return .inl (← draftOf session command headers payload)
  | .message, .listed items =>
    if items.length ≤ 4 then
      (draftOf items[0]? items[1]? items[2]? items[3]?).map Sum.inl
    else .error .wrongShape
  | .closed, .named members => do
    return .inr (← requiredString (← field members "session_id"))
  | .closed, .listed [v] => (requiredString (some v)).map Sum.inr
  | .closed, .listed _ => .error .wrongShape

/-- The message of a draft, unless its command is unknown. -/
def Draft.toMessage (d : Draft) : Except Error Message :=
  match d.command with
  | none => .ok ⟨d.session, none, d.headers, d.payload⟩
  | some token =>
    match Command.ofToken? token with
    | some c => .ok ⟨d.session, some c, d.headers, d.payload⟩
    | none => .error (.frame (.unknownCommand token))

/-- The checked fields of a line. -/
def readLine (ts : List Json.Token) : Except Json.Fault (Draft ⊕ SessionId) := do
  -- a field of the wrong shape counts before anything that follows the line
  let ((kind, fields), rest) ← readFields ts
  let checked ← check kind fields
  Json.finish (checked, rest)

/-- The event that a line writes. -/
def ofLine (cs : List Char) : Except Error Event :=
  match readLine (Json.tokens cs) with
  | .error f => .error (.json f)
  | .ok (.inl draft) => draft.toMessage.map Event.message
  | .ok (.inr session) => .ok (.closed session)

end Event

end StompRelay
