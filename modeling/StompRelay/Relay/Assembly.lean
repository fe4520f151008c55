import StompRelay.Frame.Basic
/-!
# Putting frames together

A reader gets the bytes of a stream one at a time. Bytes that end lines are passed over before a
frame has begun, a NUL ends the frame, and every other byte is kept while there is room.

## Main definitions

* `Assembly` — the frame that is being read
* `Assembly.feed` — the effect of a byte

## Main results

* `Assembly.size_of_feed` — a frame and the room left for it always add up to the limit
-/

namespace StompRelay

/-- A frame that is being read. -/
structure Assembly where
  /-- The bytes so far, latest first. -/
  taken : Bytes
  /-- How many more bytes it may have. -/
  room : Nat
  deriving DecidableEq, Repr

namespace Assembly

/-- A frame that has not begun, of at most `limit` bytes. -/
def empty (limit : Nat) : Assembly := ⟨[], limit⟩

/-- The effect of a byte. -/
inductive Fed where
  /-- The frame goes on. -/
  | more (a : Assembly)
  /-- The frame is complete. -/
  | complete (content : Bytes)
  /-- There is no room for the byte. -/
  | tooLarge
  deriving DecidableEq, Repr

/-- Feeds a byte to a frame. -/
def feed (a : Assembly) (b : UInt8) : Fed :=
  if b = Frame.nul then .complete a.taken.reverse
  else if a.taken.isEmpty && Frame.isEol b then .more a
  else
    match a.room with
    | 0 => .tooLarge
    | n + 1 => .more ⟨b :: a.taken, n⟩

/-- A frame and the room left for it always add up to the limit. -/
theorem size_of_feed {a a' : Assembly} {b : UInt8} (h : a.feed b = .more a') :
    a'.taken.length + a'.room = a.taken.length + a.room := by
  unfold feed at h
  split at h
  · cases h
  · split at h
    · cases h
      rfl
    · split at h
      · cases h
      · rename_i n hn
        cases h
        simp only [List.length_cons]
        omega

end Assembly

end StompRelay
