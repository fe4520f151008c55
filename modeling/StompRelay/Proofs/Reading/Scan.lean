import Mathlib.Data.List.DropRight
import StompRelay.Relay.Step
/-!
# Streams byte by byte and as a whole

A reader takes a stream apart byte by byte. The same comes out when the whole stream is cut at
every NUL and the pieces are decoded one after the other, heart-beats included.

## Main definitions

* `Scan`, `Relay.scan` — how far a stream has been read, byte by byte
* `Relay.tooLong`, `Relay.readPieces`, `Relay.readStream` — the whole stream, read piece by piece

## Main results

* `Relay.scan_append` — a stream may be read in parts
* `Relay.readStream_eq_scan` — both ways of reading agree
-/

namespace StompRelay

/-- How far a stream has been read. -/
inductive Scan where
  /-- It is being read, with a frame under way. -/
  | going (frame : Assembly)
  /-- It is not read any more, for the reason in the text. -/
  | stopped (text : String)
  deriving DecidableEq, Repr

namespace Scan

/-- The frames of a stream that ends here are followed by this text. -/
def text : Scan → String
  | going _ => Relay.lostConnection
  | stopped text => text

/-- Whether a stream is not read any more. -/
def isStopped : Scan → Bool
  | going _ => false
  | stopped _ => true

end Scan

namespace Relay

section Reading

variable (limit : Nat) (id : SessionId)

/-- The messages in the bytes of a stream, read one by one with a frame under way, and how far the
stream has been read then. -/
def scan (frame : Assembly) : Bytes → List Message × Scan
  | [] => ([], .going frame)
  | b :: bs =>
    match frame.feed b with
    | .more frame => scan frame bs
    | .tooLarge => ([], .stopped (frameTooLarge limit))
    | .complete content =>
      match Codec.decode id content with
      | .error f => ([], .stopped (malformedFrame id f))
      | .ok none => scan (.empty limit) bs
      | .ok (some m) => (m :: (scan (.empty limit) bs).1, (scan (.empty limit) bs).2)

/-- Whether a piece of a stream has more bytes than a frame may have, heart-beats not counted. -/
def tooLong (piece : Bytes) : Bool := limit < (piece.dropWhile Frame.isEol).length

/-- The messages in the pieces of a stream, and the text that follows them. -/
def readPieces : List Bytes → List Message × String
  | [] => ([], "Lost connection")
  | piece :: pieces =>
    if tooLong limit piece then ([], "Frame too large (limit " ++ toString limit ++ " bytes)")
    -- the last piece is not a whole frame
    else if pieces.isEmpty then ([], "Lost connection")
    else
      match Codec.decode id piece with
      | .error f =>
        ([], "Malformed frame: Malformed frame on session " ++ id ++ ": Frame syntax error: "
          ++ f.message)
      | .ok none => readPieces pieces
      | .ok (some m) => (m :: (readPieces pieces).1, (readPieces pieces).2)

/-- The messages in a whole stream, and the text that follows them: the stream is cut at every
NUL. -/
def readStream (stream : Bytes) : List Message × String :=
  readPieces limit id (stream.splitOn Frame.nul)

end Reading

section Scanning

variable {limit : Nat} {id : SessionId} {frame : Assembly} {bs cs piece : Bytes}

/-! ### Reading in parts -/

/-- A stream may be read in parts. -/
theorem scan_append :
    scan limit id frame (bs ++ cs)
      = match (scan limit id frame bs).2 with
        | .going frame' =>
          ((scan limit id frame bs).1 ++ (scan limit id frame' cs).1, (scan limit id frame' cs).2)
        | .stopped text => ((scan limit id frame bs).1, .stopped text) := by
  induction bs generalizing frame with
  | nil => rfl
  | cons b bs ih =>
    simp only [List.cons_append, scan]
    split
    · exact ih
    · rfl
    · split
      · rfl
      · exact ih
      · rw [ih]
        split <;> rename_i heq <;> rw [heq]
        rfl

/-- What has been read of a stream that goes on is a part of all that is in it. -/
theorem scan_prefix_append {ms : List Message} {sc : Scan} (h : scan limit id frame bs = (ms, sc))
    (cs : Bytes) : ms <+: (scan limit id frame (bs ++ cs)).1 := by
  rw [scan_append, h]
  cases sc with
  | going => exact List.prefix_append _ _
  | stopped => exact List.prefix_rfl

/-- A stream that is not read any more may go on. -/
theorem scan_append_of_stopped {ms : List Message} {text : String}
    (h : scan limit id frame bs = (ms, .stopped text)) :
    scan limit id frame (bs ++ cs) = (ms, .stopped text) := by
  rw [scan_append, h]

/-- A stream that is being read goes on with the frame under way. -/
theorem scan_append_of_going {ms : List Message} {frame' : Assembly}
    (h : scan limit id frame bs = (ms, .going frame')) :
    scan limit id frame (bs ++ cs)
      = (ms ++ (scan limit id frame' cs).1, (scan limit id frame' cs).2) := by
  rw [scan_append, h]

section Byte

variable {ms : List Message} {frame' : Assembly} {b : UInt8} {content : Bytes}

/-- One more byte that does not end a frame. -/
theorem scan_more (h : scan limit id frame bs = (ms, .going frame'))
    {next : Assembly} (hfeed : frame'.feed b = .more next) :
    scan limit id frame (bs ++ [b]) = (ms, .going next) := by
  simp [scan_append_of_going h, scan, hfeed]

/-- One more byte, for which there is no room. -/
theorem scan_tooLarge (h : scan limit id frame bs = (ms, .going frame'))
    (hfeed : frame'.feed b = .tooLarge) :
    scan limit id frame (bs ++ [b]) = (ms, .stopped (frameTooLarge limit)) := by
  simp [scan_append_of_going h, scan, hfeed]

/-- One more byte, which ends what is no frame. -/
theorem scan_malformed (h : scan limit id frame bs = (ms, .going frame'))
    (hfeed : frame'.feed b = .complete content) {f : Frame.Fault}
    (hdecode : Codec.decode id content = .error f) :
    scan limit id frame (bs ++ [b]) = (ms, .stopped (malformedFrame id f)) := by
  simp [scan_append_of_going h, scan, hfeed, hdecode]

/-- One more byte, which ends heart-beats. -/
theorem scan_blank (h : scan limit id frame bs = (ms, .going frame'))
    (hfeed : frame'.feed b = .complete content) (hdecode : Codec.decode id content = .ok none) :
    scan limit id frame (bs ++ [b]) = (ms, .going (.empty limit)) := by
  simp [scan_append_of_going h, scan, hfeed, hdecode]

/-- One more byte, which ends a frame. -/
theorem scan_message (h : scan limit id frame bs = (ms, .going frame'))
    (hfeed : frame'.feed b = .complete content) {m : Message}
    (hdecode : Codec.decode id content = .ok (some m)) :
    scan limit id frame (bs ++ [b]) = (ms ++ [m], .going (.empty limit)) := by
  simp [scan_append_of_going h, scan, hfeed, hdecode]

end Byte

/-- A frame under way and the room left for it add up to the limit. -/
theorem size_of_scan {ms : List Message} {frame' : Assembly}
    (hsize : frame.taken.length + frame.room = limit)
    (h : scan limit id frame bs = (ms, .going frame')) :
    frame'.taken.length + frame'.room = limit := by
  induction bs generalizing frame ms with
  | nil =>
    cases h
    exact hsize
  | cons b bs ih =>
    simp only [scan] at h
    split at h
    · rename_i next hfeed
      exact ih ((Assembly.size_of_feed hfeed).trans hsize) h
    · cases h
    · split at h
      · cases h
      · exact ih (by simp [Assembly.empty]) h
      · have hrest : (scan limit id (.empty limit) bs).2 = .going frame' := congrArg Prod.snd h
        exact ih (by simp [Assembly.empty]) (Prod.ext rfl hrest)

/-! ### Pieces -/

/-- A frame that has begun takes all bytes but NUL, while there is room. -/
theorem scan_of_begun (hbegun : frame.taken ≠ []) (hnul : Frame.nul ∉ bs) :
    scan limit id frame bs
      = if bs.length ≤ frame.room then
          ([], .going ⟨bs.reverse ++ frame.taken, frame.room - bs.length⟩)
        else ([], .stopped (frameTooLarge limit)) := by
  -- every byte takes one place, so the frame outgrows its room at a point that depends on lengths
  -- only
  induction bs generalizing frame with
  | nil => simp [scan]
  | cons b bs ih =>
    have hb : b ≠ Frame.nul := fun h => hnul (h ▸ List.mem_cons_self)
    have hbs : Frame.nul ∉ bs := fun h => hnul (List.mem_cons_of_mem _ h)
    obtain ⟨taken, room⟩ := frame
    have hempty : taken.isEmpty = false := List.isEmpty_eq_false_iff.mpr hbegun
    cases room with
    | zero => simp [scan, Assembly.feed, hb, hempty]
    | succ room =>
      have hfeed : Assembly.feed ⟨taken, room + 1⟩ b = .more ⟨b :: taken, room⟩ := by
        simp [Assembly.feed, hb, hempty]
      simp only [scan, hfeed]
      rw [ih (List.cons_ne_nil _ _) hbs]
      simp

/-- A frame that has not begun passes over heart-beats, and then takes all bytes but NUL, while
there is room. -/
theorem scan_piece (hnul : Frame.nul ∉ piece) :
    scan limit id (.empty limit) piece
      = if tooLong limit piece then ([], .stopped (frameTooLarge limit))
        else ([], .going ⟨(piece.dropWhile Frame.isEol).reverse,
          limit - (piece.dropWhile Frame.isEol).length⟩) := by
  induction piece with
  | nil => simp [scan, tooLong, Assembly.empty]
  | cons b bs ih =>
    have hb : b ≠ Frame.nul := fun h => hnul (h ▸ List.mem_cons_self)
    have hbs : Frame.nul ∉ bs := fun h => hnul (List.mem_cons_of_mem _ h)
    -- a heart-beat leaves the frame as it was; any other byte begins it
    by_cases heol : Frame.isEol b = true
    · have hfeed : (Assembly.empty limit).feed b = .more (.empty limit) := by
        simp [Assembly.feed, Assembly.empty, hb, heol]
      simp only [scan, hfeed]
      rw [ih hbs, tooLong, tooLong, List.dropWhile_cons_of_pos heol]
    · rw [tooLong, List.dropWhile_cons_of_neg heol]
      -- with no room at all the first byte is too much already
      cases limit with
      | zero => simp [scan, Assembly.feed, Assembly.empty, hb, heol]
      | succ n =>
        have hfeed : (Assembly.empty (n + 1)).feed b = .more ⟨[b], n⟩ := by
          simp [Assembly.feed, Assembly.empty, hb, heol]
        simp only [scan, hfeed]
        rw [scan_of_begun (List.cons_ne_nil _ _) hbs]
        by_cases hlen : bs.length ≤ n
        · simp [hlen]
        · simp [hlen]

/-- Heart-beats before a frame make no difference to it. -/
theorem decode_dropWhile (piece : Bytes) :
    Codec.decode id (piece.dropWhile Frame.isEol) = Codec.decode id piece := by
  rw [Codec.decode, Codec.decode, Frame.decode, Frame.decode, List.dropWhile_idempotent]

/-- A piece that a NUL ends is decoded, unless it is too long. -/
theorem scan_piece_nul (hnul : Frame.nul ∉ piece) (bs : Bytes) :
    scan limit id (.empty limit) (piece ++ Frame.nul :: bs)
      = if tooLong limit piece then ([], .stopped (frameTooLarge limit))
        else
          match Codec.decode id piece with
          | .error f => ([], .stopped (malformedFrame id f))
          | .ok none => scan limit id (.empty limit) bs
          | .ok (some m) =>
            (m :: (scan limit id (.empty limit) bs).1, (scan limit id (.empty limit) bs).2) := by
  -- the frame holds the piece without the heart-beats before it, which decode to the same
  rw [scan_append, scan_piece hnul]
  by_cases hlong : tooLong limit piece = true
  · simp [hlong]
  · rw [if_neg hlong, if_neg hlong]
    simp only [scan, Assembly.feed, if_true, List.reverse_reverse, List.nil_append,
      decode_dropWhile]

/-! ### The whole stream -/

/-- The text with which a broker that sent no frame is reported. -/
theorem malformedFrame_eq (id : SessionId) (f : Frame.Fault) : malformedFrame id f
    = "Malformed frame: Malformed frame on session " ++ id ++ ": Frame syntax error: "
      ++ f.message := by
  have hlead : "Malformed frame: Malformed frame on session "
      = "Malformed frame: " ++ "Malformed frame on session " := by decide
  have hkind : ": Frame syntax error: " = ": " ++ "Frame syntax error: " := by decide
  calc malformedFrame id f
      = "Malformed frame: "
        ++ ("Malformed frame on session " ++ id ++ ": " ++ ("Frame syntax error: " ++ f.message)) :=
        rfl
    _ = _ := by simp only [hlead, hkind, String.append_assoc]

/-- A piece that others follow is a whole frame. -/
theorem readPieces_cons {pieces : List Bytes} (hne : pieces ≠ []) :
    readPieces limit id (piece :: pieces)
      = if tooLong limit piece then ([], frameTooLarge limit)
        else
          match Codec.decode id piece with
          | .error f => ([], malformedFrame id f)
          | .ok none => readPieces limit id pieces
          | .ok (some m) =>
            (m :: (readPieces limit id pieces).1, (readPieces limit id pieces).2) := by
  have hmore : pieces.isEmpty = false := List.isEmpty_eq_false_iff.mpr hne
  simp only [readPieces, hmore, malformedFrame_eq]
  rfl

/-- Reading a whole stream piece by piece is reading it byte by byte. -/
theorem readStream_eq_scan (stream : Bytes) :
    readStream limit id stream
      = ((scan limit id (.empty limit) stream).1,
        (scan limit id (.empty limit) stream).2.text) := by
  -- what is after the first NUL is shorter than the stream
  induction hn : stream.length using Nat.strong_induction_on generalizing stream with
  | _ n ih =>
    by_cases hnul : Frame.nul ∈ stream
    · -- the piece before the first NUL is read, and then what is after it
      obtain ⟨piece, rest, rfl, hpiece⟩ := List.eq_append_cons_of_mem hnul
      have hrest := ih rest.length (by simp [← hn]; omega) rest rfl
      rw [readStream] at hrest ⊢
      rw [List.splitOn_append_cons_self_of_not_mem hpiece, scan_piece_nul hpiece,
        readPieces_cons (List.splitOn_ne_nil _ _), hrest]
      split
      · rfl
      · split <;> rfl
    · -- a stream without NUL is one piece that is no frame
      rw [readStream, List.splitOn_eq_singleton hnul, scan_piece hnul]
      simp only [readPieces, List.isEmpty_nil, if_true]
      split <;> rfl

end Scanning

end Relay

end StompRelay
