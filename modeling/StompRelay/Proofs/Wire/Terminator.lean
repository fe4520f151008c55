import Mathlib.Data.List.Basic
import StompRelay.Message.Codec
import StompRelay.Proofs.Text.Utf8
/-!
# Frames end with their only NUL

No text holds a NUL byte but for its NUL characters, and a message with a NUL in it is not encoded.
So the broker finds the frames again by cutting what it gets at every NUL.

## Main results

* `Codec.encodeWith_eq_ok_iff` — which messages are encoded, and as which frames
* `Codec.exists_of_encodeWith` — the bytes of a message hold a NUL at their end, and nowhere else
* `Codec.splitOn_flatten` — frames put together come apart at their NULs
-/

namespace StompRelay

open StompRelay.Frame

/-! ### Frames -/

namespace Frame

/-- A text without a NUL character has no NUL byte. -/
theorem nul_notMem_encode {cs : List Char} (h : '\x00' ∉ cs) : nul ∉ Utf8.encode cs :=
  mt (Utf8.mem_encode_iff (by decide)).mp h

theorem nul_notMem_escape {cs : List Char} (h : '\x00' ∉ cs) : '\x00' ∉ escape cs := by
  intro hmem
  rcases mem_escape hmem with hspecial | ⟨hmem, -⟩
  · exact absurd hspecial (by decide)
  · exact h hmem

theorem nul_notMem_spell {c : Command} {s : String} (h : '\x00' ∉ s.toList) :
    '\x00' ∉ spell c s := by
  unfold spell
  split
  · exact nul_notMem_escape h
  · exact h

theorem nul_notMem_headerLine {c : Command} {h : Header} (hname : '\x00' ∉ h.name.toList)
    (hvalue : '\x00' ∉ h.value.toList) : nul ∉ headerLine c h := by
  rw [headerLine, List.mem_append, not_or]
  refine ⟨nul_notMem_encode ?_, by decide⟩
  rw [List.mem_append, List.mem_cons, not_or, not_or]
  exact ⟨nul_notMem_spell hname, by decide, nul_notMem_spell hvalue⟩

theorem nul_notMem_token (c : Command) : '\x00' ∉ c.token.toList := by
  cases c <;> decide

/-- A frame has a NUL before its end only if its headers or its body have one. -/
theorem nul_notMem_content {f : Frame}
    (hheaders : ∀ h ∈ f.headers, '\x00' ∉ h.name.toList ∧ '\x00' ∉ h.value.toList)
    (hbody : nul ∉ f.body) : nul ∉ f.content := by
  have hlines : nul ∉ f.headers.flatMap (headerLine f.command) := by
    intro hmem
    obtain ⟨h, hh, hb⟩ := List.mem_flatMap.mp hmem
    exact nul_notMem_headerLine (hheaders h hh).1 (hheaders h hh).2 hb
  simp only [content, head, List.mem_append, not_or]
  exact ⟨⟨⟨⟨nul_notMem_encode (nul_notMem_token _), by decide⟩, hlines⟩, by decide⟩, hbody⟩

end Frame

/-! ### Encoded messages -/

namespace Codec

variable {codec : Codec} {m : Message} {c : Command} {frame part : Bytes} {frames : List Bytes}
  {convert : Option String → Payload → Except Error Bytes}

/-- A message is encoded exactly if no part of it holds a NUL, and then as the frame with its
headers and the converted payload. -/
theorem encodeWith_eq_ok_iff : encodeWith convert m c = .ok frame ↔
    (∀ h ∈ m.headers, '\x00' ∉ h.name.toList ∧ '\x00' ∉ h.value.toList)
      ∧ ∃ body, convert m.contentType? m.payload = .ok body ∧ nul ∉ body
        ∧ frame = Frame.encode ⟨c, m.headers, body⟩ := by
  have hholds : (∀ h ∈ m.headers, '\x00' ∉ h.name.toList ∧ '\x00' ∉ h.value.toList)
      ↔ m.headers.find? holdsNul = none := by
    rw [List.find?_eq_none]
    simp [holdsNul]
  rw [hholds]
  unfold encodeWith
  constructor
  · intro h
    split at h
    · cases h
    · rename_i hheaders
      split at h
      · cases h
      · rename_i body hbody
        split at h
        · cases h
        · rename_i hnul
          cases h
          exact ⟨hheaders, body, hbody, by simpa using hnul, rfl⟩
  · rintro ⟨hheaders, body, hbody, hnul, rfl⟩
    rw [hheaders, hbody]
    exact if_neg (by simpa using hnul)

/-- The bytes of a message hold a NUL at their end, and nowhere else. -/
theorem exists_of_encodeWith (h : encodeWith convert m c = .ok frame) :
    ∃ content, frame = content ++ [nul] ∧ nul ∉ content := by
  obtain ⟨hheaders, body, -, hbody, rfl⟩ := encodeWith_eq_ok_iff.mp h
  exact ⟨_, rfl, nul_notMem_content hheaders hbody⟩

theorem exists_of_encode (h : codec.encode m c = .ok frame) :
    ∃ content, frame = content ++ [nul] ∧ nul ∉ content :=
  exists_of_encodeWith h

/-- Frames put together, and the start of one more, come apart at their NULs. -/
theorem splitOn_flatten
    (hframes : ∀ frame ∈ frames, ∃ content, frame = content ++ [nul] ∧ nul ∉ content)
    (hpart : nul ∉ part) :
    (frames.flatten ++ part).splitOn nul = frames.map List.dropLast ++ [part] := by
  induction frames with
  | nil => exact List.splitOn_eq_singleton hpart
  | cons frame frames ih =>
    obtain ⟨content, rfl, hcontent⟩ := hframes frame List.mem_cons_self
    have hrest := ih fun frame hmem => hframes frame (List.mem_cons_of_mem _ hmem)
    simp only [List.flatten_cons, List.append_assoc, List.map_cons, List.dropLast_concat,
      List.cons_append, List.nil_append]
    rw [List.splitOn_append_cons_self_of_not_mem hcontent, hrest]

/-- What is less than a frame holds no NUL. -/
theorem nul_notMem_of_prefix {content : Bytes} (hcontent : nul ∉ content)
    (hpre : part <+: content ++ [nul]) (hne : part ≠ content ++ [nul]) : nul ∉ part := by
  rcases List.prefix_concat_iff.mp hpre with heq | hpre
  · exact absurd heq hne
  · exact fun hmem => hcontent (hpre.subset hmem)

end Codec

end StompRelay
