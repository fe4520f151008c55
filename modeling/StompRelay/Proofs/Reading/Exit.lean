import StompRelay.Proofs.Opening
import StompRelay.Proofs.Reading.Scan
/-!
# How readers stop

A reader stops reading for one of a few reasons. Which one it was is read off a history, and so is
what the reader has put on the bus.

## Main definitions

* `Exit`, `Exit.text?` — why a reader stops, and the text of the notice that the client gets then
* `Relay.exits` — why the reader of a session stopped
* `Relay.Started`, `Relay.Uncut` — the reader of a session has been seen reading, and the session
  was not closed meanwhile

## Main results

* `Relay.postedBy_snoc_of_ne`, `Relay.exits_snoc_of_ne` — only the reader's own steps count
-/

namespace StompRelay

/-- Why a reader stops reading. -/
inductive Exit where
  /-- The close signal has fired. -/
  | closed
  /-- Nobody receives from the bus any more. -/
  | busClosed
  /-- The stream has ended. -/
  | peerClosed
  /-- Nothing more can be fetched from the connection. -/
  | failed
  | malformed (f : Frame.Fault)
  | tooLarge
  deriving DecidableEq, Repr

/-- The text of the notice that the client gets when a reader stops. -/
def Exit.text? (limit : Nat) (id : SessionId) : Exit → Option String
  | closed | busClosed => none
  | peerClosed | failed => some "Lost connection"
  | malformed f =>
    some ("Malformed frame: Malformed frame on session " ++ id ++ ": Frame syntax error: "
      ++ f.message)
  | tooLarge => some ("Frame too large (limit " ++ toString limit ++ " bytes)")

/-- Why the reader of a session stops with its next step, if it does. -/
def Session.exit? (b : Bus) (x : Session) : Option Exit :=
  match x.reader with
  | .reading chunk frame =>
    if x.closed then some .closed
    else
      match chunk with
      | [] =>
        if !x.toRelay.waiting.isEmpty then none
        else if x.inputFailed then some .failed
        else if x.brokerGone then some .peerClosed
        else none
      | b :: _ =>
        match frame.feed b with
        | .more _ => none
        | .tooLarge => some .tooLarge
        | .complete content =>
          match Codec.decode x.id content with
          | .error f => some (.malformed f)
          | .ok _ => none
  | .delivering _ _ =>
    if x.closed then some .closed else if b.closed then some .busClosed else none
  | _ => none

namespace Reader

/-- Whether a reader reads. -/
def reads : Reader → Bool
  | reading _ _ => true
  | _ => false

/-- Whether a reader goes on reading unless the close signal fires. -/
def listens : Reader → Bool
  | reading _ _ | delivering _ _ => true
  | _ => false

end Reader

namespace Session

variable {b : Bus} {x : Session}

/-- A reader stops for the close signal only if it has fired while the reader was reading. -/
theorem exit?_eq_closed (h : x.exit? b = some .closed) :
    x.closed = true ∧ x.reader.listens = true := by
  unfold exit? at h
  split at h
  · rename_i chunk frame hr
    refine ⟨?_, by rw [hr]; rfl⟩
    by_contra hc
    rw [if_neg hc] at h
    split at h
    · split_ifs at h <;> cases h
    · split at h
      · cases h
      · cases h
      · split at h <;> cases h
  · rename_i msg chunk hr
    refine ⟨?_, by rw [hr]; rfl⟩
    by_contra hc
    rw [if_neg hc] at h
    split at h <;> cases h
  · cases h

/-- A reader stops for the bus only if nobody receives any more. -/
theorem exit?_eq_busClosed (h : x.exit? b = some .busClosed) : b.closed = true := by
  unfold exit? at h
  split at h
  · split at h
    · cases h
    · split at h
      · split_ifs at h <;> cases h
      · split at h
        · cases h
        · cases h
        · split at h <;> cases h
  · split at h
    · cases h
    · by_contra hb
      rw [if_neg hb] at h
      cases h
  · cases h

end Session

namespace Relay

/-- Why the reader of a session stops in a step, if it does. -/
def Transition.exit? (e : Place) (τ : Transition) : Option Exit :=
  match τ.move with
  | .act (.reader e') =>
    if e' = e then τ.before.sessions[e]?.bind (Session.exit? τ.before.bus) else none
  | _ => none

/-- Why the reader of a session stopped. -/
def exits (e : Place) (h : History) : List Exit := h.filterMap (Transition.exit? e)

/-- The reader of a session has been seen reading. -/
def Started (e : Place) (h : History) : Prop :=
  h.any (fun τ => τ.after.sessions[e]?.any fun x => x.reader.reads) = true

/-- The session was not closed while its reader was reading. -/
def Uncut (e : Place) (h : History) : Prop :=
  h.all (fun τ => τ.before.sessions[e]?.all fun x => !x.closed || !x.reader.listens) = true

instance (e : Place) (h : History) : Decidable (Started e h) :=
  inferInstanceAs (Decidable (_ = true))

instance (e : Place) (h : History) : Decidable (Uncut e h) :=
  inferInstanceAs (Decidable (_ = true))

variable {s t : Relay} {h k : History} {m : Move} {e : Place} {a : Actor} {x : Session}
  {ms : List Message}

/-! ### What a step adds -/

theorem postedBy_append (h k : History) :
    postedBy a (h ++ k) = postedBy a h ++ postedBy a k := by
  rw [postedBy, posts, List.flatMap_append, List.filterMap_append]
  rfl

/-- What others do puts nothing on the bus for somebody. -/
theorem postedBy_snoc_of_ne (hm : m ≠ .act a) :
    postedBy a (h ++ [⟨s, m, t⟩]) = postedBy a h := by
  rw [postedBy_append, List.append_right_eq_self]
  simp only [postedBy, posts, List.flatMap_singleton]
  apply List.filterMap_eq_nil_iff.mpr
  intro p hp
  unfold Transition.posts at hp
  split at hp
  · rename_i b hb
    obtain ⟨msg, -, rfl⟩ := List.mem_map.mp hp
    have hne : b ≠ a := fun heq => hm (hb.trans (congrArg Move.act heq))
    simp [hne]
  · cases hp

/-- What somebody's own step puts on the bus. -/
theorem postedBy_snoc (hbus : t.bus.posted = s.bus.posted ++ ms) :
    postedBy a (h ++ [⟨s, .act a, t⟩]) = postedBy a h ++ ms := by
  rw [postedBy_append, List.append_cancel_left_eq]
  simp [postedBy, posts, Transition.posts, hbus, List.filterMap_map]

theorem exits_snoc (h : History) (τ : Transition) :
    exits e (h ++ [τ]) = exits e h ++ (τ.exit? e).toList := by
  cases hw : τ.exit? e <;> simp [exits, hw]

/-- What others do stops no reader. -/
theorem exits_snoc_of_ne (hm : m ≠ .act (.reader e)) :
    exits e (h ++ [⟨s, m, t⟩]) = exits e h := by
  rw [exits_snoc, List.append_right_eq_self, Option.toList_eq_nil_iff]
  unfold Transition.exit?
  split
  · rename_i e' heq
    refine if_neg fun he => hm ?_
    rw [← he]
    exact heq
  · rfl

theorem exits_snoc_own (hx : s.sessions[e]? = some x) :
    exits e (h ++ [⟨s, .act (.reader e), t⟩]) = exits e h ++ (x.exit? s.bus).toList := by
  rw [exits_snoc]
  simp [Transition.exit?, hx]

theorem started_snoc :
    Started e (h ++ [⟨s, m, t⟩]) ↔ Started e h
      ∨ ∃ y, t.sessions[e]? = some y ∧ y.reader.reads = true := by
  simp [Started, Option.any_eq_true]

/-! ### Why readers stop -/

/-- A reader that stops for the close signal was reading then. -/
theorem not_mem_exits_of_uncut (hu : Uncut e h) : Exit.closed ∉ exits e h := by
  intro hmem
  obtain ⟨τ, hτ, hexit⟩ := List.mem_filterMap.mp hmem
  unfold Transition.exit? at hexit
  split at hexit
  · obtain ⟨-, hexit⟩ := Option.ite_none_right_eq_some.mp hexit
    obtain ⟨x, hx, hexit⟩ := Option.bind_eq_some_iff.mp hexit
    have hx' := List.all_eq_true.mp hu τ hτ
    obtain ⟨hclosed, hlistens⟩ := (Session.exit?_eq_closed hexit)
    simp [hx, hclosed, hlistens] at hx'
  · cases hexit

end Relay

end StompRelay
