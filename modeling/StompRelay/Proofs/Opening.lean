import StompRelay.Proofs.Sound
/-!
# Opening and reading sessions

The call that opens a session hands it over to its reader, once; after that only the reader reads
from it. All other steps leave the incoming side of a session alone, except that the broker may
send more.

## Main definitions

* `Session.SameInput` — nothing was read from a session
* `Relay.InputStep` — what a step can do to the incoming side of a session
* `Relay.Opening` — every session that is being opened waits for its reader with one call

## Main results

* `Relay.MoveStep.inputStep` — every step does one of these
* `Relay.opening_of_run` — in every run sessions are opened like this
-/

namespace StompRelay

namespace Stage

/-- Whether a call is opening a session. -/
def opens (e : Place) : Stage → Bool
  | registering e' | starting e' => e' == e
  | _ => false

/-- A call goes on opening the session that it opens. -/
theorem Next.opens {codec : Codec} {p : Purpose} {e : Place} {old new : Stage}
    (hnext : Next codec p old new) (hold : old ≠ .dialing) (ho : new.opens e = true) :
    old.opens e = true := by
  have hnew : new.wrapsUp = false := by
    cases new with
    | registering | starting => rfl
    | _ => cases ho
  cases hnext.advance hnew with
  | dialed => exact absurd rfl hold
  | register => exact ho
  | _ => cases ho

end Stage

/-- Nothing was read from a session, though more may have been sent and it may have been closed or
broken off. -/
structure Session.SameInput (x y : Session) : Prop where
  id : y.id = x.id
  reader : y.reader = x.reader
  taken : y.toRelay.taken = x.toRelay.taken
  waiting : ∃ bs, y.toRelay.waiting = x.toRelay.waiting ++ bs ∧ (bs ≠ [] → x.inputEnded = false)
  closed : x.closed = true → y.closed = true
  ended : x.inputEnded = true → y.inputEnded = true

namespace Session.SameInput

variable {x y : Session}

/-- Whatever changes only in how the session is written to and held. -/
theorem of_eq (hi : y.id = x.id) (hr : y.reader = x.reader) (ht : y.toRelay = x.toRelay)
    (hc : x.closed = true → y.closed = true) (he : x.inputEnded = true → y.inputEnded = true) :
    x.SameInput y :=
  ⟨hi, hr, by rw [ht], ⟨[], by simp [ht], by simp⟩, hc, he⟩

theorem refl (x : Session) : x.SameInput x := of_eq rfl rfl rfl (fun h => h) fun h => h

theorem cancel (x : Session) : x.SameInput x.cancel := of_eq rfl rfl rfl (fun _ => rfl) fun h => h

theorem close (x : Session) : x.SameInput x.close := by
  unfold Session.close
  split
  · exact of_eq rfl rfl rfl (fun _ => rfl) fun h => h
  · exact cancel x

theorem leave (x : Session) (i : CallId) : x.SameInput (x.leave i) :=
  of_eq rfl rfl rfl (fun h => h) fun h => h

theorem push {rest rest' : Bytes} (h : x.push? rest = some (rest', y)) : x.SameInput y := by
  obtain ⟨bs, -, hy⟩ := eq_of_push? h
  rw [hy]
  exact of_eq rfl rfl rfl (fun h => h) fun h => h

/-- What was sent to a session stays sent. -/
theorem sent (h : x.SameInput y) :
    ∃ bs, y.toRelay.sent = x.toRelay.sent ++ bs ∧ (bs ≠ [] → x.inputEnded = false) := by
  obtain ⟨bs, hw, hb⟩ := h.waiting
  exact ⟨bs, by rw [Pipe.sent, Pipe.sent, h.taken, hw, List.append_assoc], hb⟩

end Session.SameInput

namespace Relay

variable {setup : Setup} {busCapacity : Nat} {s t : Relay} {h : History} {m : Move}
  {e e' : Place} {i j : CallId} {c d : Call} {x y : Session}

/-- What a move can do to the incoming side of session `e`, which is `x` before and `y` after it. -/
inductive InputStep (setup : Setup) (e : Place) (s t : Relay) (x y : Session) : Move → Prop where
  /-- Nothing is read from it. -/
  | rest {m : Move} : m ≠ .act (.reader e) → x.SameInput y → InputStep setup e s t x y m
  /-- Its reader moves. -/
  | own : ReaderStep setup s e x t → InputStep setup e s t x y (.act (.reader e))
  /-- The call that opens it drops it. -/
  | drop {i : CallId} {c : Call} : s.calls[i]? = some c → c.stage = .registering e →
    (∀ d, t.calls[i]? = some d → d.stage.opens e = false) →
    y = { x with reader := .finished } → InputStep setup e s t x y (.act (.call i))
  /-- The call that opens it hands it over. -/
  | start {i : CallId} {c : Call} {reader : Reader} {held : Bool} : s.calls[i]? = some c →
    c.stage = .starting e → (∀ d, t.calls[i]? = some d → d.stage.opens e = false) →
    (reader = .absent ∨ reader = .reading [] (.empty setup.maxFrameBytes)) →
    y = { x with reader := reader, held := held } → InputStep setup e s t x y (.act (.call i))

/-! ### Every step is one of these -/

/-- A change that reads from no session. -/
theorem inputStep_modifySession {f : Session → Session} (hm : m ≠ .act (.reader e))
    (hx : s.sessions[e]? = some x) (hf : ∀ x : Session, x.SameInput (f x)) :
    ∃ y, (s.modifySession e' f).sessions[e]? = some y
      ∧ InputStep setup e s (s.modifySession e' f) x y m := by
  by_cases he : e' = e
  · subst he
    exact ⟨f x, getElem?_modifySession_self hx, .rest hm (hf x)⟩
  · exact ⟨x, (getElem?_modifySession_of_ne he).trans hx, .rest hm (.refl x)⟩

/-- A step of a reader leaves all other sessions alone. -/
theorem ReaderStep.getElem?_of_ne {x' : Session} (step : ReaderStep setup s e' x' t)
    (he : e' ≠ e) : t.sessions[e]? = s.sessions[e]? := by
  cases step with
  | unregister => exact (getElem?_modifySession_of_ne he).trans (getElem?_modifySession_of_ne he)
  | _ => exact getElem?_modifySession_of_ne he

/-- A step of a call reads nothing, but it may hand the session over that it opens. -/
theorem CallStep.inputStep (hc : s.calls[i]? = some c) (hx : s.sessions[e]? = some x)
    (step : CallStep setup s i c t) :
    ∃ y, t.sessions[e]? = some y ∧ InputStep setup e s t x y (.act (.call i)) := by
  have rest {y : Session} (hy : x.SameInput y) : InputStep setup e s t x y (.act (.call i)) :=
    .rest (by simp) hy
  have modified {e' : Place} {f : Session → Session}
      (ht : t.sessions = (s.modifySession e' f).sessions)
      (hf : ∀ x : Session, s.sessions[e']? = some x → x.SameInput (f x)) :
      ∃ y, t.sessions[e]? = some y ∧ InputStep setup e s t x y (.act (.call i)) := by
    rw [ht]
    by_cases he : e' = e
    · subst he
      exact ⟨f x, getElem?_modifySession_self hx, rest (hf x hx)⟩
    · exact ⟨x, (getElem?_modifySession_of_ne he).trans hx, rest (.refl x)⟩
  have moved {new : Stage} {u : Relay} (hu : u.calls = s.calls) (hnew : new.opens e = false) :
      ∀ d, (u.setStage i new).calls[i]? = some d → d.stage.opens e = false := by
    intro d hd
    rw [getElem?_setStage, if_pos rfl, hu, hc, Option.map_some, Option.some.injEq] at hd
    exact hd ▸ hnew
  cases step with
  | @reject e' _ hst =>
    by_cases he : e' = e
    · subst he
      exact ⟨_, getElem?_modifySession_self hx, .drop hc hst (moved rfl rfl) rfl⟩
    · exact ⟨x, (getElem?_modifySession_of_ne he).trans hx, rest (.refl x)⟩
  | @attach e' id reads holds hst =>
    by_cases he : e' = e
    · subst he
      refine ⟨_, getElem?_modifySession_self hx, .start hc hst (moved rfl rfl) ?_ rfl⟩
      cases reads
      · exact .inl rfl
      · exact .inr rfl
    · exact ⟨x, (getElem?_modifySession_of_ne he).trans hx, rest (.refl x)⟩
  | @start e' hst =>
    by_cases he : e' = e
    · subst he
      exact ⟨_, getElem?_modifySession_self hx, .start hc hst (moved rfl rfl) (.inr rfl) rfl⟩
    · exact ⟨x, (getElem?_modifySession_of_ne he).trans hx, rest (.refl x)⟩
  | queue => exact modified rfl fun x _ => .of_eq rfl rfl rfl id id
  | bounce | cut | finish | snap => exact modified rfl fun x _ => .leave x i
  | accept => exact modified rfl fun x _ => .of_eq rfl rfl rfl id id
  | push _ hx' _ _ hpush =>
    apply modified rfl
    intro x hx
    obtain rfl := Option.some.inj (hx'.symm.trans hx)
    exact .push hpush
  | @complete e' x' y' _ _ hx' _ _ hpush =>
    -- the session is changed twice: bytes are put, and the call leaves the queue
    by_cases he : e' = e
    · subst he
      obtain rfl := Option.some.inj (hx'.symm.trans hx)
      obtain ⟨hi, hr, ht, hw, hc, hended⟩ := Session.SameInput.push hpush
      exact ⟨_, getElem?_modifySession_self (getElem?_modifySession_self hx),
        rest ⟨hi, hr, ht, hw, hc, hended⟩⟩
    · refine ⟨x, ?_, rest (.refl x)⟩
      exact (getElem?_modifySession_of_ne he).trans ((getElem?_modifySession_of_ne he).trans hx)
  | condemn | remove => exact modified rfl fun x _ => .cancel x
  | clear =>
    by_cases he : e ∈ s.registeredPlaces
    · exact ⟨x.cancel, getElem?_cancelAll_of_mem he hx, rest (.cancel x)⟩
    · exact ⟨x, (getElem?_cancelAll_of_notMem he).trans hx, rest (.refl x)⟩
  | close => exact modified rfl fun x _ => .close x
  | _ => exact ⟨x, hx, rest (.refl x)⟩

/-- Every move does one of these things to the incoming side of a session. -/
theorem MoveStep.inputStep (hx : s.sessions[e]? = some x) (step : MoveStep setup s m t) :
    ∃ y, t.sessions[e]? = some y ∧ InputStep setup e s t x y m := by
  cases step with
  | @reader e' x' _ hx' step =>
    by_cases he : e' = e
    · subst he
      obtain rfl := Option.some.inj (hx'.symm.trans hx)
      have hlt : e' < t.sessions.length := by
        rw [step.length_eq]
        exact (List.getElem?_eq_some_iff.mp hx).1
      exact ⟨_, List.getElem?_eq_getElem hlt, .own step⟩
    · exact ⟨x, (step.getElem?_of_ne he).trans hx, .rest (by simp [he]) (.refl x)⟩
  | call hc step => exact step.inputStep hc hx
  | attach | connected =>
    exact ⟨x, (List.getElem?_append_left (List.getElem?_eq_some_iff.mp hx).1).trans hx,
      .rest (by simp) (.refl x)⟩
  | @brokerPut e' x' bs hx' hopen =>
    by_cases he : e' = e
    · subst he
      obtain rfl := Option.some.inj (hx'.symm.trans hx)
      exact ⟨_, getElem?_modifySession_self hx,
        .rest (by simp) ⟨rfl, rfl, rfl, ⟨bs, rfl, fun _ => hopen⟩, id, id⟩⟩
    · exact ⟨x, (getElem?_modifySession_of_ne he).trans hx, .rest (by simp) (.refl x)⟩
  | brokerTake | letGo =>
    exact inputStep_modifySession (by simp) hx fun x => .of_eq rfl rfl rfl id id
  | brokerDrop =>
    exact inputStep_modifySession (by simp) hx fun x =>
      .of_eq rfl rfl rfl id fun _ => Bool.or_true _
  | breakInput =>
    exact inputStep_modifySession (by simp) hx fun x => .of_eq rfl rfl rfl id fun _ => rfl
  | _ => exact ⟨x, hx, .rest (by simp) (.refl x)⟩

/-! ### One call for each session that is opened -/

/-- A reader that moves has been started. -/
theorem ReaderStep.reader_ne_unstarted (step : ReaderStep setup s e x t) :
    x.reader ≠ .unstarted := by
  intro hr
  cases step <;> simp_all

/-- A call that waits for a connection does not move by itself. -/
theorem CallStep.stage_ne_dialing (step : CallStep setup s i c t) : c.stage ≠ .dialing := by
  intro hst
  cases step <;> simp_all

/-- The call to which a move gives a connection. -/
def Move.opener? (s : Relay) : Move → Option CallId
  | .attach _ _ _ _ => some s.calls.length
  | .dialed i (.ok _) => some i
  | _ => none

/-- A call that opens a session after a step has opened it before, or has just been given the
connection. -/
theorem MoveStep.opens_before (step : MoveStep setup s m t) (hd : t.calls[i]? = some d)
    (ho : d.stage.opens e = true) :
    (∃ c, s.calls[i]? = some c ∧ d.purpose = c.purpose ∧ c.stage.opens e = true)
      ∨ m.opener? s = some i ∧ e = s.sessions.length
        ∧ ∃ capacity, t.sessions = s.sessions ++ [.new d.purpose.id s.nextEpoch capacity] := by
  have unmoved (hd' : s.calls[i]? = some d) :
      ∃ c, s.calls[i]? = some c ∧ d.purpose = c.purpose ∧ c.stage.opens e = true :=
    ⟨d, hd', rfl, ho⟩
  cases step with
  | reader _ step => exact .inl (unmoved (step.calls_eq ▸ hd))
  | call hc step =>
    obtain ⟨new, heq, hnext⟩ := step.calls_eq
    rcases call_of_setStage heq hd with ⟨rfl, c', hc', rfl⟩ | ⟨-, hd'⟩
    · obtain rfl := Option.some.inj (hc.symm.trans hc')
      exact .inl ⟨_, hc, rfl, hnext.opens step.stage_ne_dialing ho⟩
    · exact .inl (unmoved hd')
  | @start p hp =>
    rcases call_of_append rfl hd with hd' | ⟨-, -, rfl⟩
    · exact .inl (unmoved hd')
    · -- only a call to which a connection is handed opens a session as it starts
      cases p with
      | attach => simp [mayStart] at hp
      | _ => cases ho
  | attach =>
    rcases call_of_append rfl hd with hd' | ⟨-, rfl, rfl⟩
    · exact .inl (unmoved hd')
    · refine .inr ⟨rfl, ?_, _, rfl⟩
      exact (by simpa [Purpose.start, Stage.opens] using ho : s.sessions.length = e).symm
  | refused hc =>
    rcases call_of_setStage rfl hd with ⟨-, c', -, rfl⟩ | ⟨-, hd'⟩
    · cases ho
    · exact .inl (unmoved hd')
  | @connected j p capacity hc =>
    have hsame : ((s.setStage j (.registering s.sessions.length)).openSession p.id capacity).calls
        = (s.setStage j (.registering s.sessions.length)).calls := rfl
    rcases call_of_setStage hsame hd with ⟨rfl, c', hc', rfl⟩ | ⟨-, hd'⟩
    · obtain rfl := Option.some.inj (hc.symm.trans hc')
      refine .inr ⟨rfl, ?_, _, rfl⟩
      exact (by simpa [Stage.opens] using ho : s.sessions.length = e).symm
    · exact .inl (unmoved hd')
  | _ => exact .inl (unmoved hd)

/-- Every session that is being opened waits for its reader, and with one call only. -/
structure Opening (s : Relay) : Prop where
  unstarted : ∀ (i : CallId) (c : Call) (e : Place), s.calls[i]? = some c →
    c.stage.opens e = true →
    ∃ x : Session, s.sessions[e]? = some x ∧ x.reader = .unstarted ∧ x.id = c.purpose.id
  unique : ∀ (i j : CallId) (c d : Call) (e : Place), s.calls[i]? = some c →
    s.calls[j]? = some d → c.stage.opens e = true → d.stage.opens e = true → i = j

/-- A call opens only sessions that are there. -/
theorem Sound.lt_of_opens (hs : s.Sound) (hc : s.calls[i]? = some c)
    (ho : c.stage.opens e = true) : e < s.sessions.length := by
  have hk : c.stage.keeps e = true := by
    cases hst : c.stage <;> simp_all [Stage.opens, Stage.keeps]
  exact hs.kept i c.stage e (stage?_eq_of_getElem? hc) hk

namespace Opening

/-- What the call that opens a session finds stays as it is until that call moves on. -/
theorem unstarted_step (ho : s.Opening) (step : MoveStep setup s m t) (hc : s.calls[i]? = some c)
    (hce : c.stage.opens e = true) (hd : t.calls[i]? = some d) (hde : d.stage.opens e = true) :
    ∃ y, t.sessions[e]? = some y ∧ y.reader = .unstarted ∧ y.id = c.purpose.id := by
  obtain ⟨x, hx, hr, hid⟩ := ho.unstarted i c e hc hce
  obtain ⟨y, hy, input⟩ := step.inputStep hx
  -- a step that starts the reader is a step of that call, which then opens the session no more
  have moved {j : CallId} {b : Call} (hb : s.calls[j]? = some b) (hbe : b.stage.opens e = true)
      (hnone : ∀ d, t.calls[j]? = some d → d.stage.opens e = false) : False := by
    obtain rfl := ho.unique i j c b e hc hb hce hbe
    exact Bool.false_ne_true ((hnone d hd).symm.trans hde)
  cases input with
  | rest _ same => exact ⟨y, hy, same.reader.trans hr, same.id.trans hid⟩
  | own own => exact absurd hr own.reader_ne_unstarted
  | drop hb hst hnone => exact (moved hb (by simp [hst, Stage.opens]) hnone).elim
  | start hb hst hnone => exact (moved hb (by simp [hst, Stage.opens]) hnone).elim

theorem step (ho : s.Opening) (hs : s.Sound) (step : MoveStep setup s m t) : t.Opening := by
  constructor
  case unstarted =>
    intro i d e hd hde
    rcases step.opens_before hd hde with ⟨c, hc, hpurpose, hce⟩ | ⟨-, rfl, capacity, heq⟩
    · rw [hpurpose]
      exact ho.unstarted_step step hc hce hd hde
    · exact ⟨.new d.purpose.id s.nextEpoch capacity, by simp [heq], rfl, rfl⟩
  case unique =>
    intro i j c d e hc hd hce hde
    -- a session that was there has been opened before by both, and a new one by neither
    rcases step.opens_before hc hce with ⟨c', hc', -, hce'⟩ | ⟨hi, hfresh, -⟩
    · rcases step.opens_before hd hde with ⟨d', hd', -, hde'⟩ | ⟨-, hfresh, -⟩
      · exact ho.unique i j c' d' e hc' hd' hce' hde'
      · exact absurd (hs.lt_of_opens hc' hce') (hfresh ▸ Nat.lt_irrefl _)
    · rcases step.opens_before hd hde with ⟨d', hd', -, hde'⟩ | ⟨hj, -, -⟩
      · exact absurd (hs.lt_of_opens hd' hde') (hfresh ▸ Nat.lt_irrefl _)
      · exact Option.some.inj (hi.symm.trans hj)

end Opening

/-- The call that opens a session finds its reader as new. -/
theorem Opening.eq_unstarted (ho : s.Opening) (hx : s.sessions[e]? = some x)
    (hc : s.calls[i]? = some c) (hce : c.stage.opens e = true) : x.reader = .unstarted := by
  obtain ⟨x', hx', hr, -⟩ := ho.unstarted i c e hc hce
  rw [hx, Option.some.injEq] at hx'
  exact hx' ▸ hr

/-- While a call registers a session, no call has registered it. -/
theorem Opening.stage?_ne_starting (ho : s.Opening) (hc : s.calls[i]? = some c)
    (hst : c.stage = .registering e) : s.stage? j ≠ some (.starting e) := by
  intro hj
  obtain ⟨d, hd, hstage⟩ := Option.map_eq_some_iff.mp hj
  -- both calls open the session, so they are one
  obtain rfl := ho.unique i j c d e hc hd (by simp [hst, Stage.opens])
    (by simp [hstage, Stage.opens])
  rw [hc, Option.some.injEq] at hd
  rw [← hd, hst] at hstage
  cases hstage

/-- In every run, every session that is being opened waits for its reader with one call. -/
theorem opening_of_run (run : Run setup busCapacity h s) : s.Opening := by
  induction run with
  | nil =>
    exact ⟨fun i c e hc => by simp [Relay.empty] at hc,
      fun i j c d e hc => by simp [Relay.empty] at hc⟩
  | snoc run hm ih => exact ih.step (sound_of_run run) (run.moveStep hm)

end Relay

end StompRelay
