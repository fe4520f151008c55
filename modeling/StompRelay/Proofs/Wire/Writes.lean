import StompRelay.Proofs.Sound
import StompRelay.Proofs.Wire.Log
/-!
# The writes to a session

What becomes of the writes to one session is read off a history: in what order they queued for
their turn, and how each of them returned. Every step does one of six things to the outgoing side
of a session.

## Main definitions

* `Relay.writes` — what happened to the writes to a session, in order
* `Relay.WireStep` — the six things that a step can do to the outgoing side of a session

## Main results

* `Relay.MoveStep.wireStep` — every step does one of them
-/

namespace StompRelay

namespace Stage

/-- Whether a call waits for its turn to write to a session, or has it. -/
def writesTo (e : Place) : Stage → Bool
  | waiting e' _ | writing e' _ => e' == e
  | _ => false

/-- The fault with which the write before this stage returned. -/
def fault? : Stage → Option WriteFault
  | failing _ f => some f
  | done (.broken f) => some f
  | _ => none

/-- Whether a call writes to a session or is about to ask for its turn. -/
def heads (e : Place) : Stage → Bool
  | asking e' _ | waiting e' _ | writing e' _ => e' == e
  | _ => false

/-- What a call that goes from one stage to another does with its write to a session. -/
def write? (e : Place) (i : CallId) : Stage → Stage → Option WriteEvent
  | asking e' frame, _ => if e' = e then some (.queued i frame) else none
  | waiting e' _, new | writing e' _, new =>
    if e' = e ∧ new.writesTo e = false then some (.returned i new.fault?) else none
  | _, _ => none

section Moving

variable {codec : Codec} {p : Purpose} {e : Place} {i : CallId} {old new : Stage}

theorem heads_of_writesTo (h : old.writesTo e = true) : old.heads e = true := by
  cases old <;> first | exact h | cases h

theorem write?_eq_none (h : old.heads e = false) : old.write? e i new = none := by
  cases old <;> simp_all [heads, write?]

/-- A write that goes on is not over. -/
theorem write?_of_stay (hold : old.writesTo e = true) (hnew : new.writesTo e = true) :
    old.write? e i new = none := by
  cases old with
  | waiting | writing => simp [write?, hnew]
  | _ => cases hold

/-- A write is over when its call goes on to something else. -/
theorem write?_of_leave (hold : old.writesTo e = true) (hnew : new.writesTo e = false) :
    old.write? e i new = some (.returned i new.fault?) := by
  cases old with
  | waiting e' | writing e' =>
    have he : e' = e := by simpa [Stage.writesTo] using hold
    simp [write?, hnew, he]
  | _ => cases hold

theorem writesTo_conclude (o : Outcome) : (p.conclude o).writesTo e = false := by
  cases p <;> rfl

theorem writesTo_afterBreak {e' : Place} {f : WriteFault} :
    (p.afterBreak e' f).writesTo e = false := by
  cases p <;> rfl

theorem fault?_conclude_ok : (p.conclude .ok).fault? = none := by
  cases p <;> rfl

theorem fault?_afterBreak {e' : Place} {f : WriteFault} :
    (p.afterBreak e' f).fault? = some f := by
  cases p <;> rfl

/-- Only a call that heads for a session comes to write to it. -/
theorem Next.writesTo (hnext : Stage.Next codec p old new) (h : old.heads e = false) :
    new.writesTo e = false := by
  cases hnew : new.wrapsUp with
  | true => cases new <;> first | rfl | cases hnew
  | false =>
    cases hnext.advance hnew with
    | queue | turn | write => exact h
    | _ => rfl

end Moving

end Stage

namespace Relay

/-- What a step does with a write to a session. -/
def Transition.write? (e : Place) (τ : Transition) : Option WriteEvent :=
  match τ.move with
  | .act (.call i) =>
    match τ.before.stage? i, τ.after.stage? i with
    | some old, some new => old.write? e i new
    | _, _ => none
  | _ => none

/-- What happened to the writes to a session, in order. -/
def writes (e : Place) (h : History) : List WriteEvent := h.filterMap (Transition.write? e)

end Relay

/-! ### The outgoing side of a session -/

/-- Nothing was written to a session, though it may have been closed or lost. -/
structure Session.SameWire (x y : Session) : Prop where
  writers : y.writers = x.writers
  unsent : y.unsent = x.unsent
  sent : y.toBroker.sent = x.toBroker.sent
  closed : x.closed = true → y.closed = true
  gone : x.brokerGone = true → y.brokerGone = true
  shut : y.shut = true → x.shut = true ∨ y.closed = true

namespace Session.SameWire

variable {x y : Session}

theorem refl (x : Session) : x.SameWire x :=
  ⟨rfl, rfl, rfl, fun h => h, fun h => h, .inl⟩

theorem cancel (x : Session) : x.SameWire x.cancel :=
  ⟨rfl, rfl, rfl, fun _ => rfl, fun h => h, .inl⟩

theorem close (x : Session) : x.SameWire x.close := by
  unfold Session.close
  split
  · exact ⟨rfl, rfl, rfl, fun _ => rfl, fun h => h, fun _ => .inr rfl⟩
  · exact cancel x

theorem trans {z : Session} (h : x.SameWire y) (h' : y.SameWire z) : x.SameWire z where
  writers := h'.writers.trans h.writers
  unsent := h'.unsent.trans h.unsent
  sent := h'.sent.trans h.sent
  closed hx := h'.closed (h.closed hx)
  gone hx := h'.gone (h.gone hx)
  shut hz := by
    rcases h'.shut hz with hy | hz
    · exact (h.shut hy).imp_right h'.closed
    · exact .inr hz

/-- Whatever changes only in how the session is read and held. -/
theorem of_eq (hw : y.writers = x.writers) (hu : y.unsent = x.unsent)
    (hb : y.toBroker = x.toBroker) (hc : y.closed = x.closed) (hg : y.brokerGone = x.brokerGone)
    (hs : y.shut = x.shut) : x.SameWire y :=
  ⟨hw, hu, by rw [hb], fun h => hc.trans h, fun h => hg.trans h, fun h => .inl (hs.symm.trans h)⟩

end Session.SameWire

namespace Relay

variable {setup : Setup} {s t : Relay} {m : Move} {e e' : Place} {i j : CallId} {c : Call}
  {x y : Session} {old new : Stage}

/-- What a step does to the outgoing side of session `e`, which is `x` before and `y` after it. -/
inductive WireStep (e : Place) (s t : Relay) (x y : Session) : Option WriteEvent → Prop where
  /-- It writes nothing. -/
  | rest : x.SameWire y →
    (∀ i stage, stage.writesTo e = true → (t.stage? i = some stage ↔ s.stage? i = some stage)) →
    WireStep e s t x y none
  /-- A write queues. -/
  | queue {i : CallId} {frame : Bytes} : s.stage? i = some (.asking e frame) →
    t.stage? i = some (.waiting e frame) → (∀ j, i ≠ j → t.stage? j = s.stage? j) →
    y = { x with writers := x.writers ++ [i] } → WireStep e s t x y (some (.queued i frame))
  /-- A write gets its turn. -/
  | turn {i : CallId} {frame : Bytes} : s.stage? i = some (.waiting e frame) →
    t.stage? i = some (.writing e frame) → (∀ j, i ≠ j → t.stage? j = s.stage? j) →
    x.writers.head? = some i → y = x → WireStep e s t x y none
  /-- A write goes on, and some of it is left. -/
  | advance {i : CallId} {rest rest' bs : Bytes} : s.stage? i = some (.writing e rest) →
    t.stage? i = some (.writing e rest') → (∀ j, i ≠ j → t.stage? j = s.stage? j) →
    x.closed = false → (bs ≠ [] → x.broken = false) →
    x.unsent ++ rest = bs ++ (y.unsent ++ rest') → y.unsent ++ rest' ≠ [] →
    y.toBroker.sent = x.toBroker.sent ++ bs → y.writers = x.writers → y.closed = x.closed →
    y.shut = x.shut → y.brokerGone = x.brokerGone → WireStep e s t x y none
  /-- A write puts what is left of it, if anything, and returns. -/
  | finish {i : CallId} {rest : Bytes} {p : Purpose} : s.stage? i = some (.writing e rest) →
    t.stage? i = some (p.conclude .ok) → (∀ j, i ≠ j → t.stage? j = s.stage? j) →
    x.closed = false → (x.unsent ++ rest ≠ [] → x.broken = false) → y.unsent = [] →
    y.toBroker.sent = x.toBroker.sent ++ (x.unsent ++ rest) →
    y.writers = x.writers.filter (· ≠ i) → y.closed = x.closed →
    y.shut = x.shut → y.brokerGone = x.brokerGone →
    WireStep e s t x y (some (.returned i none))
  /-- A write returns with a fault. -/
  | fail {i : CallId} {old : Stage} {p : Purpose} {f : WriteFault} : s.stage? i = some old →
    old.writesTo e = true → t.stage? i = some (p.afterBreak e f) →
    (∀ j, i ≠ j → t.stage? j = s.stage? j) → (x.closed = true ∨ x.broken = true) →
    (∀ frame, old = .waiting e frame → x.writers.head? = some i) → y = x.leave i →
    WireStep e s t x y (some (.returned i (some f)))

/-! ### Every step is one of these -/

/-- A change that writes nothing to any session. -/
theorem sameWire_modifySession (e' : Place) {f : Session → Session} (hx : s.sessions[e]? = some x)
    (hf : ∀ x : Session, x.SameWire (f x)) :
    ∃ y, (s.modifySession e' f).sessions[e]? = some y ∧ x.SameWire y := by
  by_cases he : e' = e
  · subst he
    exact ⟨f x, getElem?_modifySession_self hx, hf x⟩
  · exact ⟨x, (getElem?_modifySession_of_ne he).trans hx, .refl x⟩

/-- A step of a reader writes nothing. -/
theorem ReaderStep.sameWire {x' : Session} (step : ReaderStep setup s e' x' t)
    (hx' : s.sessions[e']? = some x') (hx : s.sessions[e]? = some x) :
    ∃ y, t.sessions[e]? = some y ∧ x.SameWire y := by
  have other (f : Session → Session) (he : e' ≠ e) :
      (s.modifySession e' f).sessions[e]? = some x :=
    (getElem?_modifySession_of_ne he).trans hx
  cases step with
  | fetch =>
    by_cases he : e' = e
    · subst he
      rw [hx'] at hx
      cases hx
      exact ⟨_, getElem?_modifySession_self hx', .of_eq rfl rfl rfl rfl rfl rfl⟩
    · exact ⟨x, other _ he, .refl x⟩
  | unregister =>
    obtain ⟨y, hy, hxy⟩ := sameWire_modifySession e' hx Session.SameWire.cancel
    obtain ⟨z, hz, hyz⟩ := sameWire_modifySession e' hy fun x =>
      Session.SameWire.of_eq (y := { x with reader := .shutting }) rfl rfl rfl rfl rfl rfl
    exact ⟨z, hz, hxy.trans hyz⟩
  | shut =>
    exact sameWire_modifySession _ hx fun x =>
      (Session.SameWire.close x).trans (.of_eq rfl rfl rfl rfl rfl rfl)
  | _ => exact sameWire_modifySession _ hx fun x => .of_eq rfl rfl rfl rfl rfl rfl

/-- A step of a call that does not head for a session writes nothing to it. -/
theorem CallStep.sameWire (step : CallStep setup s i c t) (hh : c.stage.heads e = false)
    (hx : s.sessions[e]? = some x) : ∃ y, t.sessions[e]? = some y ∧ x.SameWire y := by
  have ne {e' : Place} (hst : c.stage.heads e = (e' == e)) : e' ≠ e := by
    simpa [hst] using hh
  cases step with
  | reject | attach | start =>
    exact sameWire_modifySession _ hx fun x => .of_eq rfl rfl rfl rfl rfl rfl
  | queue hst | bounce hst | cut hst | accept hst | finish hst | snap hst | push hst =>
    exact ⟨x, (getElem?_modifySession_of_ne (ne (by rw [hst]; rfl))).trans hx, .refl x⟩
  | @complete e' _ _ _ hst =>
    have he : e' ≠ e := ne (by rw [hst]; rfl)
    exact ⟨x, ((getElem?_modifySession_of_ne he).trans (getElem?_modifySession_of_ne he)).trans hx,
      .refl x⟩
  | condemn | remove => exact sameWire_modifySession _ hx .cancel
  | clear =>
    by_cases he : e ∈ s.registeredPlaces
    · exact ⟨x.cancel, getElem?_cancelAll_of_mem he hx, .cancel x⟩
    · exact ⟨x, (getElem?_cancelAll_of_notMem he).trans hx, .refl x⟩
  | close => exact sameWire_modifySession _ hx .close
  | _ => exact ⟨x, hx, .refl x⟩

theorem Transition.write?_call (hold : s.stage? i = some old) (hnew : t.stage? i = some new) :
    Transition.write? e ⟨s, .act (.call i), t⟩ = old.write? e i new := by
  simp [Transition.write?, hold, hnew]

section Heading

variable (hx : s.sessions[e]? = some x)
include hx

/-- The write of a call returns with a fault. -/
theorem wireStep_fail {f : WriteFault} (hold : s.stage? i = some old)
    (hw : old.writesTo e = true) (hdead : x.closed = true ∨ x.broken = true)
    (hhead : ∀ frame, old = .waiting e frame → x.writers.head? = some i) (p : Purpose) :
    ∃ y, (s.endWrite i e (p.afterBreak e f)).sessions[e]? = some y
      ∧ WireStep e s (s.endWrite i e (p.afterBreak e f)) x y
        (Transition.write? e ⟨s, .act (.call i), s.endWrite i e (p.afterBreak e f)⟩) := by
  have hnew : (s.endWrite i e (p.afterBreak e f)).stage? i = some (p.afterBreak e f) :=
    stage?_setStage_self (s := s.modifySession e _) hold
  rw [Transition.write?_call hold hnew, Stage.write?_of_leave hw Stage.writesTo_afterBreak,
    Stage.fault?_afterBreak]
  exact ⟨_, getElem?_modifySession_self hx,
    .fail hold hw hnew (fun j hj => stage?_setStage_of_ne hj) hdead hhead rfl⟩

/-- A write goes on, and some of it is left. -/
theorem wireStep_advance {rest rest' bs : Bytes} (hold : s.stage? i = some (.writing e rest))
    (hopen : x.closed = false) (hput : bs ≠ [] → x.broken = false)
    (heq : x.unsent ++ rest = bs ++ (y.unsent ++ rest')) (hleft : y.unsent ++ rest' ≠ [])
    (hy : y = { x with unsent := y.unsent, toBroker := x.toBroker.put bs })
    (f : Session → Session) (hf : f x = y) :
    ∃ y, ((s.modifySession e f).setStage i (.writing e rest')).sessions[e]? = some y
      ∧ WireStep e s ((s.modifySession e f).setStage i (.writing e rest')) x y
        (Transition.write? e
          ⟨s, .act (.call i), (s.modifySession e f).setStage i (.writing e rest')⟩) := by
  have hnew : ((s.modifySession e f).setStage i (.writing e rest')).stage? i
      = some (.writing e rest') :=
    stage?_setStage_self (s := s.modifySession e f) hold
  have hw {bs : Bytes} : (Stage.writing e bs).writesTo e = true := by simp [Stage.writesTo]
  rw [Transition.write?_call hold hnew, Stage.write?_of_stay hw hw]
  refine ⟨y, hf ▸ getElem?_modifySession_self hx, .advance hold hnew
    (fun j hj => stage?_setStage_of_ne hj) hopen hput heq hleft ?_ ?_ ?_ ?_ ?_⟩
  all_goals rw [hy]
  exact Pipe.sent_put _ _

omit hx in
/-- A write puts what is left of it, if anything, and returns. -/
theorem wireStep_finish {rest : Bytes} {p : Purpose} (hold : s.stage? i = some (.writing e rest))
    (hopen : x.closed = false) (hput : x.unsent ++ rest ≠ [] → x.broken = false)
    (hcalls : t.calls = (s.setStage i (p.conclude .ok)).calls)
    (ht : t.sessions[e]? = some
      ({ x with unsent := [], toBroker := x.toBroker.put (x.unsent ++ rest) }.leave i)) :
    ∃ y, t.sessions[e]? = some y
      ∧ WireStep e s t x y (Transition.write? e ⟨s, .act (.call i), t⟩) := by
  have same (j : CallId) : t.stage? j = (s.setStage i (p.conclude .ok)).stage? j := by
    rw [stage?, hcalls, stage?]
  have hnew : t.stage? i = some (p.conclude .ok) := (same i).trans (stage?_setStage_self hold)
  rw [Transition.write?_call hold hnew,
    Stage.write?_of_leave (by simp [Stage.writesTo]) (Stage.writesTo_conclude _),
    Stage.fault?_conclude_ok]
  exact ⟨_, ht, .finish hold hnew (fun j hj => (same j).trans (stage?_setStage_of_ne hj)) hopen
    hput rfl (Pipe.sent_put _ _) rfl rfl rfl rfl⟩

/-- What a step of a call that heads for a session does to it. -/
theorem CallStep.wireStep (hc : s.calls[i]? = some c) (hh : c.stage.heads e = true)
    (step : CallStep setup s i c t) :
    ∃ y, t.sessions[e]? = some y
      ∧ WireStep e s t x y (Transition.write? e ⟨s, .act (.call i), t⟩) := by
  have hold : s.stage? i = some c.stage := stage?_eq_of_getElem? hc
  have here {e' : Place} (hst : c.stage.heads e = (e' == e)) : e' = e := by
    simpa [hst] using hh
  have same {e' : Place} {x' : Session} (he : e' = e) (hx' : s.sessions[e']? = some x') :
      x' = x := by
    subst he
    exact Option.some.inj (hx'.symm.trans hx)
  cases step with
  | @queue e' frame hst =>
    obtain rfl := here (by rw [hst]; rfl)
    rw [hst] at hold
    have hnew : ((s.modifySession e' fun x => { x with writers := x.writers ++ [i] }).setStage i
        (.waiting e' frame)).stage? i = some (.waiting e' frame) :=
      stage?_setStage_self (s := s.modifySession e' _) hold
    rw [Transition.write?_call hold hnew]
    simp only [Stage.write?, if_true]
    exact ⟨_, getElem?_modifySession_self hx,
      .queue hold hnew (fun j hj => stage?_setStage_of_ne hj) rfl⟩
  | @turn e' x' frame hst hx' hhead =>
    obtain rfl := here (by rw [hst]; rfl)
    obtain rfl := same rfl hx'
    rw [hst] at hold
    have hnew : (s.setStage i (.writing e' frame)).stage? i = some (.writing e' frame) :=
      stage?_setStage_self hold
    rw [Transition.write?_call hold hnew,
      Stage.write?_of_stay (by simp [Stage.writesTo]) (by simp [Stage.writesTo])]
    exact ⟨_, hx, .turn hold hnew (fun j hj => stage?_setStage_of_ne hj) hhead rfl⟩
  | bounce hst hx' hhead hclosed =>
    obtain rfl := here (by rw [hst]; rfl)
    obtain rfl := same rfl hx'
    exact wireStep_fail hx hold (by simp [hst, Stage.writesTo]) (.inl hclosed)
      (fun _ _ => hhead) _
  | cut hst hx' hclosed =>
    obtain rfl := here (by rw [hst]; rfl)
    obtain rfl := same rfl hx'
    exact wireStep_fail hx hold (by simp [hst, Stage.writesTo]) (.inl hclosed) (by simp [hst]) _
  | snap hst hx' _ _ hbroken =>
    obtain rfl := here (by rw [hst]; rfl)
    obtain rfl := same rfl hx'
    exact wireStep_fail hx hold (by simp [hst, Stage.writesTo]) (.inr hbroken) (by simp [hst]) _
  | @accept e' x' rest hst hx' hopen hrest =>
    obtain rfl := here (by rw [hst]; rfl)
    obtain rfl := same rfl hx'
    -- what is accepted is left to be put later
    have heq : x'.unsent ++ rest = [] ++ ((x'.accept rest).unsent ++ []) := by
      simp [Session.accept]
    exact wireStep_advance hx (hst ▸ hold) hopen (by simp) heq (by simp [Session.accept, hrest])
      (by simp [Session.accept, Pipe.put]) _ rfl
  | push hst hx' hopen hbroken hpush hleft =>
    obtain rfl := here (by rw [hst]; rfl)
    obtain rfl := same rfl hx'
    obtain ⟨bs, heq, hy⟩ := Session.eq_of_push? hpush
    exact wireStep_advance hx (hst ▸ hold) hopen (fun _ => hbroken) heq
      (by simpa [Classical.or_iff_not_imp_left] using hleft.symm) hy _ rfl
  | @finish e' x' hst hx' hopen hunsent =>
    obtain rfl := here (by rw [hst]; rfl)
    obtain rfl := same rfl hx'
    refine wireStep_finish (hst ▸ hold) hopen (by simp [hunsent]) rfl ?_
    refine (getElem?_modifySession_self hx).trans (congrArg some ?_)
    simp [Session.leave, hunsent, Pipe.put]
  | complete hst hx' hopen hbroken hpush hunsent =>
    obtain rfl := here (by rw [hst]; rfl)
    obtain rfl := same rfl hx'
    -- all that was left is put, and the write returns in the same step
    obtain ⟨bs, heq, hy⟩ := Session.eq_of_push? hpush
    rw [hunsent, List.append_nil, List.append_nil] at heq
    rw [hunsent] at hy
    refine wireStep_finish (hst ▸ hold) hopen (fun _ => hbroken) rfl ?_
    rw [heq, ← hy]
    exact getElem?_modifySession_self (getElem?_modifySession_self hx)
  | _ => simp_all [Stage.heads]

end Heading

/-- A step that is not one of a call that heads for a session moves no write to it. -/
theorem MoveStep.stage?_or_idle (step : MoveStep setup s m t)
    (hm : ∀ (i : CallId) (c : Call), m = .act (.call i) → s.calls[i]? = some c →
      c.stage.heads e = false) (j : CallId) :
    t.stage? j = s.stage? j ∨ ∀ stage, stage.writesTo e = true →
      t.stage? j ≠ some stage ∧ s.stage? j ≠ some stage := by
  have idle {old new : Stage} (hold : s.stage? j = some old) (hnew : t.stage? j = some new)
      (hold' : old.writesTo e = false) (hnew' : new.writesTo e = false) :
      ∀ stage, stage.writesTo e = true → t.stage? j ≠ some stage ∧ s.stage? j ≠ some stage := by
    intro stage hw
    rw [hold, hnew]
    refine ⟨?_, ?_⟩
    · rintro ⟨⟩
      exact absurd hw (by simp [hnew'])
    · rintro ⟨⟩
      exact absurd hw (by simp [hold'])
  -- a call moves by itself, or others give it its first stage or a connection
  by_cases hj : m = .act (.call j)
  · subst hj
    cases step with
    | @call _ c _ hc step =>
      obtain ⟨new, hnew, hnext, -⟩ := step.stage?_eq hc
      have hh := hm j c rfl hc
      refine .inr (idle (stage?_eq_of_getElem? hc) hnew ?_ (hnext.writesTo hh))
      rw [← Bool.not_eq_true] at hh ⊢
      exact fun hw => hh (Stage.heads_of_writesTo hw)
  · rcases step.stage?_of_ne hj with heq | ⟨hs, p, n, ht⟩ | ⟨hs, ⟨o, ht⟩ | ⟨e', ht⟩⟩
    · exact .inl heq
    · -- a call that starts does not write yet
      refine .inr fun stage hw => ⟨?_, by simp [hs]⟩
      rw [ht]
      rintro ⟨⟩
      cases p <;> cases hw
    · exact .inr (idle hs ht rfl rfl)
    · exact .inr (idle hs ht rfl rfl)

/-- A step that is not one of a call that heads for a session writes nothing to it. -/
theorem MoveStep.sameWire (step : MoveStep setup s m t)
    (hm : ∀ (i : CallId) (c : Call), m = .act (.call i) → s.calls[i]? = some c →
      c.stage.heads e = false) (hx : s.sessions[e]? = some x) :
    ∃ y, t.sessions[e]? = some y ∧ x.SameWire y := by
  cases step with
  | reader hx' step => exact step.sameWire hx' hx
  | call hc step => exact step.sameWire (hm _ _ rfl hc) hx
  | attach | connected =>
    exact ⟨x, (List.getElem?_append_left (List.getElem?_eq_some_iff.mp hx).1).trans hx, .refl x⟩
  | brokerPut | breakInput | letGo =>
    exact sameWire_modifySession _ hx fun x => .of_eq rfl rfl rfl rfl rfl rfl
  | brokerTake =>
    exact sameWire_modifySession _ hx fun x => ⟨rfl, rfl, Pipe.sent_take _ _, id, id, .inl⟩
  | brokerDrop =>
    exact sameWire_modifySession _ hx fun x => ⟨rfl, rfl, rfl, id, fun _ => rfl, .inl⟩
  | start | refused | undialed | receive | dropBus | forget => exact ⟨x, hx, .refl x⟩

/-- Every step does one of six things to the outgoing side of a session. -/
theorem MoveStep.wireStep (hx : s.sessions[e]? = some x) (step : MoveStep setup s m t) :
    ∃ y, t.sessions[e]? = some y ∧ WireStep e s t x y (Transition.write? e ⟨s, m, t⟩) := by
  have rest (hm : ∀ (i : CallId) (c : Call), m = .act (.call i) → s.calls[i]? = some c →
      c.stage.heads e = false) :
      ∃ y, t.sessions[e]? = some y ∧ WireStep e s t x y none := by
    obtain ⟨y, hy, same⟩ := step.sameWire hm hx
    refine ⟨y, hy, .rest same ?_⟩
    intro j stage hw
    rcases step.stage?_or_idle hm j with heq | hne
    · rw [heq]
    · exact iff_of_false (hne stage hw).1 (hne stage hw).2
  cases step with
  | @call i c _ hc own =>
    cases hh : c.stage.heads e with
    | true => exact own.wireStep hx hc hh
    | false =>
      obtain ⟨new, hnew, -⟩ := own.stage?_eq hc
      rw [Transition.write?_call (stage?_eq_of_getElem? hc) hnew, Stage.write?_eq_none hh]
      apply rest
      intro j d hj hd
      cases hj
      rw [hc, Option.some.injEq] at hd
      exact hd ▸ hh
  | _ => exact rest (by simp)

end Relay

end StompRelay
