import StompRelay.Proofs.Handling.Managed
import StompRelay.Relay.Dispatch
/-!
# One event at a time

The events of one client are handled one after the other, those of different clients overlap in any
way. So of the calls about a client one at most is under way, and nobody else registers a session
under its id meanwhile.

## Main definitions

* `Relay.Handled` — the relay is run by events alone, those of one client one at a time
* `Relay.Turns` — of two calls about one client the earlier one has ended

## Main results

* `Relay.turns_of_run` — in every handled run calls take turns
* `Relay.Turns.registered?_of_ne` — while a call is under way nobody else registers its id
-/

namespace StompRelay

theorem Message.sends?_purpose (m : Message) :
    m.purpose.sends? = some (m, m.command.getD .send) := by
  cases hm : m.command with
  | none => simp [purpose, hm, Purpose.sends?]
  | some c =>
    by_cases ho : c.opensConnection = true
    · simp [purpose, hm, ho, Purpose.sends?]
    · by_cases hd : c = .disconnect
      · simp [purpose, hm, hd, Command.opensConnection, Purpose.sends?]
      · simp [purpose, hm, ho, hd, Purpose.sends?]

theorem Message.session?_purpose (m : Message) : m.purpose.session? = some m.session := by
  cases hm : m.command with
  | none => simp [purpose, hm, Purpose.session?]
  | some c =>
    by_cases ho : c.opensConnection = true
    · simp [purpose, hm, ho, Purpose.session?]
    · by_cases hd : c = .disconnect
      · simp [purpose, hm, hd, Command.opensConnection, Purpose.session?]
      · simp [purpose, hm, ho, hd, Purpose.session?]

theorem Message.id_purpose (m : Message) : m.purpose.id = m.session := by
  rw [Purpose.id, session?_purpose]
  rfl

theorem Message.dials_purpose (m : Message) :
    m.purpose.dials = m.command.any Command.opensConnection := by
  cases hm : m.command with
  | none => simp [purpose, hm, Purpose.dials]
  | some c =>
    by_cases ho : c.opensConnection = true
    · simp [purpose, hm, ho, Purpose.dials]
    · by_cases hd : c = .disconnect
      · simp [purpose, hm, hd, Command.opensConnection, Purpose.dials]
      · simp [purpose, hm, ho, hd, Purpose.dials]

namespace Purpose

/-- Whether a call is made for an event, or ends all sessions as the relay does when it stops. -/
def isHandled : Purpose → Bool
  | forward m c => m.command.getD .send = c && !c.opensConnection && c ≠ .disconnect
  | login m c => m.command = some c && c.opensConnection
  | logout m => m.command = some .disconnect
  | depart _ | teardownAll => true
  | _ => false

theorem isHandled_iff {p : Purpose} :
    p.isHandled = true ↔ p = .teardownAll ∨ ∃ event : Event, p = event.purpose := by
  constructor
  · intro hp
    cases p with
    | teardownAll => exact .inl rfl
    | depart session => exact .inr ⟨.closed session, rfl⟩
    | forward m c =>
      refine .inr ⟨.message m, ?_⟩
      cases hm : m.command <;>
        simp_all [isHandled, Event.purpose, Message.purpose]
    | login m c =>
      refine .inr ⟨.message m, ?_⟩
      simp_all [isHandled, Event.purpose, Message.purpose]
    | logout m =>
      refine .inr ⟨.message m, ?_⟩
      simp_all [isHandled, Event.purpose, Message.purpose, Command.opensConnection]
    | _ => cases hp
  · rintro (rfl | ⟨event, rfl⟩)
    · rfl
    · cases event with
      | closed => rfl
      | message m =>
        cases hm : m.command with
        | none => simp [Event.purpose, Message.purpose, hm, isHandled, Command.opensConnection]
        | some c =>
          by_cases ho : c.opensConnection = true
          · simp [Event.purpose, Message.purpose, hm, ho, isHandled]
          · by_cases hd : c = .disconnect
            · simp [Event.purpose, Message.purpose, hm, hd, Command.opensConnection, isHandled]
            · simp [Event.purpose, Message.purpose, hm, ho, hd, isHandled]

/-- A handled call that sends a message is the call that the message makes. -/
theorem eq_purpose_of_sends {p : Purpose} {m : Message} {c : Command} (hp : p.isHandled = true)
    (hm : p.sends? = some (m, c)) : p = m.purpose := by
  rcases isHandled_iff.mp hp with rfl | ⟨event, rfl⟩
  · cases hm
  · cases event with
    | closed => cases hm
    | message m' =>
      obtain rfl : m' = m := by
        have heq := (Message.sends?_purpose m').symm.trans hm
        simpa using congrArg (Option.map Prod.fst) heq
      rfl

end Purpose

namespace Relay

/-- Whether every call about a client has ended. -/
def isIdle (s : Relay) (id : SessionId) : Bool :=
  s.calls.all fun c => c.purpose.session? ≠ some id || c.stage.outcome?.isSome

/-- Whether a move may happen while events of one client are handled one at a time: a call is
started for an event of a client of whom no event is under way, or somebody moves by itself, or the
broker or the receiver of the bus does. -/
def Move.isHandled (s : Relay) : Move → Bool
  | .start p => p.isHandled && p.session?.all s.isIdle
  | .attach _ _ _ _ | .letGo _ | .forget _ => false
  | _ => true

/-- The relay is run by events alone, those of one client one at a time. -/
def Handled (h : History) : Prop := h.all (fun τ => τ.move.isHandled τ.before) = true

instance (h : History) : Decidable (Handled h) := inferInstanceAs (Decidable (_ = true))

variable {setup : Setup} {busCapacity : Nat} {s t : Relay} {h k : History} {m : Move} {e : Place}
  {i j : CallId} {c d : Call} {id : SessionId} {o : Outcome}

theorem handled_append : Handled (h ++ k) ↔ Handled h ∧ Handled k := by
  simp [Handled]

theorem handled_snoc {τ : Transition} :
    Handled (h ++ [τ]) ↔ Handled h ∧ τ.move.isHandled τ.before = true := by
  simp [Handled]

/-- Nobody handles a session by hand in a handled run. -/
theorem Handled.managed (hh : Handled h) : Managed h := by
  rw [Managed, List.all_eq_true]
  intro τ hτ
  have hmove := List.all_eq_true.mp hh τ hτ
  cases hm : τ.move with
  | start p =>
    rw [hm] at hmove
    cases p <;> first | rfl | cases hmove
  | attach | letGo | forget => rw [hm] at hmove; cases hmove
  | _ => rfl

theorem Handled.orderly (hh : Handled h) : Orderly h := hh.managed.orderly

/-- A call that has ended stays as it is. -/
theorem MoveStep.done_after (step : MoveStep setup s m t) (hc : s.calls[i]? = some c)
    (hdone : c.stage = .done o) : t.calls[i]? = some c := by
  obtain ⟨d, hd, hpurpose, heq | hnext⟩ := step.call_after hc
  · rw [hd]
    cases c
    cases d
    simp_all
  · rw [hdone] at hnext
    cases hnext

/-- A step starts one call at most. -/
theorem MoveStep.length_calls_le (step : MoveStep setup s m t) :
    t.calls.length ≤ s.calls.length + 1 := by
  rcases step.calls_eq with heq | ⟨i, c, new, -, -, heq⟩ | ⟨p, heq⟩
  · simp [heq]
  · simp [heq, setStage]
  · simp [heq]

/-- All calls are for events, or for the end of the relay, and of two calls about one client the
earlier one has ended. -/
structure Turns (s : Relay) : Prop where
  handled : ∀ (i : CallId) (c : Call), s.calls[i]? = some c → c.purpose.isHandled = true
  ended : ∀ (i j : CallId) (c d : Call) (id : SessionId), i < j → s.calls[i]? = some c →
    s.calls[j]? = some d → c.purpose.session? = some id → d.purpose.session? = some id →
    ∃ o, c.stage = .done o

/-- In a handled run, of two calls about one client the earlier one has ended. -/
theorem turns_of_run (run : Run setup busCapacity h s) (hh : Handled h) : s.Turns := by
  induction run with
  | nil => exact ⟨by simp [Relay.empty], by simp [Relay.empty]⟩
  | @snoc h s t m run hm ih =>
    obtain ⟨hbefore, hmove⟩ := handled_snoc.mp hh
    have turns := ih hbefore
    have step := run.moveStep hm
    -- a call that is new was started when no other was under way
    have fresh {i : CallId} {c : Call} (hs : s.calls[i]? = none) (hc : t.calls[i]? = some c) :
        c.purpose.isHandled = true ∧ c.purpose.session?.all s.isIdle = true := by
      obtain ⟨-, rfl | ⟨id, capacity, reads, holds, rfl, -⟩⟩ := step.call_new hs hc
      · exact (Bool.and_eq_true_iff.mp hmove)
      · cases hmove
    constructor
    · intro i c hc
      cases hs : s.calls[i]? with
      | some b =>
        have hpurpose := step.purpose_eq hs hc
        exact hpurpose ▸ turns.handled i b hs
      | none => exact (fresh hs hc).1
    · intro i j c d id hij hc hd hcid hdid
      cases hs : s.calls[j]? with
      | some b =>
        have hpurpose := step.purpose_eq hs hd
        have hlt : i < s.calls.length := Nat.lt_trans hij (List.getElem?_eq_some_iff.mp hs).1
        have ha : s.calls[i]? = some s.calls[i] := List.getElem?_eq_getElem hlt
        have hpurpose' := step.purpose_eq ha hc
        obtain ⟨o, ho⟩ := turns.ended i j _ b id hij ha hs (hpurpose' ▸ hcid) (hpurpose ▸ hdid)
        obtain rfl := Option.some.inj (hc.symm.trans (step.done_after ha ho))
        exact ⟨o, ho⟩
      | none =>
        obtain ⟨-, hidle⟩ := fresh hs hd
        rw [hdid, Option.all_some] at hidle
        cases ha : s.calls[i]? with
        | none =>
          -- the earlier call would be new, too
          have hi := List.getElem?_eq_none_iff.mp ha
          have hj := (List.getElem?_eq_some_iff.mp hd).1
          exact absurd (Nat.lt_of_le_of_lt hi hij) (Nat.not_lt.mpr (Nat.le_of_lt_succ
            (Nat.lt_of_lt_of_le hj step.length_calls_le)))
        | some b =>
          have hpurpose := step.purpose_eq ha hc
          have hb := List.all_eq_true.mp hidle b (List.mem_of_getElem? ha)
          rw [← hpurpose, hcid] at hb
          have hdone : b.stage.outcome?.isSome = true := by simpa using hb
          cases hb' : b.stage with
          | done o =>
            obtain rfl := Option.some.inj (hc.symm.trans (step.done_after ha hb'))
            exact ⟨o, hb'⟩
          | _ =>
            rw [hb'] at hdone
            cases hdone

namespace Turns

/-- Of the calls about a client one at most is under way. -/
theorem eq_of_active (turns : s.Turns) (hc : s.calls[i]? = some c) (hd : s.calls[j]? = some d)
    (hcid : c.purpose.session? = some id) (hdid : d.purpose.session? = some id)
    (hci : ∀ o, c.stage ≠ .done o) (hdj : ∀ o, d.stage ≠ .done o) : i = j := by
  rcases Nat.lt_trichotomy i j with hlt | heq | hlt
  · obtain ⟨o, ho⟩ := turns.ended i j c d id hlt hc hd hcid hdid
    exact absurd ho (hci o)
  · exact heq
  · obtain ⟨o, ho⟩ := turns.ended j i d c id hlt hd hc hdid hcid
    exact absurd ho (hdj o)

/-- A call about a client was started after all others about it that have ended. -/
theorem le_of_active (turns : s.Turns) (hc : s.calls[i]? = some c) (hd : s.calls[j]? = some d)
    (hcid : c.purpose.session? = some id) (hdid : d.purpose.session? = some id)
    (hdj : ∀ o, d.stage ≠ .done o) : i ≤ j := by
  by_contra hlt
  obtain ⟨o, ho⟩ := turns.ended j i d c id (Nat.lt_of_not_le hlt) hd hc hdid hcid
  exact hdj o ho

/-- While a call about a client is under way, what is found under its id after a step of others was
found before it. -/
theorem registered?_of_ne (turns : s.Turns) (run : Run setup busCapacity h s)
    (step : MoveStep setup s m t) (hc : s.calls[i]? = some c)
    (hid : c.purpose.session? = some id) (hci : ∀ o, c.stage ≠ .done o) (hm : m ≠ .act (.call i))
    (hr : t.registered? id = some e) : s.registered? id = some e := by
  have hmem := mem_registry_of_registered? hr
  rw [registered?_eq_some_iff (census_of_run run).ids]
  rcases step.registry with hsub | ⟨j, d, e', rfl, hd, hst, -, -, -, heq⟩
  · exact hsub.subset hmem
  · rw [heq] at hmem
    rcases List.mem_append.mp hmem with hmem | hmem
    · exact hmem
    · -- the call that registers the id would be another one that is under way
      cases List.mem_singleton.mp hmem
      have hv := visits_of_run run hd
      have hdid : d.purpose.session? = some d.purpose.id := by
        rw [hst] at hv
        cases hp : d.purpose <;> rw [hp] at hv <;> first | rfl | cases hv
      have hij := turns.eq_of_active hc hd hid hdid hci (by rw [hst]; simp)
      exact absurd (hij ▸ rfl) hm

end Turns

end Relay

end StompRelay
