import Mathlib.Data.List.Nodup
import StompRelay.Proofs.Stages
/-!
# What calls find in the register

A call looks its id up at most three times: before it dials, when it wants to send, and when it ends
a session. What it found is read off a history.

## Main definitions

* `Relay.inquiries` — what the calls at certain stages found under their ids
* `Relay.looks`, `Relay.admissions`, `Relay.removals` — the calls that want to send, to open a
  connection, and to end a session

## Main results

* `Relay.inquired_of_run` — a call asks once, and is past its question then
* `Relay.looks_unique` — so there is one answer
-/

namespace StompRelay

namespace Stage

/-- Whether a call looks the session of its message up next. -/
def looks : Stage → Bool
  | finding => true
  | _ => false

/-- Whether a call has looked the session of its message up. -/
def hasLooked : Stage → Bool
  | encoding _ | asking _ _ | waiting _ _ | writing _ _ | failing _ _ | removing _ _ _
  | closing _ _ _ | done _ => true
  | _ => false

/-- Whether a call asks next whether its id is free. -/
def admits : Stage → Bool
  | admitting => true
  | _ => false

/-- Whether a call ends the session under its id next. -/
def removes : Stage → Bool
  | removing _ _ _ => true
  | _ => false

/-- Whether a call has ended the session under its id, or found none to end. -/
def hasRemoved : Stage → Bool
  | closing _ _ final => final
  | done _ => true
  | _ => false

section Arrows

variable {codec : Codec} {p : Purpose} {old new : Stage}

theorem hasLooked_conclude (o : Outcome) : (p.conclude o).hasLooked = true := by
  cases p <;> rfl

theorem hasLooked_afterBreak (e : Place) (f : WriteFault) :
    (p.afterBreak e f).hasLooked = true := by
  cases p <;> rfl

/-- A call that has looked, or looks, has looked afterwards. -/
theorem Next.hasLooked (hnext : Next codec p old new)
    (h : old.looks = true ∨ old.hasLooked = true) : new.hasLooked = true := by
  cases hnext with
  | miss | unencodable | finish | late => exact hasLooked_conclude _
  | bounce | «break» => exact hasLooked_afterBreak _ _
  | @leave o final =>
    cases final
    · exact hasLooked_conclude o
    · rfl
  | find | encode | queue | turn | write | condemn | remove | pass | close => rfl
  | refuse | unreachable | reject | attach | clear | post => rfl
  | dial | dialed | register | start | join => simp [Stage.looks, Stage.hasLooked] at h

/-- A call that has ended the session under its id, or does, has ended it afterwards. -/
theorem Next.hasRemoved (hnext : Next codec p old new)
    (h : old.removes = true ∨ old.hasRemoved = true) : new.hasRemoved = true := by
  cases hnext with
  | remove | pass => rfl
  | close => simpa [Stage.removes, Stage.hasRemoved] using h
  | @leave o final =>
    obtain rfl : final = true := by simpa [Stage.removes, Stage.hasRemoved] using h
    rfl
  | _ => simp [Stage.removes, Stage.hasRemoved] at h

end Arrows

end Stage

namespace Relay

/-- What a call at such a stage finds under its id. -/
def Transition.inquiry? (asks : Stage → Bool) (τ : Transition) :
    Option (CallId × Option Place) :=
  match τ.move with
  | .act (.call i) => τ.before.calls[i]?.bind fun c =>
    if asks c.stage then some (i, τ.before.registered? c.purpose.id) else none
  | _ => none

/-- What the calls at such a stage found under their ids, in order. -/
def inquiries (asks : Stage → Bool) (h : History) : List (CallId × Option Place) :=
  h.filterMap (Transition.inquiry? asks)

/-- What the calls found that wanted to send a message, in order. -/
abbrev looks (h : History) : List (CallId × Option Place) := inquiries Stage.looks h

/-- What the calls found that wanted to open a connection, in order. -/
abbrev admissions (h : History) : List (CallId × Option Place) := inquiries Stage.admits h

/-- What the calls found that wanted to end the session under their id, in order. -/
abbrev removals (h : History) : List (CallId × Option Place) := inquiries Stage.removes h

variable {setup : Setup} {busCapacity : Nat} {s t : Relay} {h : History} {m : Move} {i : CallId}
  {c : Call} {asks past : Stage → Bool} {r r' : Option Place}

theorem inquiries_snoc (h : History) (τ : Transition) :
    inquiries asks (h ++ [τ]) = inquiries asks h ++ (τ.inquiry? asks).toList := by
  cases hτ : τ.inquiry? asks <;> simp [inquiries, hτ]

theorem mem_inquiries_snoc {q : CallId × Option Place} {τ : Transition}
    (hq : q ∈ inquiries asks h) : q ∈ inquiries asks (h ++ [τ]) := by
  rw [inquiries_snoc]
  exact List.mem_append_left _ hq

/-- What a call finds that asks. -/
theorem inquiry?_call (hc : s.calls[i]? = some c) :
    Transition.inquiry? asks ⟨s, .act (.call i), t⟩
      = if asks c.stage then some (i, s.registered? c.purpose.id) else none := by
  simp [Transition.inquiry?, hc]

/-- What a call that asks found is on the record. -/
theorem mem_inquiries_call (hc : s.calls[i]? = some c) (ha : asks c.stage = true) :
    (i, s.registered? c.purpose.id) ∈ inquiries asks (h ++ [⟨s, .act (.call i), t⟩]) := by
  rw [inquiries_snoc, inquiry?_call hc, if_pos ha]
  exact List.mem_append_right _ (List.mem_singleton_self _)

/-- Only a step of a call that asks adds to what calls found. -/
theorem MoveStep.exists_of_inquiry? (step : MoveStep setup s m t)
    (hq : Transition.inquiry? asks ⟨s, m, t⟩ = some (i, r)) :
    m = .act (.call i) ∧ ∃ c, s.calls[i]? = some c ∧ asks c.stage = true
      ∧ r = s.registered? c.purpose.id ∧ CallStep setup s i c t := by
  cases step with
  | @call j c _ hc step =>
    rw [inquiry?_call hc] at hq
    obtain ⟨ha, heq⟩ := Option.ite_none_right_eq_some.mp hq
    cases heq
    exact ⟨rfl, c, hc, ha, rfl, step⟩
  | _ => simp [Transition.inquiry?] at hq

/-- A call that asks once in its life asks once in every run, and is past its question then. -/
theorem inquired_of_run
    (next : ∀ (p : Purpose) (old new : Stage), Stage.Next setup.codec p old new →
      asks old = true ∨ past old = true → past new = true)
    (excludes : ∀ stage, past stage = true → asks stage = false)
    (run : Run setup busCapacity h s) :
    ((inquiries asks h).map Prod.fst).Nodup
      ∧ ∀ i ∈ (inquiries asks h).map Prod.fst, ∃ c, s.calls[i]? = some c ∧ past c.stage = true := by
  induction run with
  | nil => exact ⟨List.nodup_nil, fun i hi => by cases hi⟩
  | @snoc h s t m run hm ih =>
    obtain ⟨hnodup, hpast⟩ := ih
    have step := run.moveStep hm
    have kept (i : CallId) (hi : i ∈ (inquiries asks h).map Prod.fst) :
        ∃ d, t.calls[i]? = some d ∧ past d.stage = true := by
      obtain ⟨c, hc, hp⟩ := hpast i hi
      obtain ⟨d, hd, -, heq | hnext⟩ := step.call_after hc
      · exact ⟨d, hd, heq ▸ hp⟩
      · exact ⟨d, hd, next _ _ _ hnext (.inr hp)⟩
    rw [inquiries_snoc, List.map_append]
    cases hq : Transition.inquiry? asks ⟨s, m, t⟩ with
    | none =>
      rw [Option.toList_none, List.map_nil, List.append_nil]
      exact ⟨hnodup, kept⟩
    | some q =>
      obtain ⟨i, r⟩ := q
      obtain ⟨rfl, c, hc, ha, -, own⟩ := step.exists_of_inquiry? hq
      refine ⟨List.nodup_append.mpr ⟨hnodup, List.nodup_singleton _, ?_⟩, ?_⟩
      · -- a call that asks is not past its question
        rintro j hj k hk rfl
        obtain rfl : j = i := by simpa using hk
        obtain ⟨c', hc', hp⟩ := hpast j hj
        rw [hc, Option.some.injEq] at hc'
        subst hc'
        exact Bool.false_ne_true ((excludes _ hp).symm.trans ha)
      · intro j hj
        rcases List.mem_append.mp hj with hj | hj
        · exact kept j hj
        · obtain rfl : j = i := by simpa using hj
          obtain ⟨new, hnew, hnext, -⟩ := own.stage?_eq hc
          obtain ⟨d, hd, rfl⟩ := Option.map_eq_some_iff.mp hnew
          exact ⟨d, hd, next _ _ _ hnext (.inl ha)⟩

/-- What a call found that asks once is one thing. -/
theorem eq_of_nodup (hn : ((inquiries asks h).map Prod.fst).Nodup)
    (hr : (i, r) ∈ inquiries asks h) (hr' : (i, r') ∈ inquiries asks h) : r = r' :=
  congrArg Prod.snd (List.inj_on_of_nodup_map hn hr hr' rfl)

theorem looked_of_run (run : Run setup busCapacity h s) :
    ((looks h).map Prod.fst).Nodup
      ∧ ∀ i ∈ (looks h).map Prod.fst, ∃ c, s.calls[i]? = some c ∧ c.stage.hasLooked = true :=
  inquired_of_run (fun _ _ _ hnext => hnext.hasLooked)
    (fun stage hp => by cases stage <;> first | rfl | cases hp) run

theorem looks_unique (run : Run setup busCapacity h s) (hr : (i, r) ∈ looks h)
    (hr' : (i, r') ∈ looks h) : r = r' :=
  eq_of_nodup (looked_of_run run).1 hr hr'

theorem removed_of_run (run : Run setup busCapacity h s) :
    ((removals h).map Prod.fst).Nodup
      ∧ ∀ i ∈ (removals h).map Prod.fst, ∃ c, s.calls[i]? = some c ∧ c.stage.hasRemoved = true :=
  inquired_of_run (fun _ _ _ hnext => hnext.hasRemoved)
    (fun stage hp => by cases stage <;> first | rfl | cases hp) run

end Relay

end StompRelay
