import StompRelay.Proofs.Calls.Trail
import StompRelay.Proofs.Handling.Turns
import StompRelay.Proofs.Isolation.Account
/-!
# The connections of handled calls

Every connection is opened for one call, and a call opens one at most. The calls that find a session
are those about its client, in the order in which they were started, and the one for which its
connection was opened is the first of them.

## Main definitions

* `Relay.openings` — the connections that were opened, and for which calls
* `Relay.served` — the calls that found a session

## Main results

* `Relay.opened_of_run` — a connection is opened for one call, and under its id
* `Relay.found_of_run` — a call finds only sessions of its client
* `Relay.served_sorted` — the calls that found a session were started in this order
* `Relay.opening_le_served` — a connection is not used before the call for which it was opened
-/

namespace StompRelay

/-- Whether a call has waited for a connection. -/
def Stage.hasDialed : Stage → Bool
  | .admitting | .dialing => false
  | _ => true

theorem Stage.Next.hasDialed {codec : Codec} {p : Purpose} {old new : Stage}
    (hnext : Stage.Next codec p old new) (h : old.hasDialed = true) : new.hasDialed = true := by
  cases hw : new.wrapsUp with
  | true => cases new <;> first | rfl | cases hw
  | false =>
    cases hnext.advance hw with
    | dial => cases h
    | _ => rfl

namespace Relay

/-- The connection that a step opens, and for which call. -/
def Transition.opening? (τ : Transition) : Option (CallId × Place) :=
  match τ.move with
  | .dialed i _ =>
    if τ.before.sessions.length < τ.after.sessions.length then some (i, τ.before.sessions.length)
    else none
  | _ => none

/-- The connections that were opened for calls, in order. -/
def openings (h : History) : List (CallId × Place) := h.filterMap Transition.opening?

/-- The calls that found a session under their ids when they wanted to send, in order. -/
def served (e : Place) (h : History) : List CallId :=
  (looks h).filterMap fun q => if q.2 = some e then some q.1 else none

variable {setup : Setup} {busCapacity : Nat} {s t : Relay} {h : History} {m : Move} {e e' : Place}
  {i j : CallId} {c d : Call} {x : Session} {p : Purpose} {stage : Stage} {msg : Message}
  {command : Command}

theorem openings_snoc (h : History) (τ : Transition) :
    openings (h ++ [τ]) = openings h ++ τ.opening?.toList := by
  cases hτ : τ.opening? <;> simp [openings, hτ]

theorem mem_openings_snoc {τ : Transition} (ho : (i, e) ∈ openings h) :
    (i, e) ∈ openings (h ++ [τ]) := by
  rw [openings_snoc]
  exact List.mem_append_left _ ho

theorem mem_served : i ∈ served e h ↔ (i, some e) ∈ looks h := by
  simp only [served, List.mem_filterMap, Prod.exists]
  constructor
  · rintro ⟨j, r, hmem, hr⟩
    obtain ⟨rfl, heq⟩ := Option.ite_none_right_eq_some.mp hr
    exact Option.some.inj heq ▸ hmem
  · intro hmem
    exact ⟨i, some e, hmem, if_pos rfl⟩

/-- A connection is opened for a call that waits for one. -/
theorem MoveStep.exists_of_opening? (step : MoveStep setup s m t)
    (ho : Transition.opening? ⟨s, m, t⟩ = some (i, e)) :
    e = s.sessions.length ∧ ∃ p capacity, s.calls[i]? = some ⟨p, .dialing⟩
      ∧ t.stage? i = some (.registering e)
      ∧ t.sessions = s.sessions ++ [.new p.id s.nextEpoch capacity] := by
  cases step with
  | @connected j p capacity hc =>
    obtain ⟨-, heq⟩ := Option.ite_none_right_eq_some.mp ho
    cases heq
    exact ⟨rfl, p, capacity, hc, stage?_setStage_self (stage?_eq_of_getElem? hc), rfl⟩
  | refused =>
    obtain ⟨hlt, -⟩ := Option.ite_none_right_eq_some.mp ho
    exact absurd hlt (Nat.lt_irrefl _)
  | undialed =>
    obtain ⟨hlt, -⟩ := Option.ite_none_right_eq_some.mp ho
    exact absurd hlt (Nat.lt_irrefl _)
  | _ => cases ho

/-- A call that waits for a connection gets it with a step that opens it. -/
theorem MoveStep.opening?_eq (step : MoveStep setup s m t) (hold : s.stage? i = some .dialing)
    (hnew : t.stage? i = some (.registering e)) : Transition.opening? ⟨s, m, t⟩ = some (i, e) := by
  obtain ⟨c, hc, hst⟩ := Option.map_eq_some_iff.mp hold
  have same (hcalls : t.calls = s.calls) : False := by
    rw [stage?, hcalls, ← stage?, hold] at hnew
    cases hnew
  have started {d : Call} (hcalls : t.calls = s.calls ++ [d]) : False := by
    rw [stage?, hcalls, List.getElem?_append_left (List.getElem?_eq_some_iff.mp hc).1, hc,
      Option.map_some, hst] at hnew
    cases hnew
  have answered {j : CallId} {new : Stage} (hcalls : t.calls = (s.setStage j new).calls) :
      j = i ∧ new = .registering e := by
    have heq : t.stage? i = (s.setStage j new).stage? i := by rw [stage?, hcalls, stage?]
    rw [hnew] at heq
    by_cases hij : j = i
    · subst hij
      rw [stage?_setStage_self hold, Option.some.injEq] at heq
      exact ⟨rfl, heq.symm⟩
    · rw [stage?_setStage_of_ne hij, hold] at heq
      cases heq
  cases step with
  | reader _ step => exact (same step.calls_eq).elim
  | @call j _ _ hc' step =>
    obtain ⟨new, -, -, others⟩ := step.stage?_eq hc'
    by_cases hij : j = i
    · subst hij
      obtain rfl := Option.some.inj (hc.symm.trans hc')
      exact absurd hst step.stage_ne_dialing
    · rw [others i hij, hold] at hnew
      cases hnew
  | start => exact (started rfl).elim
  | attach => exact (started rfl).elim
  | refused => cases (answered rfl).2
  | @connected j p capacity =>
    obtain ⟨rfl, heq⟩ := answered rfl
    cases heq
    simp [Transition.opening?]
  | _ => exact (same rfl).elim

/-- Every connection was opened for one call, under its id, and a call opens one connection. -/
structure Opened (h : History) (s : Relay) : Prop where
  calls : ∀ (i : CallId) (e : Place), (i, e) ∈ openings h → ∃ c x, s.calls[i]? = some c
    ∧ s.sessions[e]? = some x ∧ x.id = c.purpose.id ∧ c.purpose.dials = true
    ∧ c.stage.hasDialed = true
  session : ∀ (i : CallId) (e e' : Place), (i, e) ∈ openings h → (i, e') ∈ openings h → e = e'
  call : ∀ (i j : CallId) (e : Place), (i, e) ∈ openings h → (j, e) ∈ openings h → i = j

namespace Opened

theorem calls_step (hop : Opened h s) (run : Run setup busCapacity h s)
    (step : MoveStep setup s m t) (ho : (i, e) ∈ openings (h ++ [⟨s, m, t⟩])) :
    ∃ c x, t.calls[i]? = some c ∧ t.sessions[e]? = some x ∧ x.id = c.purpose.id
      ∧ c.purpose.dials = true ∧ c.stage.hasDialed = true := by
  rw [openings_snoc, List.mem_append] at ho
  rcases ho with ho | ho
  · obtain ⟨c, x, hc, hx, hid, hdials, hdialed⟩ := hop.calls i e ho
    obtain ⟨d, hd, hpurpose, hstage⟩ := step.call_after hc
    obtain ⟨y, hy, hid'⟩ := step.session_id hx
    refine ⟨d, y, hd, hy, hid'.trans (hid.trans (by rw [hpurpose])), hpurpose ▸ hdials, ?_⟩
    rcases hstage with heq | hnext
    · exact heq ▸ hdialed
    · exact hnext.hasDialed hdialed
  · obtain ⟨rfl, p, capacity, hc, hnew, hsessions⟩ :=
      step.exists_of_opening? (Option.mem_toList.mp ho)
    obtain ⟨d, hd, hpurpose, -⟩ := step.call_after hc
    have hst : d.stage = .registering s.sessions.length :=
      Option.some.inj ((stage?_eq_of_getElem? hd).symm.trans hnew)
    refine ⟨d, .new p.id s.nextEpoch capacity, hd, by simp [hsessions], by rw [hpurpose]; rfl, ?_,
      ?_⟩
    · exact hpurpose ▸ visits_of_run run hc
    · rw [hst]
      rfl

/-- The connection of a step is new, and its call has not had one. -/
theorem fresh (hop : Opened h s) (step : MoveStep setup s m t)
    (ho : Transition.opening? ⟨s, m, t⟩ = some (i, e)) :
    (∀ e', (i, e') ∉ openings h) ∧ ∀ j, (j, e) ∉ openings h := by
  obtain ⟨rfl, p, capacity, hc, -⟩ := step.exists_of_opening? ho
  constructor
  · intro e' ho'
    obtain ⟨c, x, hc', -, -, -, hdialed⟩ := hop.calls i e' ho'
    obtain rfl := Option.some.inj (hc.symm.trans hc')
    cases hdialed
  · intro j ho'
    obtain ⟨c, x, -, hx, -⟩ := hop.calls j _ ho'
    exact Nat.lt_irrefl _ (List.getElem?_eq_some_iff.mp hx).1

end Opened

/-- In every run, a connection is opened for one call, under its id. -/
theorem opened_of_run (run : Run setup busCapacity h s) : Opened h s := by
  induction run with
  | nil => exact ⟨fun _ _ ho => (by cases ho), fun _ _ _ ho => (by cases ho),
      fun _ _ _ ho => (by cases ho)⟩
  | @snoc h s t m run hm ih =>
    have step := run.moveStep hm
    refine ⟨fun i e ho => ih.calls_step run step ho, ?_, ?_⟩
    · intro i e e' ho ho'
      rw [openings_snoc, List.mem_append, Option.mem_toList] at ho ho'
      rcases ho with ho | ho <;> rcases ho' with ho' | ho'
      · exact ih.session i e e' ho ho'
      · exact absurd ho ((ih.fresh step ho').1 e)
      · exact absurd ho' ((ih.fresh step ho).1 e')
      · exact congrArg Prod.snd (Option.some.inj (ho.symm.trans ho'))
    · intro i j e ho ho'
      rw [openings_snoc, List.mem_append, Option.mem_toList] at ho ho'
      rcases ho with ho | ho <;> rcases ho' with ho' | ho'
      · exact ih.call i j e ho ho'
      · exact absurd ho ((ih.fresh step ho').2 i)
      · exact absurd ho' ((ih.fresh step ho).2 j)
      · exact congrArg Prod.fst (Option.some.inj (ho.symm.trans ho'))

/-- A call for which a connection was opened has asked for one. -/
theorem Opened.dials (hop : Opened h s) (ho : (i, e) ∈ openings h) (hc : s.calls[i]? = some c) :
    c.purpose.dials = true := by
  obtain ⟨c', x, hc', -, -, hdials, -⟩ := hop.calls i e ho
  exact Option.some.inj (hc.symm.trans hc') ▸ hdials

/-- In a managed run, a session that a call is opening was opened for that call. -/
theorem opening_of_opens (run : Run setup busCapacity h s) (hm : Managed h)
    (hc : s.calls[i]? = some c) (ho : c.stage.opens e = true) : (i, e) ∈ openings h := by
  induction run generalizing c with
  | nil => simp [Relay.empty] at hc
  | @snoc h s t m run hmove ih =>
    obtain ⟨hbefore, hmanual⟩ := managed_snoc.mp hm
    have step := run.moveStep hmove
    rcases step.opens_before hc ho with ⟨b, hb, -, hb'⟩ | ⟨hopener, rfl, capacity, heq⟩
    · exact mem_openings_snoc (ih hbefore hb hb')
    · cases m with
      | attach => cases hmanual
      | dialed j answer =>
        cases answer with
        | error => cases hopener
        | ok =>
          obtain rfl := Option.some.inj hopener
          rw [openings_snoc]
          exact List.mem_append_right _ (by simp [Transition.opening?, heq])
      | _ => cases hopener

/-- In a managed run, every connection was opened for a call. -/
theorem exists_opening_of_run (run : Run setup busCapacity h s) (hm : Managed h)
    (hx : s.sessions[e]? = some x) : ∃ i, (i, e) ∈ openings h := by
  induction run generalizing x with
  | nil => simp [Relay.empty] at hx
  | @snoc h s t m run hmove ih =>
    obtain ⟨hbefore, hmanual⟩ := managed_snoc.mp hm
    have step := run.moveStep hmove
    cases hs : s.sessions[e]? with
    | some x' =>
      obtain ⟨i, ho⟩ := ih hbefore hs
      exact ⟨i, mem_openings_snoc ho⟩
    | none =>
      have hle := List.getElem?_eq_none_iff.mp hs
      have hlt := (List.getElem?_eq_some_iff.mp hx).1
      have grown : s.sessions.length < t.sessions.length := Nat.lt_of_le_of_lt hle hlt
      cases step with
      | @connected j p capacity hc =>
        refine ⟨j, ?_⟩
        have heq : e = s.sessions.length := by
          refine Nat.le_antisymm (Nat.le_of_lt_succ (Nat.lt_of_lt_of_le hlt ?_)) hle
          simp
        rw [openings_snoc]
        exact List.mem_append_right _ (by simp [Transition.opening?, heq])
      | attach => cases hmanual
      | reader _ step => exact absurd (step.length_eq ▸ grown) (Nat.lt_irrefl _)
      | call _ step => exact absurd (step.length_eq ▸ grown) (Nat.lt_irrefl _)
      | brokerPut | brokerTake | brokerDrop | breakInput | letGo =>
        exact absurd (Nat.lt_of_lt_of_eq grown length_modifySession) (Nat.lt_irrefl _)
      | _ => exact absurd grown (Nat.lt_irrefl _)

/-! ### Calls that found a session -/

/-- A call that looks for its session is about a client. -/
theorem session?_of_looks (run : Run setup busCapacity h s) (hc : s.calls[i]? = some c)
    (hlooks : c.stage.looks = true) :
    c.stage = .finding ∧ c.purpose.session? = some c.purpose.id := by
  have hst : c.stage = .finding := by
    cases hst : c.stage <;> first | rfl | (rw [hst] at hlooks; cases hlooks)
  have hv := visits_of_run run hc
  exact ⟨hst, Stage.session?_of_usesId hv (by rw [hst]; rfl)⟩

/-- In every run, a call finds only sessions of its client. -/
theorem found_of_run (run : Run setup busCapacity h s) (hl : (i, some e) ∈ looks h) :
    ∃ c x, s.calls[i]? = some c ∧ s.sessions[e]? = some x ∧ c.purpose.session? = some x.id
      ∧ c.purpose.sends?.isSome = true ∧ c.stage.hasLooked = true := by
  induction run with
  | nil => cases hl
  | @snoc h s t m run hm ih =>
    have step := run.moveStep hm
    obtain ⟨d, hd, hlooked⟩ := (looked_of_run (.snoc run hm)).2 i (List.mem_map_of_mem hl)
    rw [looks, inquiries_snoc, List.mem_append, Option.mem_toList] at hl
    rcases hl with hl | hl
    · obtain ⟨c, x, hc, hx, hid, hsends, -⟩ := ih hl
      have hpurpose := step.purpose_eq hc hd
      obtain ⟨y, hy, hid'⟩ := step.session_id hx
      exact ⟨d, y, hd, hy, by rw [hpurpose, hid, hid'], hpurpose ▸ hsends, hlooked⟩
    · obtain ⟨rfl, c, hc, hlooks, hr, -⟩ := step.exists_of_inquiry? hl
      obtain ⟨hst, hsession⟩ := session?_of_looks run hc hlooks
      have hv := visits_of_run run hc
      rw [hst] at hv
      obtain ⟨x, hx, hid⟩ := owner?_eq_some_iff.mp ((census_of_run run).owner? hr.symm)
      have hpurpose := step.purpose_eq hc hd
      obtain ⟨y, hy, hid'⟩ := step.session_id hx
      refine ⟨d, y, hd, hy, ?_, hpurpose ▸ hv, hlooked⟩
      rw [hpurpose, hid', hid]
      exact hsession

/-- A call that looks for its session was started after every call that found the session. -/
theorem lt_of_looking (run : Run setup busCapacity h s) (hh : Handled h)
    (hc : s.calls[i]? = some c) (hst : c.stage.hasLooked = false)
    (hx : s.sessions[e]? = some x) (hid : c.purpose.session? = some x.id) (hj : j ∈ served e h) :
    j < i := by
  obtain ⟨d, y, hd, hy, hdid, -, hlooked⟩ := found_of_run run (mem_served.mp hj)
  obtain rfl := Option.some.inj (hx.symm.trans hy)
  have hle : j ≤ i := by
    refine (turns_of_run run hh).le_of_active hd hc hdid hid ?_
    intro o ho
    rw [ho] at hst
    cases hst
  refine Nat.lt_of_le_of_ne hle ?_
  rintro rfl
  obtain rfl := Option.some.inj (hc.symm.trans hd)
  exact Bool.false_ne_true (hst.symm.trans hlooked)

theorem served_snoc (h : History) (τ : Transition) :
    served e (h ++ [τ]) = served e h ++ (τ.inquiry? Stage.looks).toList.filterMap
      fun q => if q.2 = some e then some q.1 else none := by
  rw [served, looks, inquiries_snoc, List.filterMap_append, served]

/-- In a handled run, the calls that found a session were started in this order. -/
theorem served_sorted (run : Run setup busCapacity h s) (hh : Handled h) :
    (served e h).Pairwise (· < ·) := by
  induction run with
  | nil => exact .nil
  | @snoc h s t m run hm ih =>
    have hbefore := (handled_snoc.mp hh).1
    have step := run.moveStep hm
    rw [served_snoc]
    cases hq : Transition.inquiry? Stage.looks ⟨s, m, t⟩ with
    | none => simpa using ih hbefore
    | some q =>
      obtain ⟨i, r⟩ := q
      by_cases hr : r = some e
      · obtain ⟨rfl, c, hc, hlooks, hfound, -⟩ := step.exists_of_inquiry? hq
        obtain ⟨hst, hid⟩ := session?_of_looks run hc hlooks
        obtain ⟨x, hx, hxid⟩ :=
          owner?_eq_some_iff.mp ((census_of_run run).owner? (hfound.symm.trans hr))
        have hnew : (Option.some (i, r)).toList.filterMap
            (fun q => if q.2 = some e then some q.1 else none) = [i] := by simp [hr]
        rw [hnew, List.pairwise_append]
        refine ⟨ih hbefore, List.pairwise_singleton _ _, ?_⟩
        intro j hj k hk
        rw [List.mem_singleton.mp hk]
        exact lt_of_looking run hbefore hc (by rw [hst]; rfl) hx (hxid ▸ hid) hj
      · simpa [hr] using ih hbefore

/-- In a handled run, only calls that were started later find a session that was opened for a
call. -/
theorem opening_le_served (run : Run setup busCapacity h s) (hh : Handled h)
    (ho : (i, e) ∈ openings h) (hj : j ∈ served e h) : i ≤ j := by
  induction run with
  | nil => cases ho
  | @snoc h s t m run hm ih =>
    have hbefore := (handled_snoc.mp hh).1
    have step := run.moveStep hm
    have hj' := mem_served.mp hj
    rw [looks, inquiries_snoc, List.mem_append, Option.mem_toList] at hj'
    rw [openings_snoc, List.mem_append, Option.mem_toList] at ho
    rcases hj' with hj' | hj'
    · rcases ho with ho | ho
      · exact ih hbefore ho (mem_served.mpr hj')
      · -- a connection that is new has not been found
        obtain ⟨-, x, -, hx, -⟩ := found_of_run run hj'
        obtain ⟨rfl, -⟩ := step.exists_of_opening? ho
        exact absurd (List.getElem?_eq_some_iff.mp hx).1 (Nat.lt_irrefl _)
    · obtain ⟨rfl, d, hd, hlooks, hfound, -⟩ := step.exists_of_inquiry? hj'
      rcases ho with ho | ho
      · obtain ⟨hst, hdid⟩ := session?_of_looks run hd hlooks
        obtain ⟨c, x, hc, hx, hid, hdials, -⟩ := (opened_of_run run).calls i e ho
        have hxid : x.id = d.purpose.id :=
          (census_of_run run).id_eq_of_registered? hx hfound.symm
        have hcid : c.purpose.session? = some d.purpose.id := by
          rw [← hxid, hid]
          exact Purpose.session?_of_dials hdials
        exact (turns_of_run run hbefore).le_of_active hc hd hcid hdid (by rw [hst]; simp)
      · cases ho

end Relay

end StompRelay
