import StompRelay.Proofs.Handling.Connections
/-!
# Calls that have their ids to themselves

While a call for an event is under way, nothing is found under its id but what it has opened or
found itself. So a call that opens a connection finds that connection or none, and a call that finds
nothing changes nothing.

## Main definitions

* `Relay.Allows` — what may be found under the id of a call at a stage
* `Relay.Harmless` — a call has changed nothing but its own stage

## Main results

* `Relay.exclusive_of_run` — in every handled run nothing else is found under the id of a call
* `Relay.opening_of_found` — a call that has opened a connection finds no other
* `Relay.refused_of_run`, `Relay.missed_of_run` — calls that find their ids taken or nothing there
-/

namespace StompRelay.Relay

variable {setup : Setup} {busCapacity : Nat} {s t : Relay} {h : History} {m : Move} {e : Place}
  {i : CallId} {c : Call} {p : Purpose} {o : Outcome} {stage new : Stage} {msg : Message}
  {command : Command}

/-- What may be found under the id of a call that sends a message when it is at a stage. -/
def Allows (h : History) (i : CallId) (p : Purpose) (e : Place) : Stage → Prop
  | .dialing | .registering _ | .closing _ _ _ => False
  | .starting e' | .encoding e' | .asking e' _ | .waiting e' _ | .writing e' _ | .failing e' _ =>
    e = e'
  | .finding => p.dials = true → (i, e) ∈ openings h
  | .removing _ _ _ => (i, some e) ∈ looks h
  | _ => True

/-- A call opens only its own connection, and finds nothing under its id but what its stage
allows. -/
structure Exclusive (h : History) (s : Relay) (i : CallId) (p : Purpose) (stage : Stage) :
    Prop where
  opened : ∀ e, stage.opens e = true → (i, e) ∈ openings h
  found : ∀ e, s.registered? p.id = some e → Allows h i p e stage

theorem Allows.snoc {τ : Transition} (ha : Allows h i p e stage) :
    Allows (h ++ [τ]) i p e stage := by
  cases stage with
  | finding => exact fun hp => mem_openings_snoc (ha hp)
  | removing => exact mem_inquiries_snoc (q := (i, some e)) ha
  | _ => exact ha

namespace Exclusive

/-- A call that opens nothing at a stage that allows everything. -/
theorem done : Exclusive h s i p (.done o) := ⟨fun _ ho => (by cases ho), fun _ _ => trivial⟩

/-- Nothing is found under the id of the call. -/
theorem of_none (ho : ∀ e, stage.opens e = false) (hr : s.registered? p.id = none) :
    Exclusive h s i p stage where
  opened e he := absurd ((ho e).symm.trans he) Bool.false_ne_true
  found _ he := nomatch hr.symm.trans he

/-- The call goes on to conclude, and what is found under its id is what it has found. -/
theorem conclude (hp : p.sends? = some (msg, command))
    (hr : ∀ e, s.registered? p.id = some e → (i, some e) ∈ looks h) :
    Exclusive h s i p (p.conclude o) := by
  rcases p.conclude_of_sends o hp with heq | ⟨-, heq⟩
  · rw [heq]
    exact done
  · rw [heq]
    exact ⟨fun _ ho => (by cases ho), hr⟩

/-- A call goes on to use the session that it has found. -/
theorem keep (e' : Place) (hr : ∀ e, s.registered? p.id = some e → e = e')
    (ho : ∀ e, stage.opens e = false) (ha : ∀ e, Allows h i p e stage ↔ e = e') :
    Exclusive h s i p stage where
  opened e he := absurd ((ho e).symm.trans he) Bool.false_ne_true
  found e he := (ha e).mpr (hr e he)

end Exclusive

/-- A step of a call keeps what is found under its id to the call. -/
theorem CallStep.exclusive (run : Run setup busCapacity h s) (hc : s.calls[i]? = some c)
    (hp : c.purpose.sends? = some (msg, command)) (step : CallStep setup s i c t)
    (hnew : t.stage? i = some new) (hex : Exclusive h s i c.purpose c.stage) :
    Exclusive (h ++ [⟨s, .act (.call i), t⟩]) t i c.purpose new := by
  have moved {stage : Stage} (hcalls : t.calls = (s.setStage i stage).calls) : new = stage :=
    stage_eq_of_calls_eq (stage?_eq_of_getElem? hc) hnew hcalls
  have trail := trail_of_run run hc hp
  have none_of_filter (ht : t.registry = s.registry.filter (·.1 ≠ c.purpose.id)) :
      t.registered? c.purpose.id = none := by
    rw [registered?_of_filter ht, if_pos rfl]
  -- what is found under the id is the session at hand, which the call has found
  have found (e' : Place) (hst : ∀ e, Allows h i c.purpose e c.stage ↔ e = e')
      (ht : t.registry = s.registry) (e : Place) (he : t.registered? c.purpose.id = some e) :
      e = e' :=
    (hst e).mp (hex.found e ((registered?_of_eq ht).symm.trans he))
  cases step with
  | refuse | reject | pass =>
    rw [moved rfl]
    exact .done
  | dial _ hr =>
    rw [moved rfl]
    exact .of_none (fun _ => rfl) hr
  | @register e hst hr =>
    rw [moved rfl]
    constructor
    · intro e' he
      exact mem_openings_snoc (hex.opened e' (hst ▸ he))
    · intro e' he
      rw [registered?_of_append rfl, hr, if_pos rfl] at he
      exact (Option.some.inj he).symm
  | attach _ hattach =>
    rw [hattach] at hp
    cases hp
  | @start e hst =>
    rw [moved rfl]
    refine ⟨fun _ ho => (by cases ho), ?_⟩
    intro e' he _
    obtain rfl : e' = e := found e (fun _ => by rw [hst]; rfl) rfl e' he
    exact mem_openings_snoc (hex.opened e' (by simp [hst, Stage.opens]))
  | @find e hst hr =>
    rw [moved rfl]
    exact .keep e (fun e' he => Option.some.inj (he.symm.trans hr)) (fun _ => rfl)
      fun _ => Iff.rfl
  | miss hst hr =>
    rw [moved rfl]
    refine .conclude hp fun e he => ?_
    cases hr.symm.trans he
  | @encode e _ _ _ hst =>
    rw [moved rfl]
    exact .keep e (found e (fun _ => by rw [hst]; rfl) rfl) (fun _ => rfl) fun _ => Iff.rfl
  | @queue e _ hst | @turn e _ _ hst | @accept e _ _ hst | @push e _ _ _ _ hst =>
    rw [moved rfl]
    exact .keep e (found e (fun _ => by rw [hst]; rfl) rfl) (fun _ => rfl) fun _ => Iff.rfl
  | @bounce e _ _ hst | @cut e _ _ hst | @snap e _ _ hst =>
    rw [moved rfl, c.purpose.afterBreak_of_sends hp]
    exact .keep e (found e (fun _ => by rw [hst]; rfl) rfl) (fun _ => rfl) fun _ => Iff.rfl
  | @unencodable e _ _ _ hst | @finish e _ hst | @complete e _ _ _ hst =>
    rw [hst] at trail
    rw [moved rfl]
    refine .conclude hp ?_
    intro e' he
    obtain rfl : e' = e := found e (fun _ => by rw [hst]; rfl) rfl e' he
    exact mem_inquiries_snoc trail
  | condemn | remove =>
    rw [moved rfl]
    exact .of_none (fun _ => rfl) (none_of_filter rfl)
  | @late e _ hst hr =>
    rw [moved rfl]
    refine .conclude hp ?_
    intro e' he
    obtain rfl : e' = e := found e (fun _ => by rw [hst]; rfl) rfl e' he
    exact absurd he hr
  | close hst =>
    rw [moved rfl]
    refine ⟨fun _ ho => (by cases ho), ?_⟩
    intro e he
    have hfalse := hex.found e he
    rw [hst] at hfalse
    exact hfalse
  | @leave o final hst =>
    rw [moved rfl]
    have hnone (e : Place) (he : s.registered? c.purpose.id = some e) : False := by
      have hfalse := hex.found e he
      rw [hst] at hfalse
      exact hfalse
    cases final with
    | true => exact .done
    | false => exact .conclude hp fun e he => (hnone e he).elim
  | clear hst | join hst | refrain hst | post hst =>
    rw [hst] at trail
    exact trail.elim

/-- In a handled run, nothing is found under the id of a call that sends a message but what its
stage allows. -/
theorem exclusive_of_run (run : Run setup busCapacity h s) (hh : Handled h)
    (hc : s.calls[i]? = some c) (hp : c.purpose.sends? = some (msg, command)) :
    Exclusive h s i c.purpose c.stage := by
  induction run generalizing c with
  | nil => simp [Relay.empty] at hc
  | @snoc h s t m run hm ih =>
    have hbefore := (handled_snoc.mp hh).1
    have step := run.moveStep hm
    rcases step.call_before hc with ⟨b, hb, hpurpose, hstage⟩ | ⟨-, hstage⟩
    · rw [hpurpose] at hp ⊢
      have hex := ih hbefore hb hp
      by_cases hm' : m = .act (.call i)
      · subst hm'
        cases step with
        | call hb' own =>
          obtain rfl := Option.some.inj (hb'.symm.trans hb)
          exact own.exclusive run hb hp (stage?_eq_of_getElem? hc) hex
      · have hid := Purpose.session?_of_sends hp
        have others (hactive : ∀ o, b.stage ≠ .done o) (e : Place)
            (he : t.registered? b.purpose.id = some e) : Allows h i b.purpose e b.stage :=
          hex.found e
            ((turns_of_run run hbefore).registered?_of_ne run step hb hid hactive hm' he)
        rcases step.stage_of_ne hm' hb hc with heq | ⟨hdialing, ⟨o, ht⟩ | ⟨e, ht⟩⟩
        · rw [heq]
          refine ⟨fun e ho => mem_openings_snoc (hex.opened e ho), ?_⟩
          intro e he
          cases hst : b.stage with
          | done => trivial
          | _ => exact hst ▸ (others (by rw [hst]; simp) e he).snoc
        · exact ht ▸ .done
        · -- the call gets the connection that it has waited for
          have hopening := step.opening?_eq (hdialing ▸ stage?_eq_of_getElem? hb)
            (ht ▸ stage?_eq_of_getElem? hc)
          rw [ht]
          constructor
          · intro e' ho
            obtain rfl : e = e' := by simpa [Stage.opens] using ho
            rw [openings_snoc, hopening]
            exact List.mem_append_right _ (List.mem_singleton_self _)
          · intro e' he
            have hfalse := others (by rw [hdialing]; simp) e' he
            rw [hdialing] at hfalse
            exact hfalse
    · rw [hstage]
      cases hp' : c.purpose with
      | login => exact ⟨fun _ ho => (by cases ho), fun _ _ => trivial⟩
      | forward | logout =>
        exact ⟨fun _ ho => (by cases ho), fun _ _ hdials => (by cases hdials)⟩
      | _ =>
        rw [hp'] at hp
        cases hp

/-- In a handled run, a call for which a connection is opened finds no other. -/
theorem opening_of_found (run : Run setup busCapacity h s) (hh : Handled h)
    (hc : s.calls[i]? = some c) (hdials : c.purpose.dials = true) (hl : (i, some e) ∈ looks h) :
    (i, e) ∈ openings h := by
  induction run generalizing c with
  | nil => cases hl
  | @snoc h s t m run hm ih =>
    have hbefore := (handled_snoc.mp hh).1
    have step := run.moveStep hm
    rw [looks, inquiries_snoc, List.mem_append, Option.mem_toList] at hl
    rcases hl with hl | hl
    · obtain ⟨b, -, hb, -⟩ := found_of_run run hl
      have hpurpose := step.purpose_eq hb hc
      exact mem_openings_snoc (ih hbefore hb (hpurpose ▸ hdials) hl)
    · obtain ⟨rfl, b, hb, hlooks, hfound, -⟩ := step.exists_of_inquiry? hl
      have hpurpose := step.purpose_eq hb hc
      rw [hpurpose] at hdials
      obtain ⟨hst, -⟩ := session?_of_looks run hb hlooks
      obtain ⟨⟨msg, command⟩, hp⟩ := Purpose.exists_sends_of_dials hdials
      have ha := (exclusive_of_run run hbefore hb hp).found e hfound.symm
      rw [hst] at ha
      exact mem_openings_snoc (ha hdials)

/-- In every run, a call that has looked for its session sends a message. -/
theorem sends_of_look {r : Option Place} (run : Run setup busCapacity h s)
    (hc : s.calls[i]? = some c) (hl : (i, r) ∈ looks h) : ∃ q, c.purpose.sends? = some q := by
  induction run generalizing c with
  | nil => cases hl
  | @snoc h s t m run hm ih =>
    have step := run.moveStep hm
    rw [looks, inquiries_snoc, List.mem_append, Option.mem_toList] at hl
    rcases hl with hl | hl
    · obtain ⟨b, hb, -⟩ := (looked_of_run run).2 i (List.mem_map_of_mem hl)
      have hpurpose := step.purpose_eq hb hc
      exact hpurpose ▸ ih hb hl
    · obtain ⟨rfl, b, hb, hlooks, -⟩ := step.exists_of_inquiry? hl
      have hpurpose := step.purpose_eq hb hc
      have hv := visits_of_run run hb
      rw [(session?_of_looks run hb hlooks).1] at hv
      exact hpurpose ▸ Option.isSome_iff_exists.mp hv

/-! ### Calls that change nothing -/

/-- A call has changed no session and no entry, and has left the bus alone. -/
def Harmless (i : CallId) (h : History) : Prop :=
  ∀ τ ∈ h, τ.move = .act (.call i) → τ.after.sessions = τ.before.sessions
    ∧ τ.after.registry = τ.before.registry ∧ τ.after.bus = τ.before.bus

theorem Unmoved.harmless (hu : Unmoved i h) : Harmless i h :=
  fun τ hτ hmove => absurd hmove (hu τ hτ)

theorem Harmless.snoc {τ : Transition} (hh : Harmless i h)
    (hτ : τ.move = .act (.call i) → τ.after.sessions = τ.before.sessions
      ∧ τ.after.registry = τ.before.registry ∧ τ.after.bus = τ.before.bus) :
    Harmless i (h ++ [τ]) := by
  intro τ' hmem
  rcases List.mem_append.mp hmem with hmem | hmem
  · exact hh τ' hmem
  · exact List.mem_singleton.mp hmem ▸ hτ

/-- A stage at which a call that sends a message may start, and to which it does not come later. -/
def Stage.isFirst (p : Purpose) : Stage → Bool
  | .admitting => true
  | .finding => !p.dials
  | _ => false

/-- No arrow leads to such a stage. -/
theorem Stage.isFirst_of_next {codec : Codec} {p : Purpose} {old new : Stage}
    (hnext : Stage.Next codec p old new) (hp : p.sends? = some (msg, command))
    (hold : p.visits old = true) : Stage.isFirst p new = false := by
  cases hw : new.wrapsUp with
  | true => cases new <;> first | rfl | cases hw
  | false =>
    cases hnext.advance hw with
    | start =>
      -- of the calls that register a session, one that sends a message opens a connection
      cases p <;> simp_all [Purpose.visits, Purpose.registers, Purpose.sends?, Purpose.dials,
        Stage.isFirst]
    | _ => rfl

/-- In every run, a call at its first stage has not moved. -/
theorem unmoved_of_isFirst (run : Run setup busCapacity h s) (hc : s.calls[i]? = some c)
    (hp : c.purpose.sends? = some (msg, command))
    (hfirst : Stage.isFirst c.purpose c.stage = true) : Unmoved i h := by
  refine known_of_run (P := fun p => p.sends? = some (msg, command))
    (K := fun h p stage => Stage.isFirst p stage = true → Unmoved i h) ?_ ?_ ?_ ?_ run hc hp hfirst
  · exact fun _ _ _ _ hu _ => hu
  · exact fun h τ p stage hτ hk hfirst => (hk hfirst).snoc hτ
  · intro h p new hp _ hnext hfirst
    cases hnext <;> cases hfirst
  · intro h s t c new run hp hc step hnew _ hfirst
    obtain ⟨new', hnew', hnext, -⟩ := step.stage?_eq hc
    obtain rfl := Option.some.inj (hnew.symm.trans hnew')
    exact absurd hfirst (by simp [Stage.isFirst_of_next hnext hp (visits_of_run run hc)])

/-- A call that finds its id taken before it dials says so, and changes nothing. -/
theorem CallStep.refused (step : CallStep setup s i c t) (hc : s.calls[i]? = some c)
    (hst : c.stage = .admitting) (hr : s.registered? c.purpose.id = some e) :
    t.stage? i = some (.done (.failed (.sessionAlreadyExists c.purpose.id)))
      ∧ t.sessions = s.sessions ∧ t.registry = s.registry ∧ t.bus = s.bus := by
  cases step with
  | refuse => exact ⟨stage?_of_calls_eq (stage?_eq_of_getElem? hc) rfl, rfl, rfl, rfl⟩
  | dial _ hnone => exact nomatch hr.symm.trans hnone
  | reject hst' | register hst' | attach hst' | start hst' | find hst' | miss hst'
  | encode hst' | unencodable hst' | queue hst' | turn hst' | bounce hst' | cut hst'
  | accept hst' | finish hst' | snap hst' | push hst' | complete hst' | condemn hst'
  | late hst' | remove hst' | pass hst' | clear hst' | close hst' | leave hst' | join hst'
  | refrain hst' | post hst' => exact nomatch hst.symm.trans hst'

/-- A call that finds no session for its message goes on to say so, and changes nothing. -/
theorem CallStep.misses (step : CallStep setup s i c t) (hc : s.calls[i]? = some c)
    (hst : c.stage = .finding) (hr : s.registered? c.purpose.id = none) :
    t.stage? i = some (c.purpose.conclude (.failed (.sessionNotFound c.purpose.id)))
      ∧ t.sessions = s.sessions ∧ t.registry = s.registry ∧ t.bus = s.bus := by
  cases step with
  | miss => exact ⟨stage?_of_calls_eq (stage?_eq_of_getElem? hc) rfl, rfl, rfl, rfl⟩
  | find _ hsome => exact nomatch hr.symm.trans hsome
  | refuse hst' | dial hst' | reject hst' | register hst' | attach hst' | start hst'
  | encode hst' | unencodable hst' | queue hst' | turn hst' | bounce hst' | cut hst'
  | accept hst' | finish hst' | snap hst' | push hst' | complete hst' | condemn hst'
  | late hst' | remove hst' | pass hst' | clear hst' | close hst' | leave hst' | join hst'
  | refrain hst' | post hst' => exact nomatch hst.symm.trans hst'

/-- In every run, a call that found its id taken before it dialed says so. It has opened no
connection and changed nothing. -/
theorem refused_of_run (run : Run setup busCapacity h s) (hq : (i, some e) ∈ admissions h) :
    ∃ c, s.calls[i]? = some c ∧ c.stage = .done (.failed (.sessionAlreadyExists c.purpose.id))
      ∧ Harmless i h ∧ ∀ e', (i, e') ∉ openings h := by
  induction run with
  | nil => cases hq
  | @snoc h s t m run hm ih =>
    have step := run.moveStep hm
    rw [admissions, inquiries_snoc, List.mem_append, Option.mem_toList] at hq
    rcases hq with hq | hq
    · obtain ⟨c, hc, hst, hharmless, hopenings⟩ := ih hq
      refine ⟨c, step.done_after hc hst, hst, hharmless.snoc ?_, ?_⟩
      · rintro rfl
        cases step with
        | call hc' own =>
          obtain rfl := Option.some.inj (hc'.symm.trans hc)
          obtain ⟨new, -, hnext, -⟩ := own.stage?_eq hc
          rw [hst] at hnext
          cases hnext
      · intro e' ho
        rw [openings_snoc, List.mem_append, Option.mem_toList] at ho
        rcases ho with ho | ho
        · exact hopenings e' ho
        · obtain ⟨-, p, capacity, hc', -⟩ := step.exists_of_opening? ho
          obtain rfl := Option.some.inj (hc'.symm.trans hc)
          cases hst
    · obtain ⟨rfl, c, hc, hadmits, hfound, own⟩ := step.exists_of_inquiry? hq
      have hst : c.stage = .admitting := by
        cases hst : c.stage <;> first | rfl | (rw [hst] at hadmits; cases hadmits)
      have hv := visits_of_run run hc
      rw [hst] at hv
      obtain ⟨⟨msg, command⟩, hp⟩ := Purpose.exists_sends_of_dials hv
      have hunmoved := unmoved_of_isFirst run hc hp (by rw [hst]; rfl)
      obtain ⟨d, hd, hpurpose, -⟩ := step.call_after hc
      obtain ⟨hnew, hsame⟩ := own.refused hc hst hfound.symm
      rw [stage?_eq_of_getElem? hd, Option.some.injEq] at hnew
      refine ⟨d, hd, by rw [hnew, hpurpose], hunmoved.harmless.snoc fun _ => hsame, ?_⟩
      intro e' ho
      rw [openings_snoc, List.mem_append, Option.mem_toList] at ho
      rcases ho with ho | ho
      · obtain ⟨c', x, hc', -, -, -, hdialed⟩ := (opened_of_run run).calls i e' ho
        obtain rfl := Option.some.inj (hc.symm.trans hc')
        rw [hst] at hdialed
        cases hdialed
      · cases ho

/-- A call that has found no session finds none to end either. -/
theorem CallStep.missed {f : Failure} (run : Run setup busCapacity h s)
    (hex : Exclusive h s i c.purpose c.stage) (hc : s.calls[i]? = some c)
    (hl : (i, none) ∈ looks h) (hanswers : c.stage.answers (.failed f) = true)
    (hclosing : ∀ es o final, c.stage ≠ .closing es o final) (step : CallStep setup s i c t)
    (hnew : t.stage? i = some new) :
    new = .done (.failed f) ∧ t.sessions = s.sessions ∧ t.registry = s.registry
      ∧ t.bus = s.bus := by
  have moved {stage : Stage} (hcalls : t.calls = (s.setStage i stage).calls) : new = stage :=
    stage_eq_of_calls_eq (stage?_eq_of_getElem? hc) hnew hcalls
  cases step with
  | @remove e _ _ _ hst hr =>
    have ha := hex.found e hr
    rw [hst] at ha
    exact nomatch looks_unique run hl ha
  | @pass only found missed hst =>
    rw [hst] at hanswers
    obtain ⟨-, rfl⟩ : found = .failed f ∧ missed = .failed f := by
      simpa [Stage.answers] using hanswers
    exact ⟨moved rfl, rfl, rfl, rfl⟩
  | close hst | leave hst => exact absurd hst (hclosing _ _ _)
  | refuse hst | dial hst | reject hst | register hst | attach hst | start hst | find hst
  | miss hst | encode hst | unencodable hst | queue hst | turn hst | bounce hst | cut hst
  | accept hst | finish hst | snap hst | push hst | complete hst | condemn hst | late hst
  | clear hst | join hst | refrain hst | post hst =>
    rw [hst] at hanswers
    cases hanswers

/-- In a handled run, a call that opens no connection and finds no session says so, at once or when
it has looked for one to end, and changes nothing. -/
theorem missed_of_run (run : Run setup busCapacity h s) (hh : Handled h)
    (hc : s.calls[i]? = some c) (hdials : c.purpose.dials = false) (hl : (i, none) ∈ looks h) :
    c.stage.answers (.failed (.sessionNotFound c.purpose.id)) = true
      ∧ (∀ es o final, c.stage ≠ .closing es o final) ∧ Harmless i h := by
  induction run generalizing c with
  | nil => cases hl
  | @snoc h s t m run hm ih =>
    have hbefore := (handled_snoc.mp hh).1
    have step := run.moveStep hm
    have hl' := hl
    rw [looks, inquiries_snoc, List.mem_append, Option.mem_toList] at hl'
    rcases hl' with hl' | hl'
    · obtain ⟨b, hb, hlooked⟩ := (looked_of_run run).2 i (List.mem_map_of_mem hl')
      have hpurpose := step.purpose_eq hb hc
      obtain ⟨hanswers, hclosing, hharmless⟩ := ih hbefore hb (hpurpose ▸ hdials) hl'
      rw [hpurpose]
      by_cases hm' : m = .act (.call i)
      · subst hm'
        cases step with
        | call hb' own =>
          obtain rfl := Option.some.inj (hb'.symm.trans hb)
          obtain ⟨⟨msg, command⟩, hp⟩ := sends_of_look run hb hl'
          obtain ⟨hdone, hsame⟩ := own.missed run (exclusive_of_run run hbefore hb hp) hb hl'
            hanswers hclosing (stage?_eq_of_getElem? hc)
          rw [hdone]
          exact ⟨by simp [Stage.answers], by simp, hharmless.snoc fun _ => hsame⟩
      · have heq : c.stage = b.stage := by
          rcases step.stage_of_ne hm' hb hc with heq | ⟨hdialing, -⟩
          · exact heq
          · rw [hdialing] at hlooked
            cases hlooked
        rw [heq]
        exact ⟨hanswers, hclosing, hharmless.snoc fun hmove => absurd hmove hm'⟩
    · obtain ⟨rfl, b, hb, hlooks, hfound, own⟩ := step.exists_of_inquiry? hl'
      have hpurpose := step.purpose_eq hb hc
      obtain ⟨hst, -⟩ := session?_of_looks run hb hlooks
      have hv := visits_of_run run hb
      rw [hst] at hv
      obtain ⟨⟨msg, command⟩, hp⟩ := Option.isSome_iff_exists.mp hv
      rw [hpurpose] at hdials ⊢
      have hunmoved := unmoved_of_isFirst run hb hp (by simp [hst, Stage.isFirst, hdials])
      obtain ⟨hnew, hsame⟩ := own.misses hb hst hfound.symm
      rw [stage?_eq_of_getElem? hc, Option.some.injEq] at hnew
      rw [hnew]
      refine ⟨Stage.answers_conclude, ?_, hunmoved.harmless.snoc fun _ => hsame⟩
      intro es o final heq
      rcases b.purpose.conclude_of_sends _ hp with hconclude | ⟨-, hconclude⟩
      · cases heq.symm.trans hconclude
      · cases heq.symm.trans hconclude

end StompRelay.Relay
