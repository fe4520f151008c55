import StompRelay.Proofs.Handling.Launch
import StompRelay.Proofs.Handling.Routing
/-!
# Logins that fail

A login changes more and more until it has come to its end: it opens a connection, registers a
session over it, starts a reader and sends its message. If it fails because its id is taken, it has
changed nothing. If its message becomes no frame, it leaves the session that it has opened as it is.
In all other cases its id is free again, and the connection that it has opened comes to its end.

## Main definitions

* `Relay.GivenUp` — a session is closed, and its connection comes to its end
* `Relay.Aftermath` — what a login leaves behind when it fails

## Main results

* `Relay.launched_of_handled` — a login registers the session that it has opened, and starts its
  reader
* `Relay.givenUp_of_run` — a session that was opened and is not registered any more is given up
* `Relay.MoveStep.login_fails` — what is found under the id of a login as it fails
* `Relay.failed_login` — the whole
-/

namespace StompRelay

/-- Whether a login that fails like this leaves its id free. -/
def Failure.freesId : Failure → Bool
  | .sessionAlreadyExists _ | .conversion _ _ => false
  | _ => true

namespace Relay

variable {setup : Setup} {busCapacity : Nat} {s t : Relay} {h k : History} {m : Move} {e : Place}
  {i : CallId} {b c d : Call} {x y : Session} {o : Outcome} {f : Failure} {msg : Message}
  {command : Command}

/-! ### Sessions that are given up -/

/-- In a handled run, a call that registers a session finds its id free. -/
theorem eq_none_of_enrolment {r : Option Place} (run : Run setup busCapacity h s) (hh : Handled h)
    (hq : (i, r) ∈ enrolments h) : r = none := by
  induction run with
  | nil => cases hq
  | @snoc h s t m run hm ih =>
    have hbefore := (handled_snoc.mp hh).1
    rw [enrolments, inquiries_snoc, List.mem_append, Option.mem_toList] at hq
    rcases hq with hq | hq
    · exact ih hbefore hq
    · obtain ⟨-, c, hc, hregisters, rfl, -⟩ := (run.moveStep hm).exists_of_inquiry? hq
      have hst : ∃ e, c.stage = .registering e := by
        cases hst : c.stage <;> first | exact ⟨_, rfl⟩ | (rw [hst] at hregisters; cases hregisters)
      obtain ⟨e, hst⟩ := hst
      have hdials : c.purpose.dials = true :=
        ((opened_of_run run).dials (opening_of_opens run hbefore.managed hc (e := e)
          (by simp [hst, Stage.opens])) hc)
      obtain ⟨⟨msg, command⟩, hp⟩ := Purpose.exists_sends_of_dials hdials
      refine Option.eq_none_iff_forall_ne_some.mpr fun e' hr => ?_
      have hfalse := (exclusive_of_run run hbefore hc hp).found e' hr
      rw [hst] at hfalse
      exact hfalse

/-- In a handled run, whatever a call has opened it registers and starts the reader of. -/
theorem launched_of_handled (run : Run setup busCapacity h s) (hh : Handled h)
    (ho : (i, e) ∈ openings h) (hc : s.calls[i]? = some c) (hx : s.sessions[e]? = some x) :
    Launched h c e x := by
  refine (launched_of_run run hh.managed ho hc hx).resolve_right fun hdropped => ?_
  obtain ⟨e', htaken⟩ := hdropped.taken
  exact nomatch eq_none_of_enrolment run hh htaken

/-- Session `e` is closed, and its connection comes to its end: when nobody can move any more the
broker finds the end of the stream, unless the reader still waits with its last message. -/
def GivenUp (setup : Setup) (s : Relay) (e : Place) : Prop :=
  s.HasClosed e ∧ ∀ k t y, Path setup s k t → Handled k → t.Quiet setup →
    t.sessions[e]? = some y → (∀ m, y.reader ≠ .notifying m) → t.endedByRelay e = true

/-- In a handled run, a session that was opened for a call that has ended is in the register, or
given up. -/
theorem givenUp_of_run (run : Run setup busCapacity h s) (hh : Handled h)
    (ho : (i, e) ∈ openings h) (hc : s.calls[i]? = some c) (hdone : c.stage = .done o)
    (hr : s.registered? c.purpose.id ≠ some e) : GivenUp setup s e := by
  obtain ⟨b, x, hb, hx, -⟩ := (opened_of_run run).calls i e ho
  obtain rfl := Option.some.inj (hb.symm.trans hc)
  have hclosed : s.HasClosed e := by
    rcases launched_of_handled run hh ho hc hx with hst | ⟨hmem, -⟩
    · cases hdone.symm.trans hst
    · obtain ⟨x', hx', -, hopen⟩ := (chronicle_of_run run hh.orderly).created _ e hmem
      refine ⟨x', hx', ?_⟩
      by_contra hnot
      exact hr ((registered?_eq_some_iff (census_of_run run).ids).mpr
        (hopen (Bool.eq_false_iff.mpr hnot)))
  refine ⟨hclosed, ?_⟩
  intro k t y path hk quiet hy hn
  have run' := run.append path
  have hh' : Handled (h ++ k) := handled_append.mpr ⟨hh, hk⟩
  have ho' : (i, e) ∈ openings (h ++ k) := by
    rw [openings, List.filterMap_append]
    exact List.mem_append_left _ ho
  obtain ⟨y', hy', hclosed'⟩ := hclosed.path run path
  obtain rfl := Option.some.inj (hy.symm.trans hy')
  obtain ⟨d, hd, -, hdone'⟩ := path.call_after (P := fun stage => stage = .done o)
    (fun _ _ hold hnext => by subst hold; cases hnext) (numbered_of_run run) hc hdone
  have hstarted : y.reader.isStarted = true := by
    rcases launched_of_handled run' hh' ho' hd hy with hst | ⟨-, hst | hstarted⟩
    · cases hdone'.symm.trans hst
    · cases hdone'.symm.trans hst
    · exact hstarted
  have hfinished := quiet.finished hy hclosed' hstarted hn
  simp [endedByRelay, released, quiet.kept_eq_false run' hh'.managed hy hclosed', hy, hfinished,
    Reader.holdsInput]

/-! ### Logins that fail -/

/-- What a login that fails with a step of its own leaves under its id. -/
theorem CallStep.login_fails (run : Run setup busCapacity h s) (hb : s.calls[i]? = some b)
    (hp : b.purpose.sends? = some (msg, command)) (hdials : b.purpose.dials = true)
    (hex : Exclusive h s i b.purpose b.stage) (step : CallStep setup s i b t)
    (hnew : t.stage? i = some (.done (.failed f))) :
    (f = .sessionAlreadyExists b.purpose.id
        ∧ ∃ e, (i, some e) ∈ admissions (h ++ [⟨s, .act (.call i), t⟩]))
      ∨ (∃ e error, f = .conversion msg.session error ∧ b.stage = .encoding e
        ∧ setup.codec.encode msg command = .error error ∧ t.sessions = s.sessions
        ∧ t.registry = s.registry)
      ∨ f.freesId = true ∧ t.registered? b.purpose.id = none := by
  have trail := trail_of_run run hb hp
  have moved {stage : Stage} (hcalls : t.calls = (s.setStage i stage).calls) :
      .done (.failed f) = stage :=
    stage_eq_of_calls_eq (stage?_eq_of_getElem? hb) hnew hcalls
  have not_logout {m : Message} (hlogout : b.purpose = .logout m) : False := by
    rw [hlogout] at hdials
    cases hdials
  have concluded {o : Outcome} (hcalls : t.calls = (s.setStage i (b.purpose.conclude o)).calls) :
      .failed f = o := by
    have heq := moved hcalls
    rw [Purpose.conclude_of_dials hdials] at heq
    cases heq
    rfl
  cases step with
  | @refuse e hst hr =>
    cases moved rfl
    refine .inl ⟨rfl, e, ?_⟩
    rw [admissions, inquiries_snoc]
    exact List.mem_append_right _ (by simp [Transition.inquiry?, hb, hst, Stage.admits, hr])
  | reject hst hr =>
    have hfalse := hex.found _ hr
    rw [hst] at hfalse
    exact hfalse.elim
  | miss hst hr =>
    cases concluded rfl
    exact .inr (.inr ⟨rfl, hr⟩)
  | unencodable hst hm he =>
    cases hp.symm.trans hm
    cases concluded rfl
    exact .inr (.inl ⟨_, _, rfl, hst, he, rfl, rfl⟩)
  | late hst hr =>
    cases concluded rfl
    refine .inr (.inr ⟨rfl, Option.eq_none_iff_forall_ne_some.mpr fun e hr' => ?_⟩)
    -- only the session that the write was for could be there
    have ha := hex.found e hr'
    rw [hst] at ha
    exact hr (ha ▸ hr')
  | @leave o final hst =>
    rw [hst] at trail
    cases final with
    | true =>
      obtain ⟨⟨m, hlogout⟩, -⟩ := trail
      exact (not_logout hlogout).elim
    | false =>
      obtain ⟨e, f', -, rfl, -⟩ := trail
      cases concluded rfl
      refine .inr (.inr ⟨rfl, Option.eq_none_iff_forall_ne_some.mpr fun e hr => ?_⟩)
      have hfalse := hex.found e hr
      rw [hst] at hfalse
      exact hfalse
  | finish | complete => cases concluded rfl
  | bounce | cut | snap =>
    have heq := moved rfl
    rw [b.purpose.afterBreak_of_sends hp] at heq
    cases heq
  | pass hst =>
    rw [hst] at trail
    obtain ⟨⟨m, hlogout⟩, -⟩ := trail
    exact (not_logout hlogout).elim
  | clear hst | join hst | refrain hst | post hst =>
    rw [hst] at trail
    exact trail.elim
  | dial | register | attach | start | find | encode | queue | turn | accept | push | condemn
  | remove | close => cases moved rfl

/-- What a login that fails leaves under its id. -/
theorem MoveStep.login_fails (run : Run setup busCapacity h s) (hh : Handled h)
    (hb : s.calls[i]? = some b) (hp : b.purpose.sends? = some (msg, command))
    (hdials : b.purpose.dials = true) (hactive : ∀ o, b.stage ≠ .done o)
    (step : MoveStep setup s m t) (hnew : t.stage? i = some (.done (.failed f))) :
    (f = .sessionAlreadyExists b.purpose.id ∧ ∃ e, (i, some e) ∈ admissions (h ++ [⟨s, m, t⟩]))
      ∨ (∃ e error, f = .conversion msg.session error ∧ b.stage = .encoding e
        ∧ setup.codec.encode msg command = .error error ∧ t.sessions = s.sessions
        ∧ t.registry = s.registry)
      ∨ f.freesId = true ∧ t.registered? b.purpose.id = none := by
  have hex := exclusive_of_run run hh hb hp
  by_cases hm : m = .act (.call i)
  · subst hm
    cases step with
    | call hb' own =>
      obtain rfl := Option.some.inj (hb'.symm.trans hb)
      exact own.login_fails run hb hp hdials hex hnew
  · -- others end a login only by not opening a connection for it
    obtain ⟨c, hc, -, hstage⟩ := step.call_after hb
    have hst : c.stage = .done (.failed f) :=
      Option.some.inj ((stage?_eq_of_getElem? hc).symm.trans hnew)
    rcases step.stage_of_ne hm hb hc with heq | ⟨hdialing, -⟩
    · exact absurd (heq.symm.trans hst) (hactive _)
    · refine .inr (.inr ⟨?_, Option.eq_none_iff_forall_ne_some.mpr fun e hr => ?_⟩)
      · rw [hst, hdialing] at hstage
        rcases hstage with heq | hnext
        · cases heq
        · cases hnext
          rfl
      · have hfalse := hex.found e ((turns_of_run run hh).registered?_of_ne run step hb
          (Purpose.session?_of_sends hp) hactive hm hr)
        rw [hdialing] at hfalse
        exact hfalse

/-- In a handled run, nothing was written over the connection that a login has opened while it turns
its message into a frame. -/
theorem sent_eq_nil_of_run (run : Run setup busCapacity h s) (hh : Handled h)
    (hc : s.calls[i]? = some c) (hst : c.stage = .encoding e) (ho : (i, e) ∈ openings h)
    (hx : s.sessions[e]? = some x) : x.toBroker.sent = [] := by
  obtain ⟨hqueued, hw⟩ := (wired_of_run run e).2 x hx
  -- whoever queues has found the session after the login has opened it, and the login has not asked
  have hnone : queuedWrites (writes e h) = [] := by
    rw [List.eq_nil_iff_forall_not_mem]
    rintro ⟨j, frame⟩ hq
    obtain ⟨hserved, d, hd, -⟩ := sends_of_queued run hh hq
    obtain ⟨d', y, hd', hy, hdid, -⟩ := found_of_run run (mem_served.mp hserved)
    obtain rfl := Option.some.inj (hd.symm.trans hd')
    obtain rfl := Option.some.inj (hx.symm.trans hy)
    obtain ⟨c', y', hc', hy', hid, hdials, -⟩ := (opened_of_run run).calls i e ho
    obtain rfl := Option.some.inj (hc.symm.trans hc')
    obtain rfl := Option.some.inj (hx.symm.trans hy')
    have hcid : c.purpose.session? = some x.id := hid ▸ Purpose.session?_of_dials hdials
    have hij : i = j := Nat.le_antisymm (opening_le_served run hh ho hserved)
      ((turns_of_run run hh).le_of_active hd hc hdid hcid (by rw [hst]; simp))
    subst hij
    exact hqueued.not_queued (hst ▸ stage?_eq_of_getElem? hc) rfl frame hq
  exact hw.sent_eq_nil hnone

/-- What call `i`, a login with a message, leaves behind when it fails. -/
inductive Aftermath (setup : Setup) (h : History) (s : Relay) (i : CallId) (msg : Message) :
    Failure → Prop where
  /-- Its id is taken: it has opened no connection, and has changed nothing. -/
  | taken : (∀ e, (i, e) ∉ openings h) → Harmless i h →
    Aftermath setup h s i msg (.sessionAlreadyExists msg.session)
  /-- Its message becomes no frame: nothing was written over the connection that it has opened. Its
  session stays, unless somebody else has ended it. -/
  | unencodable {e : Place} {x : Session} {error : Error} : (i, e) ∈ openings h →
    s.sessions[e]? = some x → x.toBroker.sent = [] →
    setup.codec.encode msg (msg.command.getD .send) = .error error →
    (s.registered? msg.session = some e ∧ x.closed = false
      ∨ s.registered? msg.session = none ∧ GivenUp setup s e) →
    Aftermath setup h s i msg (.conversion msg.session error)
  /-- In all other cases its id is free, and what it has opened is given up. -/
  | undone {f : Failure} : f.freesId = true → s.registered? msg.session = none →
    (∀ e, (i, e) ∈ openings h → GivenUp setup s e) → Aftermath setup h s i msg f

/-- What a login leaves behind when it fails, while the events of its client are handled one at a
time.

If it is answered that its id is taken, it has opened no connection and has changed nothing. If its
message becomes no frame, the session that it has opened stays, although nothing was written over
its connection. In all other cases no session is registered under its id as it is answered, and the
connection that it has opened comes to its end. -/
theorem failed_login (run : Run setup busCapacity h s) (hm : s.move? setup m = some t)
    (hh : Handled (h ++ [⟨s, m, t⟩])) (hc : t.calls[i]? = some c) (hp : c.purpose = msg.purpose)
    (hlogin : msg.command.any Command.opensConnection = true) (hold : s.outcome? i = none)
    (hnew : t.outcome? i = some (.failed f)) :
    Aftermath setup (h ++ [⟨s, m, t⟩]) t i msg f := by
  have hbefore := (handled_snoc.mp hh).1
  have run' := run.snoc hm
  have step := run.moveStep hm
  have hid : c.purpose.id = msg.session := hp ▸ msg.id_purpose
  have hdone := (outcome?_eq_some_iff hc).mp hnew
  have hstage : t.stage? i = some (.done (.failed f)) := hdone ▸ stage?_eq_of_getElem? hc
  rcases step.call_before hc with ⟨b, hb, hpurpose, -⟩ | ⟨-, hstart⟩
  · have hactive (o : Outcome) : b.stage ≠ .done o := by
      intro hst
      exact nomatch hold.symm.trans ((outcome?_eq_some_iff hb).mpr hst)
    rw [hpurpose] at hp hid
    have hsends := hp ▸ msg.sends?_purpose
    have hdials : b.purpose.dials = true := by rw [hp, Message.dials_purpose, hlogin]
    rcases step.login_fails run hbefore hb hsends hdials hactive hstage with
      ⟨rfl, e, hq⟩ | ⟨e, error, rfl, hst, hencode, hsessions, hregistry⟩ | ⟨hfrees, hnone⟩
    · obtain ⟨-, -, -, hharmless, hopenings⟩ := refused_of_run run' hq
      exact hid ▸ .taken hopenings hharmless
    · have trail := trail_of_run run hb hsends
      rw [hst] at trail
      have ho := opening_of_found run hbefore hb hdials trail
      obtain ⟨-, x, -, hx, -⟩ := (opened_of_run run).calls i e ho
      have hx' : t.sessions[e]? = some x := hsessions ▸ hx
      have ho' : (i, e) ∈ openings (h ++ [⟨s, m, t⟩]) := mem_openings_snoc ho
      refine .unencodable ho' hx' (sent_eq_nil_of_run run hbefore hb hst ho hx) hencode ?_
      cases hr : t.registered? msg.session with
      | none =>
        refine .inr ⟨rfl, givenUp_of_run run' hh ho' hc hdone fun hr' => ?_⟩
        rw [hpurpose, hid, hr] at hr'
        cases hr'
      | some e' =>
        have hfound := (exclusive_of_run run hbefore hb hsends).found e'
          (by rw [hid, ← registered?_of_eq hregistry, hr])
        rw [hst] at hfound
        obtain rfl : e' = e := hfound
        have hopen := (enrolled_of_run run' hh.orderly).of_mem hx' (mem_registry_of_registered? hr)
        exact .inl ⟨rfl, hopen.2.1⟩
    · refine .undone hfrees (hid ▸ hnone) fun e ho => ?_
      exact givenUp_of_run run' hh ho hc hdone fun hr => by
        rw [hpurpose, hnone] at hr
        cases hr
  · -- a login does not start with its end
    rw [hstart] at hdone
    cases hp' : c.purpose <;> rw [hp'] at hdone <;> cases hdone

/-- A login is written over a connection that the broker drops meanwhile. -/
def droppedLogin : List Move :=
  [.start blankLogin.purpose, .act (.call 0), .dialed 0 (.ok 64), .act (.call 0), .act (.call 0),
    .act (.call 0), .act (.call 0), .act (.call 0), .act (.call 0), .act (.call 0), .brokerDrop 0,
    .act (.call 0), .act (.call 0), .act (.call 0)]

/-- Its id is free, and the session that it has opened is given up. -/
theorem failed_login_of_dropped :
    ∃ h s t, Run ⟨.standard, 16, "broker"⟩ 4 h s
      ∧ s.move? ⟨.standard, 16, "broker"⟩ (.act (.call 0)) = some t
      ∧ t.outcome? 0 = some (.failed (.socketIo "a" .brokenPipe))
      ∧ t.registered? "a" = none ∧ GivenUp ⟨.standard, 16, "broker"⟩ t 0 := by
  obtain ⟨h, s, t, c, run, hm, hh, hc, hp, hold, hnew, ho⟩ :
      ∃ h s t c, Run ⟨.standard, 16, "broker"⟩ 4 h s
        ∧ s.move? ⟨.standard, 16, "broker"⟩ (.act (.call 0)) = some t
        ∧ Handled (h ++ [⟨s, .act (.call 0), t⟩]) ∧ t.calls[0]? = some c
        ∧ c.purpose = blankLogin.purpose ∧ s.outcome? 0 = none
        ∧ t.outcome? 0 = some (.failed (.socketIo "a" .brokenPipe))
        ∧ (0, 0) ∈ openings (h ++ [⟨s, .act (.call 0), t⟩]) :=
    ⟨_, _, _, _, path_of_trace? droppedLogin rfl, rfl, handled_snoc.mpr ⟨rfl, rfl⟩, rfl, rfl, rfl,
      rfl, .head _⟩
  cases failed_login run hm hh hc hp rfl hold hnew with
  | undone _ hnone hgiven => exact ⟨h, s, t, run, hm, hnew, hnone, hgiven 0 ho⟩

/-- A login with a byte in a header that no frame may have. -/
def nulLogin : Message := ⟨"a", some .connect, [⟨"host", "a\x00b"⟩], .bytes []⟩

/-- A login whose message becomes no frame, up to the step in which that is found out. -/
def unencodableLogin : List Move :=
  [.start nulLogin.purpose, .act (.call 0), .dialed 0 (.ok 64), .act (.call 0), .act (.call 0),
    .act (.call 0)]

/-- A login that fails because its message becomes no frame leaves its session under its id, over a
connection that stays open and has got nothing. The next login of the client finds the id taken. -/
theorem unencodable_login_keeps_session :
    ∃ h s t, Run ⟨.standard, 16, "broker"⟩ 4 h s
      ∧ s.move? ⟨.standard, 16, "broker"⟩ (.act (.call 0)) = some t
      ∧ Handled (h ++ [⟨s, .act (.call 0), t⟩])
      ∧ (∃ c, t.calls[0]? = some c ∧ c.purpose = nulLogin.purpose) ∧ s.outcome? 0 = none
      ∧ t.outcome? 0 = some (.failed (.conversion "a" (.frame (.nulInHeader "host"))))
      ∧ t.registered? "a" = some 0 ∧ t.endedByRelay 0 = false
      ∧ (∃ x, t.sessions[0]? = some x ∧ x.closed = false ∧ x.toBroker.sent = [])
      ∧ ∃ k u, Path ⟨.standard, 16, "broker"⟩ t k u ∧ Handled k
        ∧ u.outcome? 1 = some (.failed (.sessionAlreadyExists "a")) :=
  ⟨_, _, _, path_of_trace? unencodableLogin rfl, rfl, handled_snoc.mpr ⟨rfl, rfl⟩,
    ⟨_, rfl, rfl⟩, rfl, rfl, rfl, rfl, ⟨_, rfl, rfl, rfl⟩,
    _, _, path_of_trace? [.start blankLogin.purpose, .act (.call 1)] rfl, rfl, rfl⟩

end Relay

end StompRelay
