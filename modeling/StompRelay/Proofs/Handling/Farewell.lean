import StompRelay.Proofs.Delivery.Order
import StompRelay.Proofs.Handling.Login
import StompRelay.Proofs.Isolation.Ending
/-!
# Clients that end their sessions

A client ends its session by logging out, or by going. When that has been handled, nothing is
registered under its id, and every connection that was ever opened for it is given up. Its readers
put no frame on the bus from then on. A reader that had come to the end of its stream before and
waits for room on the bus does not give its last message up, though: it posts it whenever there is
room, even when the client has long logged in again.

## Main definitions

* `Event.isFarewell`, `Purpose.isFarewell` — a client ends its session with such an event or call

## Main results

* `Relay.registered?_eq_none_of_closing` — whoever has ended a session finds none under its id
* `Relay.MoveStep.farewell` — what is left when a client has ended its session
* `Relay.posted_after_farewell` — what its readers still post
* `Relay.late_notice_for_newer_session` — a last message that comes too late
-/

namespace StompRelay

/-- Whether a client ends its session with an event: it logs out, or has gone. -/
def Event.isFarewell : Event → Bool
  | .message m => m.command = some .disconnect
  | .closed _ => true

namespace Purpose

/-- Whether a client ends its session with a call. -/
def isFarewell : Purpose → Bool
  | logout _ | depart _ => true
  | _ => false

variable {p : Purpose} {e : Place} {es : List Place} {o o' : Outcome} {f : WriteFault}
  {final : Bool}

theorem isFarewell_iff : p.isFarewell = true ↔ (∃ m, p = .logout m) ∨ ∃ id, p = .depart id := by
  cases p <;> simp [isFarewell]

theorem isFarewell_of_event {event : Event} (he : event.isFarewell = true) :
    event.purpose.isFarewell = true := by
  cases event with
  | closed session => rfl
  | message m =>
    have hm : m.command = some .disconnect := of_decide_eq_true he
    simp [Event.purpose, Message.purpose, hm, Command.opensConnection, isFarewell]

theorem session?_of_isFarewell (hp : p.isFarewell = true) : p.session? = some p.id := by
  rcases isFarewell_iff.mp hp with ⟨m, rfl⟩ | ⟨id, rfl⟩ <;> rfl

/-- A client that ends its session asks for nothing else meanwhile. -/
theorem only_of_isFarewell (hp : p.isFarewell = true) : p.dials = false ∧ p.registers = false
    ∧ p.writesRaw = false ∧ p.delivers = false ∧ p.clears = false := by
  rcases isFarewell_iff.mp hp with ⟨m, rfl⟩ | ⟨id, rfl⟩ <;> exact ⟨rfl, rfl, rfl, rfl, rfl⟩

theorem conclude_ne_closing : p.conclude o ≠ .closing es o' final := by
  cases p <;> simp [conclude]

theorem afterBreak_ne_closing : p.afterBreak e f ≠ .closing es o final := by
  cases p <;> simp [afterBreak]

theorem afterBreak_ne_done (hp : p.isFarewell = true) : p.afterBreak e f ≠ .done o := by
  rcases isFarewell_iff.mp hp with ⟨m, rfl⟩ | ⟨id, rfl⟩ <;> simp [afterBreak]

end Purpose

namespace Relay

variable {setup : Setup} {busCapacity : Nat} {s t u : Relay} {h k : History} {m : Move} {e : Place}
  {i : CallId} {b c : Call} {x : Session} {id : SessionId} {o : Outcome} {es : List Place}
  {event : Event}

/-! ### What is left -/

/-- A call with which a client ends its session does not mind which one it is. -/
theorem only_eq_none_of_run {only : Option Place} {found missed : Outcome}
    (run : Run setup busCapacity h s) (hc : s.calls[i]? = some c)
    (hp : c.purpose.isFarewell = true) (hst : c.stage = .removing only found missed) :
    only = none := by
  refine stage_of_run (P := fun p stage => p.isFarewell = true →
    ∀ only found missed, stage = .removing only found missed → only = none) ?_ ?_ run hc hp
    only found missed hst
  · intro p n hp only found missed hst
    rcases Purpose.isFarewell_iff.mp hp with ⟨m, rfl⟩ | ⟨id, rfl⟩ <;> cases hst
    rfl
  · intro p old new hold hnext hp only found missed hst
    have concluded {o : Outcome} (heq : p.conclude o = .removing only found missed) :
        only = none := by
      rcases Purpose.isFarewell_iff.mp hp with ⟨m, rfl⟩ | ⟨id, rfl⟩ <;> cases heq
      rfl
    cases hnext with
    | miss | unencodable | finish | late => exact concluded hst
    | bounce | «break» =>
      rcases Purpose.isFarewell_iff.mp hp with ⟨m, rfl⟩ | ⟨id, rfl⟩ <;> cases hst
    | @leave o final =>
      cases final with
      | false => exact concluded hst
      | true => cases hst
    | _ => cases hst

/-- A step with which a call comes to shut the session that it has ended under its id, or goes on
to, leaves nothing there. -/
theorem CallStep.registered?_eq_none (hb : s.calls[i]? = some b) (step : CallStep setup s i b t)
    (hv : b.purpose.visits b.stage = true) (hp : b.purpose.isFarewell = true)
    (hnew : t.stage? i = some (.closing es o true))
    (hbefore : ∀ es, b.stage = .closing es o true → s.registered? b.purpose.id = none) :
    t.registered? b.purpose.id = none := by
  have moved {stage : Stage} (hcalls : t.calls = (s.setStage i stage).calls) :
      stage = .closing es o true :=
    (stage_eq_of_calls_eq (stage?_eq_of_getElem? hb) hnew hcalls).symm
  cases step with
  | remove => exact (registered?_of_filter rfl).trans (if_pos rfl)
  | close hst =>
    cases moved rfl
    exact (registered?_of_eq rfl).trans (hbefore _ hst)
  | clear hst =>
    rw [hst] at hv
    simp [Purpose.visits, Purpose.only_of_isFarewell hp] at hv
  | miss | unencodable | finish | late | complete =>
    exact absurd (moved rfl) Purpose.conclude_ne_closing
  | bounce | cut | snap => exact absurd (moved rfl) Purpose.afterBreak_ne_closing
  | @leave o' final =>
    cases final with
    | false => exact absurd (moved rfl) Purpose.conclude_ne_closing
    | true => cases moved rfl
  | _ => cases moved rfl

/-- In a handled run, a client that has ended its session, and still shuts it, has none under its
id. -/
theorem registered?_eq_none_of_closing (run : Run setup busCapacity h s) (hh : Handled h)
    (hc : s.calls[i]? = some c) (hp : c.purpose.isFarewell = true)
    (hst : c.stage = .closing es o true) : s.registered? c.purpose.id = none := by
  induction run generalizing c es with
  | nil => simp [Relay.empty] at hc
  | @snoc h s t m run hm ih =>
    have hbefore := (handled_snoc.mp hh).1
    have step := run.moveStep hm
    rcases step.call_before hc with ⟨b, hb, hpurpose, -⟩ | ⟨-, hstart⟩
    · rw [hpurpose] at hp ⊢
      by_cases hm' : m = .act (.call i)
      · subst hm'
        cases step with
        | call hb' own =>
          obtain rfl := Option.some.inj (hb'.symm.trans hb)
          exact own.registered?_eq_none hb (visits_of_run run hb) hp
            (hst ▸ stage?_eq_of_getElem? hc) fun es hst' => ih hbefore hb hp hst'
      · -- while the call is under way nobody else registers its id
        have hst' : b.stage = .closing es o true := by
          rcases step.stage_of_ne hm' hb hc with heq | ⟨-, ⟨o', hd⟩ | ⟨e, hd⟩⟩
          · exact heq.symm.trans hst
          · cases hd.symm.trans hst
          · cases hd.symm.trans hst
        have hnone := ih hbefore hb hp hst'
        cases hr : t.registered? b.purpose.id with
        | none => rfl
        | some e =>
          have hfound := (turns_of_run run hbefore).registered?_of_ne run step hb
            (Purpose.session?_of_isFarewell hp) (by rw [hst']; simp) hm' hr
          cases hfound.symm.trans hnone
    · rw [hstart] at hst
      rcases Purpose.isFarewell_iff.mp hp with ⟨m, hm⟩ | ⟨id, hm⟩ <;> rw [hm] at hst <;> cases hst

/-- With its last step a call with which a client ends its session leaves nothing under its id. -/
theorem CallStep.farewell (run : Run setup busCapacity h s) (hh : Handled h)
    (hb : s.calls[i]? = some b) (step : CallStep setup s i b t)
    (hp : b.purpose.isFarewell = true) (hdone : t.stage? i = some (.done o)) :
    t.registered? b.purpose.id = none := by
  have hv := visits_of_run run hb
  obtain ⟨hdials, hregisters, hraw, hdelivers, hclears⟩ := Purpose.only_of_isFarewell hp
  have moved {stage : Stage} (hcalls : t.calls = (s.setStage i stage).calls) : stage = .done o :=
    (stage_eq_of_calls_eq (stage?_eq_of_getElem? hb) hdone hcalls).symm
  -- a message to log out is not the last thing that its call does
  have sending {stage : Stage} {o' : Outcome} (hst : b.stage = stage)
      (hsends : b.purpose.visits stage = true → b.purpose.sends?.isSome = true)
      (hcalls : t.calls = (s.setStage i (b.purpose.conclude o')).calls) : False := by
    have hsome := hsends (hst ▸ hv)
    have hdone' := moved hcalls
    rcases Purpose.isFarewell_iff.mp hp with ⟨m, hm⟩ | ⟨id, hm⟩
    · rw [hm] at hdone'
      cases hdone'
    · rw [hm] at hsome
      cases hsome
  cases step with
  | pass hst hnone =>
    obtain rfl := only_eq_none_of_run run hb hp hst
    cases hr : s.registered? b.purpose.id with
    | none => exact (registered?_of_eq rfl).trans hr
    | some e => exact nomatch hnone e hr
  | @leave o' final hst =>
    cases final with
    | true =>
      have hnone := registered?_eq_none_of_closing run hh hb hp hst
      exact (registered?_of_eq rfl).trans hnone
    | false => exact (sending hst (fun h => h) rfl).elim
  | miss hst | unencodable hst | late hst => exact (sending hst (fun h => h) rfl).elim
  | finish hst | complete hst =>
    exact (sending hst (fun h => by simpa [Purpose.visits, hraw] using h) rfl).elim
  | bounce | cut | snap => exact absurd (moved rfl) (Purpose.afterBreak_ne_done hp)
  | refuse hst | reject hst | attach hst | refrain hst | post hst | clear hst =>
    rw [hst] at hv
    simp [Purpose.visits, hdials, hregisters, hdelivers, hclears] at hv
  | _ => cases moved rfl

/-- A call with which a client ends its session comes to its end with a step of its own. -/
theorem MoveStep.ends_own (run : Run setup busCapacity h s) (step : MoveStep setup s m t)
    (hc : t.calls[i]? = some c) (hp : c.purpose.isFarewell = true) (hdone : c.stage = .done o)
    (hold : s.outcome? i = none) :
    m = .act (.call i) ∧ ∃ b, s.calls[i]? = some b ∧ c.purpose = b.purpose
      ∧ (∀ o, b.stage ≠ .done o) ∧ CallStep setup s i b t := by
  rcases step.call_before hc with ⟨b, hb, hpurpose, -⟩ | ⟨-, hstart⟩
  · have hactive (o : Outcome) : b.stage ≠ .done o := fun hst =>
      nomatch hold.symm.trans ((outcome?_eq_some_iff hb).mpr hst)
    have hm : m = .act (.call i) := by
      by_contra hne
      rcases step.stage_of_ne hne hb hc with heq | ⟨hst, -⟩
      · exact hactive o (heq.symm.trans hdone)
      · have hv := visits_of_run run hb
        rw [hst, ← hpurpose] at hv
        exact Bool.false_ne_true ((Purpose.only_of_isFarewell hp).1.symm.trans hv)
    refine ⟨hm, b, hb, hpurpose, hactive, ?_⟩
    subst hm
    cases step with
    | call hb' own =>
      obtain rfl := Option.some.inj (hb'.symm.trans hb)
      exact own
  · rw [hstart] at hdone
    rcases Purpose.isFarewell_iff.mp hp with ⟨m, hm⟩ | ⟨id, hm⟩ <;> rw [hm] at hdone <;> cases hdone

/-! ### What is still posted -/

/-- When a client has ended its session, as the events of each client are handled one at a time,
nothing is registered under its id, and every session that was ever opened for it is given up.
Whatever happens from then on, also when the client has logged in again, the readers of those
sessions post no frame. Nor do they post a notice, except for one with which a reader waited for
room on the bus already, because it had come to the end of its stream before. -/
theorem posted_after_farewell (run : Run setup busCapacity h s) (hm : s.move? setup m = some t)
    (hh : Handled (h ++ [⟨s, m, t⟩])) (hc : t.calls[i]? = some c) (hp : c.purpose = event.purpose)
    (hfarewell : event.isFarewell = true) (hold : s.outcome? i = none)
    (hnew : t.outcome? i = some o) :
    t.registered? event.session = none
      ∧ ∀ e x, t.sessions[e]? = some x → x.id = event.session → GivenUp setup t e
        ∧ ∀ k u, Path setup t k u → postedBy (.reader e) k = []
          ∨ ∃ exit text, exits e (h ++ [⟨s, m, t⟩]) = [exit] ∧ exit.byBroker = true
            ∧ exit.text? setup.maxFrameBytes x.id = some text
            ∧ x.reader = .notifying ⟨x.id, some .error, [⟨"message", text⟩], .empty⟩
            ∧ postedBy (.reader e) k = [⟨x.id, some .error, [⟨"message", text⟩], .empty⟩] := by
  have hbefore := (handled_snoc.mp hh).1
  have run' := run.snoc hm
  have step := run.moveStep hm
  have hdone := (outcome?_eq_some_iff hc).mp hnew
  have hp' : c.purpose.isFarewell = true := hp ▸ Purpose.isFarewell_of_event hfarewell
  have hid : c.purpose.id = event.session := by
    rw [hp]
    cases event with
    | message msg => exact msg.id_purpose
    | closed session => rfl
  obtain ⟨rfl, b, hb, hpurpose, hactive, own⟩ := step.ends_own run hc hp' hdone hold
  have hnone : t.registered? event.session = none := by
    rw [hpurpose] at hp' hid
    exact hid ▸ own.farewell run hbefore hb hp' (hdone ▸ stage?_eq_of_getElem? hc)
  refine ⟨hnone, ?_⟩
  intro e x hx hxid
  have hgiven : GivenUp setup t e := by
    obtain ⟨j, ho⟩ := exists_opening_of_run run' hh.managed hx
    have ho' : (j, e) ∈ openings h := by simpa [openings_snoc, Transition.opening?] using ho
    obtain ⟨d, y, hd, hy, hyid, hdials, -⟩ := (opened_of_run run).calls j e ho'
    obtain ⟨z, hz, hzid⟩ := step.session_id hy
    obtain rfl := Option.some.inj (hx.symm.trans hz)
    have hdid : d.purpose.id = b.purpose.id := by
      rw [← hyid, ← hzid, hxid, ← hid, hpurpose]
    have hdsession : d.purpose.session? = some b.purpose.id :=
      hdid ▸ Purpose.session?_of_dials hdials
    rw [hpurpose] at hp'
    have hbsession := Purpose.session?_of_isFarewell hp'
    -- the call that the session was opened for came first, and has ended
    have turns := turns_of_run run hbefore
    have hle : j ≤ i := turns.le_of_active hd hb hdsession hbsession hactive
    have hne : j ≠ i := by
      rintro rfl
      obtain rfl := Option.some.inj (hd.symm.trans hb)
      exact Bool.false_ne_true ((Purpose.only_of_isFarewell hp').1.symm.trans hdials)
    obtain ⟨o', hdone'⟩ :=
      turns.ended j i d b _ (Nat.lt_of_le_of_ne hle hne) hd hb hdsession hbsession
    refine givenUp_of_run run' hh ho (step.done_after hd hdone') hdone' ?_
    rw [hdid, ← hpurpose, hid, hnone]
    simp
  refine ⟨hgiven, ?_⟩
  intro k u path
  obtain ⟨y, hy, hclosed⟩ := hgiven.1
  obtain rfl := Option.some.inj (hx.symm.trans hy)
  rcases posted_after_closed run' hx hclosed path with hnothing | ⟨text, hr, hposted⟩
  · exact .inl hnothing
  · obtain ⟨exit, text', heq, hexits, htext, -⟩ :=
      ((progress_of_run run' e).2 x hx).of_notifying hr
    obtain rfl : text = text' := by simpa [Message.notice] using heq
    refine .inr ⟨exit, text, hexits, ?_, htext, hr, hposted⟩
    cases exit <;> first | rfl | cases htext

/-- The bus has room for one message, and client `b` gets it when its broker goes. Then client `a`
logs in, its broker goes, and then it goes, too: up to the step with which that has been handled. -/
def fullBus : List Move :=
  [.start (Event.message ⟨"b", some .connect, [], .bytes []⟩).purpose, .act (.call 0),
    .dialed 0 (.ok 64), .act (.call 0), .act (.call 0), .brokerDrop 0, .act (.reader 0),
    .act (.reader 0), .start blankLogin.purpose, .act (.call 1), .dialed 1 (.ok 64)]
    ++ List.replicate 8 (.act (.call 1))
    ++ [.brokerDrop 1, .act (.reader 1), .start (.depart "a"), .act (.call 2), .act (.call 2)]

/-- Client `a` logs in again. The message for `b` is received, so that the bus has room for another
one. -/
def secondLogin : List Move :=
  [.start blankLogin.purpose, .act (.call 3), .dialed 3 (.ok 64), .act (.call 3), .receive,
    .act (.reader 1)]

/-- The session that the client has ended is given up, and nothing but the notice with which its
reader waits will ever be posted for it. -/
theorem posted_after_farewell_of_full_bus :
    ∃ h s t, Run ⟨.standard, 16, "broker"⟩ 1 h s
      ∧ s.move? ⟨.standard, 16, "broker"⟩ (.act (.call 2)) = some t
      ∧ t.registered? "a" = none
      ∧ GivenUp ⟨.standard, 16, "broker"⟩ t 1
      ∧ ∀ k u, Path ⟨.standard, 16, "broker"⟩ t k u → postedBy (.reader 1) k = []
        ∨ postedBy (.reader 1) k
          = [⟨"a", some .error, [⟨"message", "Lost connection"⟩], .empty⟩] := by
  obtain ⟨h, s, t, c, x, run, hm, hh, hc, hp, hold, hnew, hx, hid, hr⟩ :
      ∃ h s t c x, Run ⟨.standard, 16, "broker"⟩ 1 h s
        ∧ s.move? ⟨.standard, 16, "broker"⟩ (.act (.call 2)) = some t
        ∧ Handled (h ++ [⟨s, .act (.call 2), t⟩]) ∧ t.calls[2]? = some c
        ∧ c.purpose = (Event.closed "a").purpose ∧ s.outcome? 2 = none
        ∧ t.outcome? 2 = some .ok ∧ t.sessions[1]? = some x
        ∧ x.id = "a" ∧ x.reader
          = .notifying ⟨"a", some .error, [⟨"message", "Lost connection"⟩], .empty⟩ :=
    ⟨_, _, _, _, _, path_of_trace? fullBus rfl, rfl, handled_snoc.mpr ⟨rfl, rfl⟩, rfl, rfl, rfl,
      rfl, rfl, rfl, rfl⟩
  obtain ⟨hnone, hall⟩ := posted_after_farewell run hm hh hc hp rfl hold hnew
  obtain ⟨hgiven, hposted⟩ := hall 1 x hx hid
  refine ⟨h, s, t, run, hm, hnone, hgiven, ?_⟩
  intro k u path
  refine (hposted k u path).imp_right ?_
  rintro ⟨exit, text, -, -, -, hr', heq⟩
  rw [heq]
  exact congrArg (· :: []) (Reader.notifying.inj (hr'.symm.trans hr))

/-- When a client that has gone has logged in again, it may still be told that the connection of its
earlier session was lost. -/
theorem late_notice_for_newer_session :
    ∃ h s t k u, Run ⟨.standard, 16, "broker"⟩ 1 h s
      ∧ s.move? ⟨.standard, 16, "broker"⟩ (.act (.call 2)) = some t
      ∧ Path ⟨.standard, 16, "broker"⟩ t k u
      ∧ Handled (h ++ [⟨s, .act (.call 2), t⟩] ++ k)
      ∧ (∃ c, t.calls[2]? = some c ∧ c.purpose = (Event.closed "a").purpose)
      ∧ (∃ x, t.sessions[1]? = some x ∧ x.id = "a") ∧ s.outcome? 2 = none ∧ t.outcome? 2 = some .ok
      ∧ u.registered? "a" = some 2
      ∧ postedBy (.reader 1) k
        = [⟨"a", some .error, [⟨"message", "Lost connection"⟩], .empty⟩] :=
  ⟨_, _, _, _, _, path_of_trace? fullBus rfl, rfl, path_of_trace? secondLogin rfl,
    handled_append.mpr ⟨handled_snoc.mpr ⟨rfl, rfl⟩, rfl⟩, ⟨_, rfl, rfl⟩, ⟨_, rfl, rfl⟩, rfl,
    rfl, rfl, rfl⟩

end Relay

end StompRelay
