import StompRelay.Proofs.Calls.Errand
import StompRelay.Proofs.Delivery.Bus
import StompRelay.Proofs.Isolation.Entries
import StompRelay.Proofs.Message.RoundTrip
/-!
# Accounts

Every move is made on the account of one client, except those that concern all of them. What is kept
for a client, and what is on its way to it, has its id.

## Main definitions

* `Relay.owner?`, `Relay.client?`, `Relay.account?` — the client of a session, a call and a move
* `Reader.message?` — the message with which a reader waits

## Main results

* `Relay.owner_of_run`, `Relay.target_of_run` — a call keeps only sessions of its client
* `Relay.addressed_of_run` — a reader waits only with messages for its own client
-/

namespace StompRelay

/-- The session that a call names by its place. -/
def Purpose.target? : Purpose → Option Place
  | write e _ | close e => some e
  | _ => none

/-- The message with which a reader waits in line. -/
def Reader.message? : Reader → Option Message
  | delivering m _ | notifying m => some m
  | _ => none

namespace Stage

/-- Whether a call has to do with the session under its id now. -/
def usesId : Stage → Bool
  | admitting | dialing | registering _ | starting _ | finding | encoding _ | failing _ _
  | removing _ _ _ => true
  | _ => false

variable {codec : Codec} {p : Purpose} {e : Place} {old new : Stage}

/-- A call that has to do with the session under its id is about a client. -/
theorem session?_of_usesId (hv : p.visits old = true) (hu : old.usesId = true) :
    p.session? = some p.id := by
  cases old <;> cases p <;>
    first | rfl | exact (Bool.false_ne_true hu).elim | exact (Bool.false_ne_true hv).elim

/-- Only a call that ends all sessions comes to do so. -/
theorem session?_of_clearing (hv : p.visits .clearing = true) :
    p.session? = none ∧ p.target? = none := by
  cases p <;> first | exact ⟨rfl, rfl⟩ | cases hv

/-- What a call keeps it has kept before, unless it has looked for it just then. -/
theorem Next.keeps (hnext : Next codec p old new) (hk : new.keeps e = true) :
    old.keeps e = true ∨ old.usesId = true ∨ old = .clearing := by
  cases hnext with
  | register | encode | queue | turn | write => exact .inl hk
  | bounce | «break» =>
    obtain rfl := Purpose.keeps_of_afterBreak hk
    exact .inl (by simp [Stage.keeps])
  | close =>
    refine .inl ?_
    simp only [Stage.keeps, List.contains_eq_mem, decide_eq_true_eq] at hk ⊢
    exact List.mem_cons_of_mem _ hk
  | finish | late =>
    rw [Purpose.keeps_conclude] at hk
    cases hk
  | @leave o final =>
    cases final
    · simp [Purpose.keeps_conclude] at hk
    · cases hk
  | dialed | find | miss | unencodable | condemn | remove => exact .inr (.inl rfl)
  | clear => exact .inr (.inr rfl)
  | _ => cases hk

end Stage

namespace Relay

/-- The client of a session. -/
def owner? (s : Relay) (e : Place) : Option SessionId := s.sessions[e]?.map Session.id

/-- The client on whose account a call is made: that of the session that it names by its place, or
else the one that it is about. There is none for a call that ends all sessions. -/
def client? (s : Relay) (p : Purpose) : Option SessionId :=
  match p.target? with
  | some e => s.owner? e
  | none => p.session?

/-- The client on whose account somebody waits in line. -/
def holder? (s : Relay) : Ticket → Option SessionId
  | .reader e => s.owner? e
  | .call i => s.calls[i]?.bind fun c => s.client? c.purpose

/-- The client on whose account a move is made. What the receiver of the bus does, and what a call
does that ends all sessions, is on no client's account. -/
def account? (s : Relay) : Move → Option SessionId
  | .act a => s.holder? a.ticket
  | .start p => s.client? p
  | .attach id _ _ _ | .forget id => some id
  | .dialed i _ => s.holder? (.call i)
  | .brokerPut e _ | .brokerTake e _ | .brokerDrop e | .breakInput e | .letGo e => s.owner? e
  | .receive | .dropBus => none

variable {setup : Setup} {busCapacity : Nat} {s t : Relay} {h : History} {m : Move} {e e' : Place}
  {i : CallId} {c : Call} {x : Session} {id : SessionId} {new : Stage} {msg : Message}

theorem owner?_eq_some_iff : s.owner? e = some id ↔ ∃ x, s.sessions[e]? = some x ∧ x.id = id :=
  Option.map_eq_some_iff

theorem owner?_of_getElem? (hx : s.sessions[e]? = some x) : s.owner? e = some x.id :=
  owner?_eq_some_iff.mpr ⟨x, hx, rfl⟩

/-- A session keeps its client. -/
theorem MoveStep.owner? (step : MoveStep setup s m t) (ho : s.owner? e = some id) :
    t.owner? e = some id := by
  obtain ⟨x, hx, rfl⟩ := owner?_eq_some_iff.mp ho
  obtain ⟨y, hy, hid⟩ := step.session_id hx
  exact owner?_eq_some_iff.mpr ⟨y, hy, hid⟩

/-- The session that is found under an id has that id. -/
theorem Census.owner? (hcen : Census h s) (hr : s.registered? id = some e) :
    s.owner? e = some id :=
  owner?_eq_some_iff.mpr (hcen.owned id e (mem_registry_of_registered? hr))

/-! ### Calls keep sessions of their clients -/

/-- A session that a call keeps after its step it kept before, or has found under its id. -/
theorem CallStep.keeps_before (hc : s.calls[i]? = some c) (step : CallStep setup s i c t)
    (hnew : t.stage? i = some new) (hk : new.keeps e = true) :
    c.stage.keeps e = true ∨ c.stage.usesId = true ∧ s.registered? c.purpose.id = some e
      ∨ c.stage = .clearing ∧ e ∈ s.registeredPlaces := by
  have hold : s.stage? i = some c.stage := stage?_eq_of_getElem? hc
  have moved {stage : Stage} (hcalls : t.calls = (s.setStage i stage).calls) : new = stage :=
    stage_eq_of_calls_eq hold hnew hcalls
  obtain ⟨new', hnew', hnext, -⟩ := step.stage?_eq hc
  obtain rfl := Option.some.inj (hnew.symm.trans hnew')
  rcases hnext.keeps hk with hkept | huse | hclear
  · exact .inl hkept
  · cases step with
    | find hst hr =>
      rw [moved rfl] at hk
      obtain rfl : e = _ := by simpa [Stage.keeps] using hk
      exact .inr (.inl ⟨huse, hr⟩)
    | condemn hst hr =>
      rw [moved rfl] at hk
      obtain rfl : e = _ := by simpa [Stage.keeps] using hk
      exact .inr (.inl ⟨huse, hr⟩)
    | remove hst hr =>
      rw [moved rfl] at hk
      obtain rfl : e = _ := by simpa [Stage.keeps] using hk
      exact .inr (.inl ⟨huse, hr⟩)
    | register hst | encode hst =>
      rw [moved rfl] at hk
      rw [hst]
      exact .inl hk
    | miss | unencodable | late =>
      rw [moved rfl, Purpose.keeps_conclude] at hk
      cases hk
    | refuse | dial | reject | attach | start | pass =>
      rw [moved rfl] at hk
      cases hk
    | queue hst | turn hst | bounce hst | cut hst | accept hst | finish hst | snap hst | push hst
    | complete hst | clear hst | close hst | leave hst | join hst | refrain hst | post hst =>
      rw [hst] at huse
      cases huse
  · cases step with
    | clear =>
      rw [moved (calls_clear _ _)] at hk
      exact .inr (.inr ⟨hclear, by simpa [Stage.keeps] using hk⟩)
    | refuse hst | dial hst | reject hst | register hst | attach hst | start hst | find hst
    | miss hst | encode hst | unencodable hst | queue hst | turn hst | bounce hst | cut hst
    | accept hst | finish hst | snap hst | push hst | complete hst | condemn hst | late hst
    | remove hst | pass hst | close hst | leave hst | join hst | refrain hst | post hst =>
      cases hst.symm.trans hclear

/-- In every run, a call about a client keeps only sessions of that client. -/
theorem owner_of_run (run : Run setup busCapacity h s) (hc : s.calls[i]? = some c)
    (hid : c.purpose.session? = some id) (hk : c.stage.keeps e = true) : s.owner? e = some id := by
  have key {p : Purpose} (hp : p.session? = some id) : p.id = id := by rw [Purpose.id, hp]; rfl
  induction run generalizing c with
  | nil => simp [Relay.empty] at hc
  | @snoc h s t m run hm ih =>
    have step := run.moveStep hm
    by_cases hopens : c.stage.opens e = true
    · -- the session that a call opens is opened for its client
      obtain ⟨x, hx, -, hx'⟩ := (opening_of_run (.snoc run hm)).unstarted i c e hc hopens
      exact owner?_eq_some_iff.mpr ⟨x, hx, hx'.trans (key hid)⟩
    · rcases step.call_before hc with ⟨b, hb, hpurpose, hstage⟩ | ⟨-, hstage⟩
      · rw [hpurpose] at hid
        rcases hstage with heq | hnext
        · exact step.owner? (ih hb hid (heq ▸ hk))
        · by_cases hm' : m = .act (.call i)
          · subst hm'
            cases step with
            | call hb' own =>
              obtain rfl := Option.some.inj (hb'.symm.trans hb)
              have step : MoveStep setup s (.act (.call i)) t := .call hb own
              rcases own.keeps_before hb (stage?_eq_of_getElem? hc) hk with
                hkept | ⟨-, hr⟩ | ⟨hclear, -⟩
              · exact step.owner? (ih hb hid hkept)
              · exact step.owner? (key hid ▸ (census_of_run run).owner? hr)
              · have hv := visits_of_run run hb
                rw [hclear] at hv
                rw [(Stage.session?_of_clearing hv).1] at hid
                cases hid
          · rcases step.stage_of_ne hm' hb hc with heq | ⟨-, ⟨o, ht⟩ | ⟨e', ht⟩⟩
            · exact step.owner? (ih hb hid (heq ▸ hk))
            · rw [ht] at hk
              cases hk
            · rw [ht] at hk hopens
              simp only [Stage.keeps, Stage.opens, beq_iff_eq] at hk hopens
              exact absurd hk.symm hopens
      · -- a call that starts with a session opens it, or names it by number
        rw [hstage] at hk hopens
        cases hp : c.purpose with
        | attach =>
          rw [hp] at hk hopens
          simp only [Purpose.start, Stage.keeps, Stage.opens, beq_iff_eq] at hk hopens
          exact absurd hk.symm hopens
        | write | close | teardownAll =>
          rw [hp] at hid
          cases hid
        | forward | login | logout | depart | deliver | teardown =>
          rw [hp] at hk
          cases hk

/-- In every run, a call that names a session by its place keeps no other. -/
theorem target_of_run (run : Run setup busCapacity h s) (hc : s.calls[i]? = some c)
    (htarget : c.purpose.target? = some e) (hk : c.stage.keeps e' = true) : e' = e := by
  have hall := stage_of_run (P := fun p stage => p.visits stage = true ∧ ∀ e e',
    p.target? = some e → stage.keeps e' = true → e' = e) ?_ ?_ run hc
  · exact hall.2 e e' htarget hk
  · intro p n
    refine ⟨Purpose.visits_start p n, ?_⟩
    intro e e' hp hk
    cases p with
    | write | close =>
      cases hp
      simpa [Purpose.start, Stage.keeps] using hk
    | _ => cases hp
  · rintro p old new ⟨hv, hold⟩ hnext
    refine ⟨Purpose.visits_next hnext hv, ?_⟩
    intro e e' hp hk
    rcases hnext.keeps hk with hkept | huse | rfl
    · exact hold e e' hp hkept
    · -- a call that names its session has nothing to do with ids
      have hsession := Stage.session?_of_usesId hv huse
      cases p with
      | write | close => cases hsession
      | _ => cases hp
    · rw [(Stage.session?_of_clearing hv).2] at hp
      cases hp

/-! ### Readers have messages for their clients -/

/-- A step of a reader leaves it with a message for its own client. -/
theorem ReaderStep.addressed (step : ReaderStep setup s e x t) (hx : s.sessions[e]? = some x)
    {y : Session} (hy : t.sessions[e]? = some y) (hm : y.reader.message? = some msg) :
    msg.session = y.id := by
  cases step with
  | unregister =>
    obtain rfl := eq_of_unregister hx hy
    cases hm
  | offer _ _ _ hd =>
    obtain rfl := eq_of_modifySession hx hy
    cases hm
    obtain ⟨f, -, rfl⟩ := Codec.decode_eq_some_iff.mp hd
    rfl
  | overflow | reject | lose | fail =>
    obtain rfl := eq_of_modifySession hx hy
    cases hm
    rfl
  | stop | read | skip | fetch | quit | abandon | post | hush | announce | shut =>
    obtain rfl := eq_of_modifySession hx hy
    cases hm

/-- In every run, a reader waits only with messages for its own client. -/
theorem addressed_of_run (run : Run setup busCapacity h s) (hx : s.sessions[e]? = some x)
    (hm : x.reader.message? = some msg) : msg.session = x.id := by
  refine (session_of_run (Q := fun _ => True)
    (P := fun _ _ x => ∀ m, x.reader.message? = some m → m.session = x.id) trivial ?_ ?_ run).2
    x hx msg hm
  · intro h s t m _ step hs _
    refine ⟨trivial, ?_⟩
    intro y hy m' hm'
    obtain ⟨id, capacity, rfl⟩ := step.session_new hs hy
    cases hm'
  · intro h s t m x _ step hx hold
    obtain ⟨y, hy, input⟩ := step.inputStep hx
    refine ⟨y, hy, ?_⟩
    cases input with
    | rest _ same =>
      rw [same.reader, same.id]
      exact hold
    | own own => exact fun m hm => own.addressed hx hy hm
    | drop _ _ _ hy' =>
      intro m' hm'
      rw [hy'] at hm'
      cases hm'
    | start _ _ _ hreader hy' =>
      intro m' hm'
      rw [hy'] at hm'
      rcases hreader with rfl | rfl <;> cases hm'

end Relay

end StompRelay
