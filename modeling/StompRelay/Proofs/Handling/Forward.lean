import StompRelay.Proofs.Handling.Exclusive
import StompRelay.Proofs.Isolation.Stale
import StompRelay.Proofs.Wire.Integrity
import StompRelay.Proofs.Wire.Share
/-!
# What becomes of one message

A call to send a message looks for the session of its client, turns the message into a frame and
writes it, once. What it answers tells what it has done: nothing at all, if there was no session or
the message becomes no frame; or else the frame is in the connection, or a part of it is and the
session has been ended.

## Main definitions

* `Reach`, `Stage.reach` — how far the changes of a call go that has got to a stage
* `Relay.Rewired` — a step changes only the outgoing side of one session
* `Relay.Within` — a step changes no more than that
* `Relay.Remembered` — nobody takes entries out of the register by hand
* `Relay.WrittenOnce` — a call has written one frame to one session, and nothing else
* `Relay.Reported` — what a call has done, by what it answers

## Main results

* `Relay.within_of_run` — how much a call has changed is known from its stage
* `Relay.closed_of_departure` — a session that has left the register is closed
* `Relay.reported_of_run` — what a call answers is what it has done
* `Relay.Quiet.forwards` — what a call waits for that has not answered
* `Relay.forward_outcome` — the whole
-/

namespace StompRelay

/-- Whether a call to send a message ends like this. -/
def Outcome.isForwarded : Outcome → Bool
  | ok | failed (.sessionNotFound _) | failed (.conversion _ _) | failed (.socketIo _ _) => true
  | _ => false

namespace Stage

/-- Whether a call to send a message gets to a stage. -/
def isForwarding : Stage → Bool
  | finding | encoding _ | asking _ _ | waiting _ _ | writing _ _ | failing _ _ => true
  | closing _ o final => !final && o.isForwarded
  | done o => o.isForwarded
  | _ => false

/-- Whether a call to send a message has ended the session to which its write failed. -/
def hasCleanedUp : Stage → Bool
  | closing _ _ false | done (.failed (.socketIo _ _)) => true
  | _ => false

end Stage

/-- How far the changes of a call go. -/
inductive Reach where
  /-- It has changed nothing. -/
  | nothing
  /-- It has changed the outgoing side of one session. -/
  | wire
  /-- It has changed one session, and its entry in the register. -/
  | session

/-- How far the changes of a call go that was to send a message, and has got to a stage. -/
def Stage.reach : Stage → Reach
  | finding | encoding _ | asking _ _ | done (.failed (.sessionNotFound _))
  | done (.failed (.conversion _ _)) => .nothing
  | waiting _ _ | writing _ _ | done .ok => .wire
  | _ => .session

namespace Relay

/-- A step changes nothing but the outgoing side of session `e`. -/
structure Rewired (s t : Relay) (e : Place) : Prop where
  registry : t.registry = s.registry
  bus : t.bus = s.bus
  others : ∀ e', e' ≠ e → t.sessions[e']? = s.sessions[e']?
  wire : ∀ x, s.sessions[e]? = some x → ∃ y, t.sessions[e]? = some y
    ∧ y = { x with writers := y.writers, unsent := y.unsent, toBroker := y.toBroker }

/-- A step changes no more of session `e` and of everything else. -/
def Within (e : Place) : Reach → Relay → Relay → Prop
  | .nothing, s, t => t.sessions = s.sessions ∧ t.registry = s.registry ∧ t.bus = s.bus
  | .wire, s, t => Rewired s t e
  | .session, s, t => Confined s t e ∧ t.bus = s.bus

/-- All steps of a call have changed no more than that. -/
def Reaches (h : History) (i : CallId) (e : Place) (r : Reach) : Prop :=
  ∀ τ ∈ h, τ.move = .act (.call i) → Within e r τ.before τ.after

/-- Whether a move takes an entry out of the register by hand. -/
def Move.forgets : Move → Bool
  | .forget _ => true
  | _ => false

/-- Nobody takes entries out of the register by hand. -/
def Remembered (h : History) : Prop := h.all (fun τ => !τ.move.forgets) = true

instance (h : History) : Decidable (Remembered h) := inferInstanceAs (Decidable (_ = true))

variable {setup : Setup} {busCapacity : Nat} {s t : Relay} {h : History} {m : Move} {e e' : Place}
  {i : CallId} {c : Call} {x y : Session} {id : SessionId} {new : Stage} {msg : Message}
  {command : Command} {frame : Bytes} {f : WriteFault} {o : Outcome} {r : Reach}

/-- In every run, a call to send a message passes only the stages that lead there. -/
theorem isForwarding_of_run (run : Run setup busCapacity h s) (hc : s.calls[i]? = some c)
    (hp : c.purpose = .forward msg command) : c.stage.isForwarding = true := by
  refine stage_of_run (P := fun p stage => p = .forward msg command → stage.isForwarding = true)
    ?_ ?_ run hc hp
  · rintro p n rfl
    rfl
  · rintro p old new hold hnext rfl
    have hold := hold rfl
    cases hnext with
    | @leave o final =>
      cases final with
      | false => exact hold
      | true => cases hold
    | close => exact hold
    | find | encode | queue | turn | write | miss | unencodable | finish | late | bounce | «break»
    | condemn => rfl
    | _ => cases hold

/-!
### How much a call changes

The further a call gets, the more it may have changed: nothing at first, then the outgoing side of
the session that it has found, and when its write has failed that session and its entry. So a stage
tells how far the changes of all steps before it go (`within_of_next`), and of the step that leads
there (`CallStep.within`).
-/

theorem Rewired.of_eq (hsessions : t.sessions = s.sessions) (hregistry : t.registry = s.registry)
    (hbus : t.bus = s.bus) : Rewired s t e where
  registry := hregistry
  bus := hbus
  others _ _ := by rw [hsessions]
  wire x hx := ⟨x, hsessions ▸ hx, rfl⟩

theorem Rewired.modifySession {g : Session → Session}
    (ht : t.sessions = (s.modifySession e g).sessions) (hregistry : t.registry = s.registry)
    (hbus : t.bus = s.bus)
    (hg : ∀ x, s.sessions[e]? = some x → g x = { x with
      writers := (g x).writers, unsent := (g x).unsent, toBroker := (g x).toBroker }) :
    Rewired s t e where
  registry := hregistry
  bus := hbus
  others e' he := by
    rw [ht]
    exact getElem?_modifySession_of_ne (Ne.symm he)
  wire x hx := ⟨g x, by rw [ht, getElem?_modifySession_self hx], hg x hx⟩

theorem Within.wire (hw : Within e .nothing s t) : Within e .wire s t :=
  Rewired.of_eq hw.1 hw.2.1 hw.2.2

theorem Within.session (hw : Within e r s t) : Within e .session s t := by
  cases r with
  | nothing =>
    obtain ⟨hsessions, hregistry, hbus⟩ := hw
    exact ⟨⟨fun _ _ => by rw [hsessions], by rw [hregistry]⟩, hbus⟩
  | wire =>
    have hw : Rewired s t e := hw
    exact ⟨⟨hw.others, by rw [hw.registry]⟩, hw.bus⟩
  | session => exact hw

/-- What a call to send a message was free to change it is free to change at its next stage. -/
theorem within_of_next {codec : Codec} {old : Stage}
    (hnext : Stage.Next codec (.forward msg command) old new)
    (trail : Trail codec h i (.forward msg command) old) (hforward : old.isForwarding = true)
    (hw : Within e old.reach s t) : Within e new.reach s t := by
  cases hnext with
  | find | miss | encode | unencodable | turn | write | finish | condemn | late | close => exact hw
  | queue => exact hw.wire
  | bounce | «break» => exact hw.session
  | @leave o final =>
    cases final with
    | true => cases hforward
    | false =>
      obtain ⟨_, f, -, rfl, -⟩ := trail
      exact hw
  | _ => cases hforward

/-- A step of a call that was to send a message changes no more than the stage tells to which it
leads: the outgoing side of the session that it found while it writes, and that session when its
write has failed. -/
theorem CallStep.within (hcen : Census h s) (hc : s.calls[i]? = some c)
    (hp : c.purpose = .forward msg command) (trail : Trail setup.codec h i c.purpose c.stage)
    (hforward : c.stage.isForwarding = true) (step : CallStep setup s i c t)
    (hnew : t.stage? i = some new) (hfound : ∀ e', (i, some e') ∈ looks h → e' = e) :
    Within e new.reach s t := by
  have moved {stage : Stage} (hcalls : t.calls = (s.setStage i stage).calls) : new = stage :=
    stage_eq_of_calls_eq (stage?_eq_of_getElem? hc) hnew hcalls
  have concluded {o : Outcome} (hcalls : t.calls = (s.setStage i (c.purpose.conclude o)).calls) :
      new = .done o := (moved hcalls).trans (by rw [hp]; rfl)
  have broken {e : Place} {f : WriteFault}
      (hcalls : t.calls = (s.setStage i (c.purpose.afterBreak e f)).calls) :
      new = .failing e f := (moved hcalls).trans (by rw [hp]; rfl)
  -- whichever session a stage names is the one that the call has found
  cases step with
  | find | encode =>
    rw [moved rfl]
    exact ⟨rfl, rfl, rfl⟩
  | miss | unencodable =>
    rw [concluded rfl]
    exact ⟨rfl, rfl, rfl⟩
  | queue hst =>
    rw [hst] at trail
    obtain rfl := hfound _ trail.1
    rw [moved rfl]
    exact .modifySession rfl rfl rfl fun _ _ => rfl
  | turn =>
    rw [moved rfl]
    exact .of_eq rfl rfl rfl
  | bounce hst =>
    rw [hst] at trail
    obtain rfl := hfound _ trail.1
    rw [broken rfl]
    exact ⟨.modifySession rfl rfl, rfl⟩
  | cut hst | snap hst =>
    rw [hst] at trail
    obtain rfl := hfound _ trail
    rw [broken rfl]
    exact ⟨.modifySession rfl rfl, rfl⟩
  | accept hst =>
    rw [hst] at trail
    obtain rfl := hfound _ trail
    rw [moved rfl]
    exact .modifySession rfl rfl rfl fun _ _ => rfl
  | @push e' x' y' _ _ hst hx _ _ hpush =>
    rw [hst] at trail
    obtain rfl := hfound _ trail
    rw [moved rfl]
    refine .modifySession rfl rfl rfl fun x hx' => ?_
    obtain rfl := Option.some.inj (hx.symm.trans hx')
    obtain ⟨bs, -, hy⟩ := Session.eq_of_push? hpush
    rw [hy]
  | finish hst =>
    rw [hst] at trail
    obtain rfl := hfound _ trail
    rw [concluded rfl]
    exact .modifySession rfl rfl rfl fun _ _ => rfl
  | @complete e' x' y' _ hst hx _ _ hpush =>
    rw [hst] at trail
    obtain rfl := hfound _ trail
    rw [concluded rfl]
    refine Rewired.modifySession (g := fun _ => y'.leave i) (List.modify_modify_eq _ _ _ _) rfl rfl
      fun x hx' => ?_
    obtain rfl := Option.some.inj (hx.symm.trans hx')
    obtain ⟨bs, -, hy⟩ := Session.eq_of_push? hpush
    rw [hy]
    rfl
  | condemn hst hr =>
    rw [hst] at trail
    obtain rfl := hfound _ trail.1
    rw [moved rfl]
    exact ⟨.unregister hcen hr rfl rfl, rfl⟩
  | late =>
    rw [concluded rfl]
    exact ⟨⟨fun _ _ => rfl, rfl⟩, rfl⟩
  | @close e' es o final hst =>
    rw [hst] at trail hforward
    cases final with
    | true => cases hforward
    | false =>
      obtain ⟨e'', f, hb, -, hes⟩ := trail
      obtain rfl := hes e' List.mem_cons_self
      obtain rfl := hfound _ hb.1
      rw [moved rfl]
      exact ⟨.modifySession rfl rfl, rfl⟩
  | @leave o final hst =>
    rw [hst] at trail hforward
    cases final with
    | true => cases hforward
    | false =>
      obtain ⟨e'', f, hb, rfl, -⟩ := trail
      rw [concluded rfl]
      exact ⟨⟨fun _ _ => rfl, rfl⟩, rfl⟩
  | refuse hst | dial hst | reject hst | register hst | attach hst | start hst | remove hst
  | pass hst | clear hst | join hst | refrain hst | post hst =>
    rw [hst] at hforward
    cases hforward

/-- In every run, a call to send a message has changed no more than its stage tells. -/
theorem within_of_run (run : Run setup busCapacity h s) (hc : s.calls[i]? = some c)
    (hp : c.purpose = .forward msg command) (hfound : ∀ e', (i, some e') ∈ looks h → e' = e) :
    Reaches h i e c.stage.reach := by
  refine known_of_run (P := fun p => p = .forward msg command)
    (K := fun h _ stage => (∀ e', (i, some e') ∈ looks h → e' = e) → Reaches h i e stage.reach)
    ?_ ?_ ?_ ?_ run hc hp hfound
  · intro h p n _ hu _ τ hτ hmove
    exact absurd hmove (hu τ hτ)
  · intro h τ p stage hne hk hfound τ' hτ' hmove
    rcases List.mem_append.mp hτ' with hτ' | hτ'
    · exact hk (fun e' hl => hfound e' (mem_inquiries_snoc hl)) τ' hτ' hmove
    · exact absurd (List.mem_singleton.mp hτ' ▸ hmove) hne
  · intro h p new _ hk hnext hfound
    cases hnext <;> exact hk hfound
  · intro h s t c new run hp hc step hnew hk hfound τ hτ hmove
    have hfound' (e' : Place) (hl : (i, some e') ∈ looks h) : e' = e :=
      hfound e' (mem_inquiries_snoc hl)
    have trail := trail_of_run run hc (by rw [hp]; rfl)
    have hforward := isForwarding_of_run run hc hp
    rcases List.mem_append.mp hτ with hτ | hτ
    · obtain ⟨new', hnew', hnext, -⟩ := step.stage?_eq hc
      obtain rfl := Option.some.inj (hnew.symm.trans hnew')
      rw [hp] at hnext trail
      exact within_of_next hnext trail hforward (hk hfound' τ hτ hmove)
    · obtain rfl := List.mem_singleton.mp hτ
      exact step.within (census_of_run run) hc hp trail hforward hnew hfound'

/-!
### Sessions that have left the register

A call whose write has failed ends the session that it found, if that is still registered. If not,
somebody else has ended it. Either way it has left the register, and whoever takes a session out
closes it in the same step.
-/

/-- Of the sessions that are registered, only the one that is found under an id leaves the register
with the entry of that id. -/
theorem Census.eq_of_departs (hcen : Census h s) (hr : s.registered? id = some e)
    (ht : t.registry = s.registry.filter (·.1 ≠ id)) (hin : e' ∈ s.registeredPlaces)
    (hout : e' ∉ t.registeredPlaces) : e' = e := by
  obtain ⟨⟨id', e''⟩, hentry, rfl⟩ := List.mem_map.mp hin
  by_contra hne
  have hkept : (id', e'') ∈ t.registry := by
    rw [ht, List.mem_filter]
    refine ⟨hentry, decide_eq_true fun hid => hne ?_⟩
    have hid : id' = id := hid
    rw [hid] at hentry
    exact Option.some.inj (((registered?_eq_some_iff hcen.ids).mpr hentry).symm.trans hr)
  exact hout (mem_registeredPlaces hkept)

/-- A session that leaves the register is closed, unless its entry is taken out by hand. -/
theorem MoveStep.closed_of_departs (hcen : Census h s) (step : MoveStep setup s m t)
    (hm : m.forgets = false) (hin : e ∈ s.registeredPlaces) (hout : e ∉ t.registeredPlaces) :
    t.HasClosed e := by
  obtain ⟨⟨id, e'⟩, hentry, rfl⟩ := List.mem_map.mp hin
  obtain ⟨x, hx, -⟩ := hcen.owned id e' hentry
  have kept (ht : t.registry = s.registry) : t.HasClosed e' :=
    absurd (by rw [registeredPlaces, ht]; exact hin) hout
  have ended {key : SessionId} {e : Place} {g : Session → Session}
      (hr : s.registered? key = some e) (ht : t.registry = s.registry.filter (·.1 ≠ key))
      (hsessions : t.sessions = (s.modifySession e g).sessions)
      (hg : ∀ x, (g x).closed = true) : t.HasClosed e' := by
    obtain rfl := hcen.eq_of_departs hr ht hin hout
    exact ⟨g x, by rw [hsessions, getElem?_modifySession_self hx], hg x⟩
  -- whoever takes the entry out closes the session in the same step
  cases step with
  | reader _ own =>
    cases own with
    | unregister _ hr =>
      exact ended (g := fun x => { x.cancel with reader := .shutting }) hr rfl
        (List.modify_modify_eq _ _ _ _) fun _ => rfl
    | _ => exact kept rfl
  | call _ own =>
    cases own with
    | condemn _ hr | remove _ hr => exact ended hr rfl rfl fun _ => rfl
    | clear => exact ⟨x.cancel, getElem?_cancelAll_of_mem hin hx, rfl⟩
    | register => exact absurd (List.mem_map_of_mem (List.mem_append_left _ hentry)) hout
    | _ => exact kept rfl
  | forget => cases hm
  | _ => exact kept rfl

theorem remembered_snoc {τ : Transition} :
    Remembered (h ++ [τ]) ↔ Remembered h ∧ τ.move.forgets = false := by
  simp [Remembered]

/-- Unless somebody takes entries out by hand, a session that has left the register is closed. -/
theorem closed_of_departure (run : Run setup busCapacity h s) (hk : Remembered h)
    (hd : e ∈ (departures h).map Prod.snd) : s.HasClosed e := by
  induction run with
  | nil => cases hd
  | @snoc h s t m run hmove ih =>
    obtain ⟨hbefore, hforgets⟩ := remembered_snoc.mp hk
    have step := run.moveStep hmove
    rw [map_departures_snoc] at hd
    rcases List.mem_append.mp hd with hd | hd
    · exact (ih hbefore hd).step step
    · obtain ⟨hin, hout⟩ := List.mem_filter.mp hd
      exact step.closed_of_departs (census_of_run run) hforgets hin (of_decide_eq_true hout)

/-- A session that leaves the register in a step has left it then. -/
theorem mem_departures_snoc (hin : e ∈ s.registeredPlaces) (hout : e ∉ t.registeredPlaces) :
    e ∈ (departures (h ++ [⟨s, m, t⟩])).map Prod.snd := by
  rw [map_departures_snoc]
  exact List.mem_append_right _ (List.mem_filter.mpr ⟨hin, decide_eq_true hout⟩)

/-- In every run, a session that a call has found is registered, or has left the register. -/
theorem registered_of_inquiry {asks : Stage → Bool} (run : Run setup busCapacity h s)
    (hq : (i, some e) ∈ inquiries asks h) :
    e ∈ s.registeredPlaces ∨ e ∈ (departures h).map Prod.snd := by
  induction run with
  | nil => cases hq
  | @snoc h s t m run hmove ih =>
    have onward (hin : e ∈ s.registeredPlaces) : e ∈ t.registeredPlaces
        ∨ e ∈ (departures (h ++ [⟨s, m, t⟩])).map Prod.snd :=
      Classical.or_iff_not_imp_left.mpr (mem_departures_snoc hin)
    rw [inquiries_snoc, List.mem_append, Option.mem_toList] at hq
    rcases hq with hq | hq
    · rcases ih hq with hin | hd
      · exact onward hin
      · refine .inr ?_
        rw [map_departures_snoc]
        exact List.mem_append_left _ hd
    · obtain ⟨-, c, -, -, hr, -⟩ := (run.moveStep hmove).exists_of_inquiry? hq
      exact onward (mem_registeredPlaces (mem_registry_of_registered? hr.symm))

/-- A session that a call has found has left the register. -/
def HasDeparted (h : History) (i : CallId) : Prop :=
  ∃ e, (i, some e) ∈ looks h ∧ e ∈ (departures h).map Prod.snd

theorem HasDeparted.snoc {τ : Transition} (hd : HasDeparted h i) : HasDeparted (h ++ [τ]) i := by
  obtain ⟨e, hl, hmem⟩ := hd
  refine ⟨e, mem_inquiries_snoc hl, ?_⟩
  rw [map_departures_snoc]
  exact List.mem_append_left _ hmem

/-- A call whose write has failed ends the session that it found, or finds it ended. -/
theorem CallStep.hasDeparted (run : Run setup busCapacity h s) (hc : s.calls[i]? = some c)
    (hp : c.purpose = .forward msg command) (step : CallStep setup s i c t)
    (hnew : t.stage? i = some new) (hold : c.stage.hasCleanedUp = true → HasDeparted h i)
    (hst : new.hasCleanedUp = true) : HasDeparted (h ++ [⟨s, .act (.call i), t⟩]) i := by
  have trail := trail_of_run run hc (by rw [hp]; rfl)
  have hforward := isForwarding_of_run run hc hp
  have moved {stage : Stage} (hcalls : t.calls = (s.setStage i stage).calls) : new = stage :=
    stage_eq_of_calls_eq (stage?_eq_of_getElem? hc) hnew hcalls
  have concluded {o : Outcome} (hcalls : t.calls = (s.setStage i (c.purpose.conclude o)).calls) :
      new = .done o := (moved hcalls).trans (by rw [hp]; rfl)
  have hcen := census_of_run run
  cases step with
  | @condemn e f hst' hr =>
    rw [hst'] at trail
    have hin := mem_registeredPlaces (mem_registry_of_registered? hr)
    exact ⟨e, mem_inquiries_snoc trail.1, mem_departures_snoc hin (hcen.notMem_of_filter hr)⟩
  | @late e f hst' hr =>
    rw [hst'] at trail
    -- the session is in the register under no id but its own
    obtain ⟨c', x, hc', hx, hid, -⟩ := found_of_run run trail.1
    obtain rfl := Option.some.inj (hc'.symm.trans hc)
    have hid' : c'.purpose.id = x.id := by rw [Purpose.id, hid, Option.getD_some]
    have hd := (registered_of_inquiry run trail.1).resolve_left fun hin =>
      hr (hid' ▸ (hcen.registered?_iff hx).mpr hin)
    exact HasDeparted.snoc ⟨e, trail.1, hd⟩
  | @close e es o final hst' =>
    rw [hst'] at hforward
    cases final with
    | false => exact (hold (by rw [hst']; rfl)).snoc
    | true => cases hforward
  | @leave o final hst' =>
    rw [hst'] at hforward
    cases final with
    | false => exact (hold (by rw [hst']; rfl)).snoc
    | true => cases hforward
  | miss | unencodable | finish | complete =>
    rw [concluded rfl] at hst
    cases hst
  | bounce | cut | snap =>
    rw [moved rfl, hp] at hst
    cases hst
  | find | encode | queue | turn | accept | push =>
    rw [moved rfl] at hst
    cases hst
  | refuse hst | dial hst | reject hst | register hst | attach hst | start hst | remove hst
  | pass hst | clear hst | join hst | refrain hst | post hst =>
    rw [hst] at hforward
    cases hforward

/-- In every run, the session to which the write of a call failed has left the register when the
call has ended it. -/
theorem departed_of_run (run : Run setup busCapacity h s) (hc : s.calls[i]? = some c)
    (hp : c.purpose = .forward msg command) (hst : c.stage.hasCleanedUp = true) :
    HasDeparted h i := by
  refine known_of_run (P := fun p => p = .forward msg command)
    (K := fun h _ stage => stage.hasCleanedUp = true → HasDeparted h i) ?_ ?_ ?_ ?_ run hc hp hst
  · rintro h p n rfl - hst
    cases hst
  · exact fun h τ p stage _ hk hst => (hk hst).snoc
  · intro h p new _ _ hnext hst
    cases hnext <;> cases hst
  · exact fun h s t c new run hp hc step hnew hk hst => step.hasDeparted run hc hp hnew hk hst

/-! ### What was written -/

/-- Call `i` has queued once to write one frame, to session `e`, and has put nothing into any other
connection. -/
structure WrittenOnce (h : History) (i : CallId) (e : Place) (frame : Bytes) : Prop where
  once : (queuedWrites (writes e h)).filter (fun q => q.1 = i) = [(i, frame)]
  only : ∀ e', e' ≠ e → (∀ frame', (i, frame') ∉ queuedWrites (writes e' h)) ∧ putBy i e' h = []

/-- In every run, a call to send a message whose write has returned has queued to write the frame of
its message to the session that it found, and for nothing else. -/
theorem writtenOnce_of_returned (run : Run setup busCapacity h s) (hc : s.calls[i]? = some c)
    (hp : c.purpose.sends? = some (msg, command)) {fault : Option WriteFault}
    (hr : .returned i fault ∈ writes e h) :
    ∃ x frame, s.sessions[e]? = some x ∧ (i, frame) ∈ queuedWrites (writes e h)
      ∧ setup.codec.encode msg command = .ok frame ∧ WrittenOnce h i e frame := by
  obtain ⟨habsent, hpresent⟩ := wired_of_run run e
  cases hx : s.sessions[e]? with
  | none =>
    rw [habsent hx] at hr
    cases hr
  | some x =>
    obtain ⟨hqueue, -⟩ := hpresent x hx
    obtain ⟨frame, hq⟩ := hqueue.log.exists_queued_of_returned hr
    obtain ⟨hl, hencode⟩ := look_of_queued run hc hp hq
    refine ⟨x, frame, rfl, hq, hencode, hqueue.log.filter_eq hq, fun e' he => ?_⟩
    have hnone (frame' : Bytes) : (i, frame') ∉ queuedWrites (writes e' h) := fun hq' =>
      he (Option.some.inj (looks_unique run (look_of_queued run hc hp hq').1 hl))
    exact ⟨hnone, putBy_eq_nil run hnone⟩

/-! ### What a call answers -/

/-- What call `i`, which was to send a message under a command, has done when it answers. -/
inductive Reported (codec : Codec) (h : History) (s : Relay) (i : CallId) (msg : Message)
    (command : Command) : Outcome → Prop where
  /-- It found no session, and has changed nothing. -/
  | missed : (i, none) ∈ looks h → Harmless i h → (∀ e, putBy i e h = []) →
    Reported codec h s i msg command (.failed (.sessionNotFound msg.session))
  /-- It found a session, but its message becomes no frame: it has changed nothing. -/
  | unencodable {e : Place} {error : Error} : (i, some e) ∈ looks h →
    codec.encode msg command = .error error → Harmless i h → (∀ e, putBy i e h = []) →
    Reported codec h s i msg command (.failed (.conversion msg.session error))
  /-- Its write failed, before all of the frame was in the connection. The session that it found
  has left the register and is closed; it has changed no other. -/
  | broken {e : Place} {frame tail : Bytes} {f : WriteFault} : (i, some e) ∈ looks h →
    codec.encode msg command = .ok frame → WrittenOnce h i e frame →
    .returned i (some f) ∈ writes e h → frame = putBy i e h ++ tail → tail ≠ [] →
    s.HasClosed e → e ∉ s.registeredPlaces → Reaches h i e .session →
    Reported codec h s i msg command (.failed (.socketIo msg.session f))
  /-- Its frame is in the connection of the session that it found, whole and once. It has changed
  nothing else. -/
  | sent {e : Place} {frame before after : Bytes} {x : Session} : (i, some e) ∈ looks h →
    codec.encode msg command = .ok frame → WrittenOnce h i e frame →
    .returned i none ∈ writes e h → putBy i e h = frame → s.sessions[e]? = some x →
    x.toBroker.sent = before ++ frame ++ after → Reaches h i e .wire →
    Reported codec h s i msg command .ok

/-- A call that has changed nothing has put nothing into any connection. -/
theorem putBy_eq_nil_of_harmless (hh : Harmless i h) : putBy i e h = [] := by
  rw [putBy, List.flatMap_eq_nil_iff]
  intro τ hτ
  obtain ⟨hmem, hof⟩ := List.mem_filter.mp hτ
  obtain ⟨hsessions, -⟩ := hh τ hmem (Transition.isOf_iff.mp hof)
  unfold Transition.puts
  rw [hsessions]
  split
  · rename_i x y hx hy
    obtain rfl := Option.some.inj (hx.symm.trans hy)
    exact List.drop_length
  · rfl

/-- In every run in which nobody takes entries out of the register by hand, what a call to send a
message answers tells what it has done. -/
theorem reported_of_run (run : Run setup busCapacity h s) (hk : Remembered h)
    (hc : s.calls[i]? = some c) (hp : c.purpose = .forward msg command)
    (ho : s.outcome? i = some o) : Reported setup.codec h s i msg command o := by
  have hst := (outcome?_eq_some_iff hc).mp ho
  have hsends : c.purpose.sends? = some (msg, command) := by rw [hp]; rfl
  have hid : c.purpose.id = msg.session := by rw [hp]; rfl
  have trail := trail_of_run run hc hsends
  have hforward := isForwarding_of_run run hc hp
  have hreach (e : Place) := within_of_run (e := e) run hc hp
  rw [hst] at trail hforward hreach
  have found {e : Place} (hl : (i, some e) ∈ looks h) (e' : Place) (hl' : (i, some e') ∈ looks h) :
      e' = e :=
    Option.some.inj (looks_unique run hl' hl)
  have answers : Answers setup.codec h i c.purpose o := trail
  cases answers with
  | taken | raced | unreachable => cases hforward
  | missed hl =>
    have hharmless : Harmless i h := hreach 0 fun e' hl' => nomatch looks_unique run hl hl'
    exact hid ▸ .missed hl hharmless fun e => putBy_eq_nil_of_harmless hharmless
  | @unencodable e m command' error hl hm he =>
    cases hsends.symm.trans hm
    have hharmless : Harmless i h := hreach e (found hl)
    exact .unencodable hl he hharmless fun e => putBy_eq_nil_of_harmless hharmless
  | @broken e f hb =>
    obtain ⟨hl, hr⟩ := hb
    obtain ⟨x, frame, hx, hq, hencode, honce⟩ := writtenOnce_of_returned run hc hsends hr
    have hne : frame ≠ [] := by
      obtain ⟨content, rfl, -⟩ := Codec.exists_of_encode hencode
      simp
    -- the call would have answered otherwise if its write had succeeded
    have hnot : .returned i none ∉ writes e h := fun hr' =>
      nomatch outcome_of_returned run hr' ho
    obtain ⟨⟨tail, htail⟩, hpart⟩ := ((share_of_run run i e).2 x hx).part frame hq hne hnot
    obtain ⟨e', hl', hd⟩ := departed_of_run run hc hp (by rw [hst]; rfl)
    obtain rfl := found hl e' hl'
    refine hid ▸ .broken hl hencode honce hr htail.symm ?_ (closed_of_departure run hk hd)
      ((census_of_run run).left e' hd).2 (hreach e' (found hl))
    rintro rfl
    exact hpart ((List.append_nil _).symm.trans htail)
  | @sent e hl hr =>
    obtain ⟨x, frame, hx, hq, hencode, honce⟩ := writtenOnce_of_returned run hc hsends hr
    have hne : frame ≠ [] := by
      obtain ⟨content, rfl, -⟩ := Codec.exists_of_encode hencode
      simp
    have hwhole := ((share_of_run run i e).2 x hx).whole frame hq hne hr
    obtain ⟨part, hsent, -⟩ := ((wired_of_run run e).2 x hx).2.start
    have hmem : frame ∈ writtenFrames (writes e h) :=
      List.mem_map.mpr ⟨(i, frame), List.mem_filter.mpr ⟨hq, decide_eq_true hr⟩, rfl⟩
    obtain ⟨before, after, hsplit⟩ := List.append_of_mem hmem
    have hplace : x.toBroker.sent = before.flatten ++ frame ++ (after.flatten ++ part) := by
      rw [hsent, hsplit]
      simp
    exact .sent hl hencode honce hr hwhole hx hplace (hreach e (found hl))

/-- A call whose write failed has answered so, if it has answered. -/
theorem outcome_of_broken (run : Run setup busCapacity h s) (hc : s.calls[i]? = some c)
    (hp : c.purpose = .forward msg command) (hr : .returned i (some f) ∈ writes e h)
    (ho : s.outcome? i = some o) : o = .failed (.socketIo msg.session f) := by
  have hst := (outcome?_eq_some_iff hc).mp ho
  have hid : c.purpose.id = msg.session := by rw [hp]; rfl
  rcases fails_of_returned run hc (by rw [hp]; rfl) hr with hfailing | hanswers
  · cases hfailing.symm.trans hst
  · rw [hst, hid] at hanswers
    simpa [Stage.answers] using hanswers

/-- When nobody can move, a call to send a message has answered, or waits for its turn to write or
for room in a connection. The session is open then, and the broker is there. -/
theorem Quiet.forwards (quiet : s.Quiet setup) (run : Run setup busCapacity h s)
    (hc : s.calls[i]? = some c) (hp : c.purpose = .forward msg command) :
    (∃ o, s.outcome? i = some o) ∨ ∃ e x, s.sessions[e]? = some x
      ∧ (i, some e) ∈ looks h ∧ c.stage.writesTo e = true ∧ ¬x.Dead := by
  have hrests := quiet.rests run hc
  have hforward := isForwarding_of_run run hc hp
  have hi := stage?_eq_of_getElem? hc
  have writes {e : Place} (hl : (i, some e) ∈ looks h) (hw : c.stage.writesTo e = true)
      (hh : c.stage.heads e = true) : (∃ o, s.outcome? i = some o) ∨ ∃ e x,
        s.sessions[e]? = some x ∧ (i, some e) ∈ looks h ∧ c.stage.writesTo e = true
          ∧ ¬x.Dead := by
    obtain ⟨-, x, -, hx, -⟩ := found_of_run run hl
    refine .inr ⟨e, x, hx, hl, hw, fun hd => ?_⟩
    have hqueued := ((wired_of_run run e).2 x hx).1
    exact Bool.false_ne_true ((quiet.heads_eq_false hx hqueued hd hi).symm.trans hh)
  have trail := trail_of_run run hc (by rw [hp]; rfl)
  cases hst : c.stage with
  | done o => exact .inl ⟨o, (outcome?_eq_some_iff hc).mpr hst⟩
  | waiting e frame =>
    rw [hst] at trail writes
    exact writes trail.1 (by simp [Stage.writesTo]) (by simp [Stage.heads])
  | writing e rest =>
    rw [hst] at trail writes
    exact writes trail (by simp [Stage.writesTo]) (by simp [Stage.heads])
  | dialing | posting =>
    rw [hst] at hforward
    cases hforward
  | _ =>
    -- at all other stages the call could move
    rw [hst] at hrests
    cases hrests

/-! ### The whole -/

/-- What becomes of a call to send a message, in every run in which nobody takes entries out of the
register by hand, whatever others do at the same time to its session, its id and all others.

What it answers tells what it has done. It answers that there is no session exactly if it found none
under the id of its message; that its message becomes no frame exactly if it found one and that is
so; that the write failed exactly if its one write to the session that it found did; and that all
went well exactly if that write succeeded. When nobody can move, it has answered, unless it waits
for its turn to write, or for room in the connection, while the session is open and the broker is
there. -/
theorem forward_outcome (run : Run setup busCapacity h s) (hk : Remembered h)
    (hc : s.calls[i]? = some c) (hp : c.purpose = .forward msg command) :
    (∀ o, s.outcome? i = some o → Reported setup.codec h s i msg command o
        ∧ (o = .failed (.sessionNotFound msg.session) ↔ (i, none) ∈ looks h)
        ∧ (∀ error, o = .failed (.conversion msg.session error) ↔
          (∃ e, (i, some e) ∈ looks h) ∧ setup.codec.encode msg command = .error error)
        ∧ (∀ f, o = .failed (.socketIo msg.session f) ↔
          ∃ e, (i, some e) ∈ looks h ∧ .returned i (some f) ∈ writes e h)
        ∧ (o = .ok ↔ ∃ e, (i, some e) ∈ looks h ∧ .returned i none ∈ writes e h))
      ∧ (s.Quiet setup → (∃ o, s.outcome? i = some o) ∨ ∃ e x, s.sessions[e]? = some x
        ∧ (i, some e) ∈ looks h ∧ c.stage.writesTo e = true ∧ ¬x.Dead) := by
  refine ⟨fun o ho => ?_, fun quiet => quiet.forwards run hc hp⟩
  have reported := reported_of_run run hk hc hp ho
  have hsends : c.purpose.sends? = some (msg, command) := by rw [hp]; rfl
  have unfound {e : Place} (hl : (i, none) ∈ looks h) (hl' : (i, some e) ∈ looks h) : False :=
    nomatch looks_unique run hl hl'
  have unreturned {error : Error} {e : Place} {fault : Option WriteFault}
      (he : setup.codec.encode msg command = .error error)
      (hr : .returned i fault ∈ writes e h) : False := by
    obtain ⟨-, frame, -, -, hencode, -⟩ := writtenOnce_of_returned run hc hsends hr
    exact nomatch he.symm.trans hencode
  have succeeds {e : Place} (hr : .returned i none ∈ writes e h) : o = .ok :=
    outcome_of_returned run hr ho
  have fails {e : Place} {f : WriteFault} (hr : .returned i (some f) ∈ writes e h) :
      o = .failed (.socketIo msg.session f) :=
    outcome_of_broken run hc hp hr ho
  refine ⟨reported, ?_⟩
  -- what one answer reports refutes all others
  cases reported with
  | missed hl =>
    exact ⟨iff_of_true rfl hl, fun _ => iff_of_false nofun fun ⟨⟨_, hl'⟩, _⟩ => unfound hl hl',
      fun _ => iff_of_false nofun fun ⟨_, hl', _⟩ => unfound hl hl',
      iff_of_false nofun fun ⟨_, hl', _⟩ => unfound hl hl'⟩
  | @unencodable e error hl he =>
    refine ⟨iff_of_false nofun fun hl' => unfound hl' hl, fun error' => ?_,
      fun _ => iff_of_false nofun fun ⟨_, _, hr⟩ => unreturned he hr,
      iff_of_false nofun fun ⟨_, _, hr⟩ => unreturned he hr⟩
    rw [he]
    simpa using fun _ => ⟨e, hl⟩
  | @broken e frame tail f hl hencode _ hr =>
    refine ⟨iff_of_false nofun fun hl' => unfound hl' hl,
      fun _ => iff_of_false nofun fun ⟨_, he⟩ => unreturned he hr, fun f' => ⟨?_, ?_⟩,
      iff_of_false nofun fun ⟨_, _, hr'⟩ => nomatch succeeds hr'⟩
    · intro heq
      cases heq
      exact ⟨e, hl, hr⟩
    · exact fun ⟨_, _, hr'⟩ => fails hr'
  | @sent e frame before after x hl hencode _ hr =>
    exact ⟨iff_of_false nofun fun hl' => unfound hl' hl,
      fun _ => iff_of_false nofun fun ⟨_, he⟩ => unreturned he hr,
      fun _ => iff_of_false nofun fun ⟨_, _, hr'⟩ => (nomatch fails hr'),
      iff_of_true rfl ⟨e, hl, hr⟩⟩

/-- A message whose body holds the byte that ends a frame. -/
def nulMessage : Message := ⟨"a", none, [], .bytes [Frame.nul]⟩

/-- Four messages are sent, to a broker that takes ten bytes and reads none: two that fit only one
after the other, one for a session that is not there, and one that becomes no frame. The session is
ended while the second is written. -/
def fourMessages : List Move :=
  [.attach "a" 10 false true, .act (.call 0), .act (.call 0),
    .start (.forward blankMessage .send), .start (.forward blankMessage .send),
    .start (.forward { blankMessage with session := "b" } .send),
    .start (.forward nulMessage .send),
    .act (.call 1), .act (.call 1), .act (.call 1), .act (.call 1), .act (.call 1), .act (.call 1),
    .act (.call 2), .act (.call 2), .act (.call 2), .act (.call 2), .act (.call 2), .act (.call 2),
    .act (.call 3), .act (.call 4), .act (.call 4),
    .start (.teardown "a" none), .act (.call 5), .act (.call 2), .act (.call 2)]

/-- The first message is in the connection, and three bytes of the second. The other two have
changed nothing. -/
theorem forward_outcome_of_four_messages :
    ∃ h s, Run ⟨.standard, 16, "broker"⟩ 1 h s ∧ Remembered h
      ∧ Reported .standard h s 1 blankMessage .send .ok
      ∧ Reported .standard h s 2 blankMessage .send (.failed (.socketIo "a" .closed))
      ∧ Reported .standard h s 3 { blankMessage with session := "b" } .send
        (.failed (.sessionNotFound "b"))
      ∧ Reported .standard h s 4 nulMessage .send (.failed (.conversion "a" (.frame .nulInBody)))
      ∧ putBy 1 0 h = [83, 69, 78, 68, 10, 10, 0] ∧ putBy 2 0 h = [83, 69, 78] := by
  obtain ⟨h, s, run, hk, hsent, hpart, ⟨c, hc, hp, ho⟩, ⟨c', hc', hp', ho'⟩,
      ⟨d, hd, hdp, hdo⟩, ⟨d', hd', hdp', hdo'⟩⟩ :
      ∃ h s, Run ⟨.standard, 16, "broker"⟩ 1 h s ∧ Remembered h
        ∧ putBy 1 0 h = [83, 69, 78, 68, 10, 10, 0] ∧ putBy 2 0 h = [83, 69, 78]
        ∧ (∃ c, s.calls[1]? = some c ∧ c.purpose = .forward blankMessage .send
          ∧ s.outcome? 1 = some .ok)
        ∧ (∃ c, s.calls[2]? = some c ∧ c.purpose = .forward blankMessage .send
          ∧ s.outcome? 2 = some (.failed (.socketIo "a" .closed)))
        ∧ (∃ c, s.calls[3]? = some c
          ∧ c.purpose = .forward { blankMessage with session := "b" } .send
          ∧ s.outcome? 3 = some (.failed (.sessionNotFound "b")))
        ∧ ∃ c, s.calls[4]? = some c ∧ c.purpose = .forward nulMessage .send
          ∧ s.outcome? 4 = some (.failed (.conversion "a" (.frame .nulInBody))) :=
    ⟨_, _, path_of_trace? fourMessages rfl, rfl, rfl, rfl, ⟨_, rfl, rfl, rfl⟩,
      ⟨_, rfl, rfl, rfl⟩, ⟨_, rfl, rfl, rfl⟩, ⟨_, rfl, rfl, rfl⟩⟩
  exact ⟨h, s, run, hk, ((forward_outcome run hk hc hp).1 _ ho).1,
    ((forward_outcome run hk hc' hp').1 _ ho').1, ((forward_outcome run hk hd hdp).1 _ hdo).1,
    ((forward_outcome run hk hd' hdp').1 _ hdo').1, hsent, hpart⟩

end Relay

end StompRelay
