import StompRelay.Proofs.Sound
/-!
# The stages of each purpose

A call passes only stages that serve its purpose.

## Main definitions

* `Purpose.visits` — whether a call with a purpose ever gets to a stage
* `Stage.rests` — whether a call may have to wait for others

## Main results

* `Relay.visits_of_run` — in every run each call is at a stage that serves its purpose
* `Relay.Quiet.rests` — when nobody can move, every call waits for others or has ended
-/

namespace StompRelay

namespace Purpose

/-- Whether a call asks for a connection. -/
def dials : Purpose → Bool
  | login _ _ => true
  | _ => false

/-- Whether a call registers a session. -/
def registers : Purpose → Bool
  | login _ _ | attach _ _ _ => true
  | _ => false

/-- Whether a call writes bytes to a session by its place. -/
def writesRaw : Purpose → Bool
  | write _ _ => true
  | _ => false

/-- Whether a call ends the session under its id when it has nothing else to do. -/
def removes : Purpose → Bool
  | logout _ | depart _ | teardown _ _ => true
  | _ => false

/-- Whether a call delivers a message to the bus. -/
def delivers : Purpose → Bool
  | deliver _ => true
  | _ => false

/-- Whether a call ends all sessions. -/
def clears : Purpose → Bool
  | teardownAll => true
  | _ => false

/-- Whether a call closes a session by its place. -/
def closesRaw : Purpose → Bool
  | close _ => true
  | _ => false

/-- Whether a call with a purpose ever gets to a stage. -/
def visits (p : Purpose) : Stage → Bool
  | .admitting | .dialing => p.dials
  | .registering _ | .starting _ => p.registers
  | .finding | .encoding _ | .failing _ _ => p.sends?.isSome
  | .asking _ _ | .waiting _ _ | .writing _ _ => p.sends?.isSome || p.writesRaw
  | .removing _ _ _ => p.removes
  | .clearing => p.clears
  | .closing _ _ final =>
    if final then p.removes || p.clears || p.closesRaw else p.sends?.isSome
  | .joining | .posting => p.delivers
  | .done _ => true

variable {codec : Codec} {p : Purpose} {old new : Stage} {message : Message × Command}

/-- A call that sends a message is about its client. -/
theorem session?_of_sends (hp : p.sends? = some message) : p.session? = some p.id := by
  cases p <;> first | rfl | cases hp

/-- A call that asks for a connection sends a message. -/
theorem exists_sends_of_dials (hp : p.dials = true) : ∃ message, p.sends? = some message := by
  cases p <;> first | exact ⟨_, rfl⟩ | cases hp

/-- A call that asks for a connection is about a client. -/
theorem session?_of_dials (hp : p.dials = true) : p.session? = some p.id := by
  obtain ⟨_, hsends⟩ := exists_sends_of_dials hp
  exact session?_of_sends hsends

/-- After sending, a call that asked for a connection has ended. -/
theorem conclude_of_dials (hp : p.dials = true) (o : Outcome) : p.conclude o = .done o := by
  cases p <;> first | rfl | cases hp

theorem visits_start (p : Purpose) (n : Place) : p.visits (p.start n) = true := by
  cases p <;> rfl

theorem visits_conclude (p : Purpose) (o : Outcome) : p.visits (p.conclude o) = true := by
  cases p <;> rfl

theorem visits_afterBreak (e : Place) (f : WriteFault)
    (hp : (p.sends?.isSome || p.writesRaw) = true) : p.visits (p.afterBreak e f) = true := by
  cases p <;> first | rfl | cases hp

/-- From a stage that serves its purpose a call gets to such stages only. -/
theorem visits_next (hnext : Stage.Next codec p old new) (hold : p.visits old = true) :
    p.visits new = true := by
  cases hnext with
  | dial | register | find | queue | turn | write | condemn | close | join => exact hold
  | dialed => cases p <;> first | rfl | cases hold
  | start hp =>
    cases p with
    | login => rfl
    | attach id reads holds => exact absurd rfl (hp id reads holds)
    | _ => cases hold
  | encode =>
    have hp : p.sends?.isSome = true := hold
    simp [visits, hp]
  | miss | unencodable | finish | late => exact visits_conclude _ _
  | bounce | «break» => exact visits_afterBreak _ _ hold
  | remove =>
    have hp : p.removes = true := hold
    simp [visits, hp]
  | clear =>
    have hp : p.clears = true := hold
    simp [visits, hp]
  | @leave o final =>
    cases final
    · exact visits_conclude _ _
    · rfl
  | refuse | unreachable | reject | attach | pass | post => rfl

end Purpose

/-- Whether a call has ended, or may have to wait for a connection, for its turn to write, for room
in the connection or for room on the bus. -/
def Stage.rests : Stage → Bool
  | .dialing | .waiting _ _ | .writing _ _ | .posting | .done _ => true
  | _ => false

namespace Relay

variable {setup : Setup} {busCapacity : Nat} {s : Relay} {h : History} {i : CallId} {c : Call}

/-- In every run each call is at a stage that serves its purpose. -/
theorem visits_of_run (run : Run setup busCapacity h s) (hc : s.calls[i]? = some c) :
    c.purpose.visits c.stage = true :=
  stage_of_run (P := fun p stage => p.visits stage = true) Purpose.visits_start
    (fun _ _ _ hold hnext => Purpose.visits_next hnext hold) run hc

/-- A call that cannot move waits for others or has ended. -/
theorem rests_of_stuck (run : Run setup busCapacity h s) (hc : s.calls[i]? = some c)
    (hstep : s.step? setup (.call i) = none) : c.stage.rests = true := by
  rw [step?, hc, Option.bind_some, stepCall] at hstep
  cases hst : c.stage with
  | dialing | waiting | writing | posting | done => rfl
  | encoding e =>
    -- a call that turns a message into a frame has one
    have hv := visits_of_run run hc
    rw [hst] at hv hstep
    obtain ⟨q, hq⟩ := Option.isSome_iff_exists.mp hv
    simp [stepEncode, hq] at hstep
  | admitting | finding | removing =>
    rw [hst] at hstep
    dsimp only at hstep
    split at hstep <;> cases hstep
  | failing e f =>
    -- the session to which a write failed is there
    have hk : c.stage.keeps e = true := by simp [hst, Stage.keeps]
    have hlt := (sound_of_run run).kept i c.stage e (stage?_eq_of_getElem? hc) hk
    rw [hst] at hstep
    dsimp only at hstep
    rw [List.getElem?_eq_getElem hlt] at hstep
    dsimp only at hstep
    split at hstep <;> cases hstep
  | registering | starting | asking | clearing | closing | joining =>
    rw [hst] at hstep
    cases hstep

/-- When nobody can move, every call waits for others or has ended. -/
theorem Quiet.rests (quiet : s.Quiet setup) (run : Run setup busCapacity h s)
    (hc : s.calls[i]? = some c) : c.stage.rests = true :=
  rests_of_stuck run hc (quiet (.call i))

end Relay

end StompRelay
