import StompRelay.Proofs.Calls.Inquiry
import StompRelay.Proofs.Wire.Calls
/-!
# The trail of a call

A call that sends a message leaves a trail in a history: what it found in the register, and how its
write returned. From its stage one can tell what the trail is, and from its outcome why it ended.

## Main definitions

* `Stage.answers` — a call ends with an outcome, now or when it has ended its session
* `Relay.Answers` — why a call that sends a message ends with an outcome
* `Relay.Trail` — what is known of such a call from its stage

## Main results

* `Relay.trail_of_run` — in every run the trail of a call is known from its stage
* `Relay.look_of_queued` — a call queues only for the session that it found
* `Relay.fails_of_returned` — a call whose write failed says so
-/

namespace StompRelay

namespace Purpose

variable {p : Purpose} {m : Message} {c : Command}

/-- A call that sends a message ends the session to which it could not be written. -/
theorem afterBreak_of_sends (hp : p.sends? = some (m, c)) (e : Place) (f : WriteFault) :
    p.afterBreak e f = .failing e f := by
  cases p <;> first | rfl | cases hp

/-- After sending, a call has ended, or ends its session as one that logs out. -/
theorem conclude_of_sends (o : Outcome) (hp : p.sends? = some (m, c)) :
    p.conclude o = .done o ∨ p = .logout m ∧ p.conclude o = .removing none o o := by
  cases p with
  | logout =>
    cases hp
    exact .inr ⟨rfl, rfl⟩
  | forward | login => exact .inl rfl
  | _ => cases hp

end Purpose

namespace Stage

/-- Whether a call has ended with an outcome, or will when it has ended its session. -/
def answers (o : Outcome) : Stage → Bool
  | done o' => o' = o
  | removing _ found missed => found = o ∧ missed = o
  | closing _ o' _ => o' = o
  | _ => false

variable {codec : Codec} {p : Purpose} {o : Outcome} {old new : Stage}

theorem answers_conclude : (p.conclude o).answers o = true := by
  cases p <;> simp [Purpose.conclude, answers]

/-- The outcome of a call stays what it is going to be. -/
theorem Next.answers (hnext : Next codec p old new) (h : old.answers o = true) :
    new.answers o = true := by
  cases hnext with
  | remove | pass | close => simp_all [Stage.answers]
  | @leave o' final =>
    obtain rfl : o' = o := by simpa [Stage.answers] using h
    cases final
    · exact answers_conclude
    · simp [Stage.answers]
  | _ => cases h

/-- A call has one outcome. -/
theorem answers_unique {stage : Stage} {o' : Outcome} (h : stage.answers o = true)
    (h' : stage.answers o' = true) : o' = o := by
  cases stage <;> simp_all [answers]

end Stage

namespace Relay

/-- A call found a session, and its write to that session failed. -/
def Broke (h : History) (i : CallId) (e : Place) (f : WriteFault) : Prop :=
  (i, some e) ∈ looks h ∧ .returned i (some f) ∈ writes e h

/-- Why a call that sends a message ends with an outcome. -/
inductive Answers (codec : Codec) (h : History) (i : CallId) (p : Purpose) : Outcome → Prop where
  /-- It found a session and wrote its message. -/
  | sent {e : Place} : (i, some e) ∈ looks h → .returned i none ∈ writes e h →
    Answers codec h i p .ok
  /-- It found its id taken before it dialed. -/
  | taken {e : Place} : (i, some e) ∈ admissions h →
    Answers codec h i p (.failed (.sessionAlreadyExists p.id))
  /-- It found its id taken after it had dialed. -/
  | raced : (i, none) ∈ admissions h → Answers codec h i p (.failed (.sessionAlreadyExists p.id))
  /-- It got no connection. -/
  | unreachable {address reason : String} :
    Answers codec h i p (.failed (.connectionEstablishment p.id address reason))
  /-- It found no session. -/
  | missed : (i, none) ∈ looks h → Answers codec h i p (.failed (.sessionNotFound p.id))
  /-- It found a session, but its message becomes no frame. -/
  | unencodable {e : Place} {m : Message} {c : Command} {error : Error} :
    (i, some e) ∈ looks h → p.sends? = some (m, c) → codec.encode m c = .error error →
    Answers codec h i p (.failed (.conversion m.session error))
  /-- It found a session, but could not write to it. -/
  | broken {e : Place} {f : WriteFault} : Broke h i e f →
    Answers codec h i p (.failed (.socketIo p.id f))

/-- What is known from its stage of a call that sends a message. -/
def Trail (codec : Codec) (h : History) (i : CallId) (p : Purpose) : Stage → Prop
  | .admitting | .finding => True
  | .dialing | .registering _ | .starting _ => (i, none) ∈ admissions h
  | .encoding e => (i, some e) ∈ looks h
  | .asking e frame | .waiting e frame => (i, some e) ∈ looks h
    ∧ ∃ m c, p.sends? = some (m, c) ∧ codec.encode m c = .ok frame
  | .writing e _ => (i, some e) ∈ looks h
  | .failing e f => Broke h i e f
  | .removing only found missed =>
    (∃ m, p = .logout m) ∧ only = none ∧ missed = found ∧ Answers codec h i p found
  | .closing es o false =>
    ∃ e f, Broke h i e f ∧ o = .failed (.socketIo p.id f) ∧ ∀ e' ∈ es, e' = e
  | .closing _ o true => (∃ m, p = .logout m) ∧ Answers codec h i p o
  | .done o => Answers codec h i p o
  | .clearing | .joining | .posting => False

variable {setup : Setup} {busCapacity : Nat} {s t : Relay} {h : History} {m : Move} {e : Place}
  {i : CallId} {c : Call} {p : Purpose} {codec : Codec} {o : Outcome} {stage new : Stage}
  {msg : Message} {command : Command} {frame : Bytes} {f : WriteFault}

theorem mem_writes_snoc {event : WriteEvent} {τ : Transition} (hw : event ∈ writes e h) :
    event ∈ writes e (h ++ [τ]) := by
  rw [writes_snoc]
  exact List.mem_append_left _ hw

theorem Broke.snoc {τ : Transition} (hb : Broke h i e f) : Broke (h ++ [τ]) i e f :=
  ⟨mem_inquiries_snoc hb.1, mem_writes_snoc hb.2⟩

theorem Answers.snoc {τ : Transition} (ha : Answers codec h i p o) :
    Answers codec (h ++ [τ]) i p o := by
  cases ha with
  | sent hl hw => exact .sent (mem_inquiries_snoc hl) (mem_writes_snoc hw)
  | taken hq => exact .taken (mem_inquiries_snoc hq)
  | raced hq => exact .raced (mem_inquiries_snoc hq)
  | unreachable => exact .unreachable
  | missed hl => exact .missed (mem_inquiries_snoc hl)
  | unencodable hl hm hf => exact .unencodable (mem_inquiries_snoc hl) hm hf
  | broken hb => exact .broken hb.snoc

/-- What is known of a call stays known. -/
theorem Trail.snoc {τ : Transition} (ht : Trail codec h i p stage) :
    Trail codec (h ++ [τ]) i p stage := by
  cases stage with
  | admitting | finding => trivial
  | dialing | registering | starting => exact mem_inquiries_snoc (q := (i, none)) ht
  | encoding e | writing e => exact mem_inquiries_snoc (q := (i, some e)) ht
  | asking | waiting => exact ⟨mem_inquiries_snoc ht.1, ht.2⟩
  | failing => exact Broke.snoc ht
  | removing =>
    obtain ⟨hp, honly, hmissed, ha⟩ := ht
    exact ⟨hp, honly, hmissed, ha.snoc⟩
  | closing es o final =>
    cases final with
    | false =>
      obtain ⟨e, f, hb, ho, hes⟩ := ht
      exact ⟨e, f, hb.snoc, ho, hes⟩
    | true => exact ⟨ht.1, ht.2.snoc⟩
  | done => exact Answers.snoc ht
  | clearing | joining | posting => exact ht.elim

theorem Trail.conclude (hp : p.sends? = some (msg, command)) (ha : Answers codec h i p o) :
    Trail codec h i p (p.conclude o) := by
  rcases p.conclude_of_sends o hp with heq | ⟨hlogout, heq⟩
  · rw [heq]
    exact ha
  · rw [heq]
    exact ⟨⟨msg, hlogout⟩, rfl, rfl, ha⟩

/-- A call that sends a message starts to look for its session or for a connection. -/
theorem trail_start (hp : p.sends? = some (msg, command)) (n : Place) :
    Trail codec h i p (p.start n) := by
  cases p <;> trivial

/-- A step of a call goes on with its trail. -/
theorem CallStep.trail (hc : s.calls[i]? = some c) (hp : c.purpose.sends? = some (msg, command))
    (step : CallStep setup s i c t) (ht : Trail setup.codec h i c.purpose c.stage)
    (hnew : t.stage? i = some new) :
    Trail setup.codec (h ++ [⟨s, .act (.call i), t⟩]) i c.purpose new := by
  have hold : s.stage? i = some c.stage := stage?_eq_of_getElem? hc
  have moved {stage : Stage} (hcalls : t.calls = (s.setStage i stage).calls) : new = stage :=
    stage_eq_of_calls_eq hold hnew hcalls
  have asked {asks : Stage → Bool} {r : Option Place} (ha : asks c.stage = true)
      (hr : s.registered? c.purpose.id = r) :
      (i, r) ∈ inquiries asks (h ++ [⟨s, .act (.call i), t⟩]) :=
    hr ▸ mem_inquiries_call hc ha
  -- a write returns when its call stops writing
  have returned {e : Place} {fault : Option WriteFault} (hw : c.stage.writesTo e = true)
      (hw' : new.writesTo e = false) (hfault : new.fault? = fault) :
      .returned i fault ∈ writes e (h ++ [⟨s, .act (.call i), t⟩]) := by
    rw [writes_snoc, Transition.write?_call hold hnew, Stage.write?_of_leave hw hw', hfault]
    exact List.mem_append_right _ (List.mem_singleton_self _)
  have broke {e : Place} {f : WriteFault} (hlook : (i, some e) ∈ looks h)
      (hw : c.stage.writesTo e = true)
      (hcalls : t.calls = (s.setStage i (c.purpose.afterBreak e f)).calls) :
      Trail setup.codec (h ++ [⟨s, .act (.call i), t⟩]) i c.purpose new := by
    have heq : new = .failing e f := (moved hcalls).trans (Purpose.afterBreak_of_sends hp e f)
    rw [heq]
    exact ⟨mem_inquiries_snoc hlook, returned hw (heq ▸ rfl) (heq ▸ rfl)⟩
  have wrote {e : Place} (hlook : (i, some e) ∈ looks h) (hw : c.stage.writesTo e = true)
      (hcalls : t.calls = (s.setStage i (c.purpose.conclude .ok)).calls) :
      Trail setup.codec (h ++ [⟨s, .act (.call i), t⟩]) i c.purpose new := by
    have heq : new = c.purpose.conclude .ok := moved hcalls
    have hw' : new.writesTo e = false := by rw [heq, Stage.writesTo_conclude]
    have hfault : new.fault? = none := by rw [heq, Stage.fault?_conclude_ok]
    rw [heq]
    exact .conclude hp (.sent (mem_inquiries_snoc hlook) (returned hw hw' hfault))
  cases step with
  | refuse hst hr =>
    rw [moved rfl]
    exact .taken (asked (by rw [hst]; rfl) hr)
  | dial hst hr =>
    rw [moved rfl]
    have hmem : (i, none) ∈ admissions (h ++ [⟨s, .act (.call i), _⟩]) :=
      asked (by rw [hst]; rfl) hr
    exact hmem
  | reject hst =>
    rw [hst] at ht
    rw [moved rfl]
    exact .raced (mem_inquiries_snoc ht)
  | register hst =>
    rw [hst] at ht
    rw [moved rfl]
    exact mem_inquiries_snoc (q := (i, none)) ht
  | attach hst hattach =>
    rw [hattach] at hp
    cases hp
  | start =>
    rw [moved rfl]
    trivial
  | @find e hst hr =>
    rw [moved rfl]
    have hmem : (i, some e) ∈ looks (h ++ [⟨s, .act (.call i), _⟩]) :=
      asked (by rw [hst]; rfl) hr
    exact hmem
  | miss hst hr =>
    rw [moved rfl]
    exact .conclude hp (.missed (asked (by rw [hst]; rfl) hr))
  | encode hst hm hf =>
    rw [hst] at ht
    rw [moved rfl]
    exact ⟨mem_inquiries_snoc ht, _, _, hm, hf⟩
  | unencodable hst hm hf =>
    rw [hst] at ht
    rw [moved rfl]
    exact .conclude hp (.unencodable (mem_inquiries_snoc ht) hm hf)
  | queue hst =>
    rw [hst] at ht
    rw [moved rfl]
    exact ⟨mem_inquiries_snoc ht.1, ht.2⟩
  | @turn e _ frame hst =>
    rw [hst] at ht
    rw [moved rfl]
    exact mem_inquiries_snoc (q := (i, some e)) ht.1
  | bounce hst =>
    rw [hst] at ht
    exact broke ht.1 (by simp [hst, Stage.writesTo]) rfl
  | cut hst | snap hst =>
    rw [hst] at ht
    exact broke ht (by simp [hst, Stage.writesTo]) rfl
  | @accept e _ _ hst | @push e _ _ _ _ hst =>
    rw [hst] at ht
    rw [moved rfl]
    exact mem_inquiries_snoc (q := (i, some e)) ht
  | finish hst | complete hst =>
    rw [hst] at ht
    exact wrote ht (by simp [hst, Stage.writesTo]) rfl
  | @condemn e f hst =>
    rw [hst] at ht
    rw [moved rfl]
    exact ⟨e, f, Broke.snoc ht, rfl, fun e' he' => List.mem_singleton.mp he'⟩
  | late hst =>
    rw [hst] at ht
    rw [moved rfl]
    exact .conclude hp (.broken (Broke.snoc ht))
  | remove hst =>
    rw [hst] at ht
    obtain ⟨hlogout, -, -, ha⟩ := ht
    rw [moved rfl]
    exact ⟨hlogout, ha.snoc⟩
  | pass hst =>
    rw [hst] at ht
    obtain ⟨-, -, hmissed, ha⟩ := ht
    rw [moved rfl, hmissed]
    exact ha.snoc
  | @close e es o final hst =>
    rw [hst] at ht
    rw [moved rfl]
    cases final with
    | false =>
      obtain ⟨e', f, hb, ho, hes⟩ := ht
      exact ⟨e', f, hb.snoc, ho, fun e'' he'' => hes e'' (List.mem_cons_of_mem _ he'')⟩
    | true => exact ⟨ht.1, ht.2.snoc⟩
  | @leave o final hst =>
    rw [hst] at ht
    rw [moved rfl]
    cases final with
    | false =>
      obtain ⟨e', f, hb, rfl, -⟩ := ht
      exact .conclude hp (.broken hb.snoc)
    | true => exact ht.2.snoc
  | clear hst | join hst | refrain hst | post hst =>
    rw [hst] at ht
    exact ht.elim

/-- In every run, what is known of a call that sends a message is known from its stage. -/
theorem trail_of_run (run : Run setup busCapacity h s) (hc : s.calls[i]? = some c)
    (hp : c.purpose.sends? = some (msg, command)) :
    Trail setup.codec h i c.purpose c.stage := by
  refine known_of_run (P := fun p => p.sends? = some (msg, command))
    (K := fun h p stage => Trail setup.codec h i p stage) (fun _ _ n hp _ => trail_start hp n)
    (fun _ _ _ _ _ ht => ht.snoc) ?_ ?_ run hc hp
  · intro h p new _ ht hnext
    cases hnext with
    | unreachable => exact .unreachable
    | dialed => exact ht
  · intro h s t c new _ hp hc step hnew ht
    exact step.trail hc hp ht hnew

/-- A call queues only to write its own message, and only for the session that it found. -/
theorem look_of_queued (run : Run setup busCapacity h s) (hc : s.calls[i]? = some c)
    (hp : c.purpose.sends? = some (msg, command)) (hq : (i, frame) ∈ queuedWrites (writes e h)) :
    (i, some e) ∈ looks h ∧ setup.codec.encode msg command = .ok frame := by
  induction run generalizing c with
  | nil => cases hq
  | @snoc h s t m run hm ih =>
    have step := run.moveStep hm
    rw [writes_snoc, queuedWrites, List.filterMap_append, List.mem_append] at hq
    rcases hq with hq | hq
    · -- the call was there when it queued
      obtain ⟨b, hb, -⟩ := writes_of_queued run hq
      have hpurpose := step.purpose_eq hb hc
      obtain ⟨hlook, hframe⟩ := ih hb (hpurpose ▸ hp) hq
      exact ⟨mem_inquiries_snoc hlook, hframe⟩
    · obtain ⟨event, hevent, hqueued⟩ := List.mem_filterMap.mp hq
      obtain ⟨j, b, d, hb, hd, hpurpose, -, hw⟩ :=
        step.exists_of_write? (Option.mem_toList.mp hevent)
      cases event with
      | returned => cases hqueued
      | queued =>
        cases hqueued
        obtain ⟨rfl, hstage⟩ := Stage.eq_of_write?_queued hw
        obtain rfl := Option.some.inj (hc.symm.trans hd)
        have ht := trail_of_run run hb (hpurpose ▸ hp)
        rw [hstage] at ht
        obtain ⟨hlook, msg', command', hm', hf⟩ := ht
        rw [← hpurpose, hp] at hm'
        cases hm'
        exact ⟨mem_inquiries_snoc hlook, hf⟩

/-- A call whose write failed ends the session that it wrote to, and fails. -/
theorem fails_of_returned (run : Run setup busCapacity h s) (hc : s.calls[i]? = some c)
    (hp : c.purpose.sends? = some (msg, command)) (hr : .returned i (some f) ∈ writes e h) :
    c.stage = .failing e f ∨ c.stage.answers (.failed (.socketIo c.purpose.id f)) = true := by
  have arrives (p : Purpose) (old new : Stage) (hnext : Stage.Next setup.codec p old new)
      (hold : old.writesTo e = true) (hnew : new.writesTo e = false) (hfault : new.fault? = some f)
      (hp : p.sends? = some (msg, command)) :
      new = .failing e f ∨ new.answers (.failed (.socketIo p.id f)) = true := by
    cases hnext with
    | @bounce e' _ f' | @«break» e' _ f' =>
      obtain rfl : e' = e := by simpa [Stage.writesTo] using hold
      rw [Stage.fault?_afterBreak, Option.some.injEq] at hfault
      exact .inl (hfault ▸ p.afterBreak_of_sends hp _ _)
    | finish =>
      rw [Stage.fault?_conclude_ok] at hfault
      cases hfault
    | turn | write => exact absurd (hold.symm.trans hnew) (by simp)
    | _ => cases hold
  have keeps (p : Purpose) (old new : Stage) (hold : p.sends? = some (msg, command) →
      old = .failing e f ∨ old.answers (.failed (.socketIo p.id f)) = true)
      (hnext : Stage.Next setup.codec p old new) (hp : p.sends? = some (msg, command)) :
      new = .failing e f ∨ new.answers (.failed (.socketIo p.id f)) = true := by
    rcases hold hp with rfl | hanswers
    · cases hnext with
      | condemn => exact .inr (by simp [Stage.answers])
      | late => exact .inr Stage.answers_conclude
    · exact .inr (hnext.answers hanswers)
  obtain ⟨d, hd, hstage⟩ := stage_of_returned arrives keeps run hr
  obtain rfl := Option.some.inj (hc.symm.trans hd)
  exact hstage hp

end Relay

end StompRelay
