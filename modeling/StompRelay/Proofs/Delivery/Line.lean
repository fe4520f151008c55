import StompRelay.Proofs.Delivery.Bus
import StompRelay.Proofs.Opening
/-!
# The line for the bus

Those who wait in line for the bus are exactly the readers and the calls that have a message to
post, so when there is room somebody can post.

## Main definitions

* `Reader.waits` — the reader has a message to post
* `Relay.Line` — the line for the bus agrees with the readers and the calls

## Main results

* `Relay.line_of_run` — in every run the line does
* `Relay.Quiet.line_eq_nil_or_full` — when nobody can move, nobody waits but for room on the bus
-/

namespace StompRelay

/-- Whether a reader waits for room on the bus. -/
def Reader.waits : Reader → Bool
  | .delivering _ _ | .notifying _ => true
  | _ => false

/-- Only a call that gets in line comes to wait there. -/
theorem Stage.Next.eq_joining {codec : Codec} {p : Purpose} {old : Stage}
    (hnext : Stage.Next codec p old .posting) : old = .joining := by
  cases hnext.advance rfl with
  | join => rfl

theorem Stage.Next.ne_joining {codec : Codec} {p : Purpose} {old new : Stage}
    (hnext : Stage.Next codec p old new) : new ≠ .joining := by
  rintro rfl
  cases hnext.advance rfl

namespace Relay

variable {setup : Setup} {busCapacity : Nat} {s t : Relay} {h : History} {m : Move} {e : Place}
  {i : CallId} {c : Call} {x y : Session}

/-- Those who wait in line are exactly the readers and the calls that have a message to post. -/
structure Line (s : Relay) : Prop where
  readers : ∀ e, Ticket.reader e ∈ s.bus.line
    ↔ ∃ x : Session, s.sessions[e]? = some x ∧ x.reader.waits = true
  calls : ∀ i, Ticket.call i ∈ s.bus.line ↔ s.stage? i = some .posting

theorem Actor.ticket_injective {a b : Actor} (hab : a.ticket = b.ticket) : a = b := by
  cases a <;> cases b <;> cases hab <;> rfl

/-- A move changes only the place of the one who moves. -/
theorem BusStep.mem_line {a : Actor} (step : BusStep s t m) (hm : m ≠ .act a) :
    a.ticket ∈ t.bus.line ↔ a.ticket ∈ s.bus.line := by
  have ne {b : Actor} (hb : m = .act b) : a.ticket ≠ b.ticket := fun hab =>
    hm (Actor.ticket_injective hab ▸ hb)
  cases step with
  | rest _ hb => rw [hb]
  | join hb => simp [hb, Bus.join, ne rfl]
  | leave hb => simp [hb, Bus.leave, ne rfl]
  | post _ _ hb => simp [hb, Bus.post, Bus.leave, ne rfl]
  | receive _ hb => rw [hb]
  | drop hb => rw [hb]; rfl

/-- After its own step a reader is in line if it has a message to post. -/
theorem ReaderStep.mem_line (step : ReaderStep setup s e x t) (hx : s.sessions[e]? = some x)
    (hline : Ticket.reader e ∈ s.bus.line ↔ x.reader.waits = true)
    (hy : t.sessions[e]? = some y) :
    Ticket.reader e ∈ t.bus.line ↔ y.reader.waits = true := by
  cases step with
  | stop hr | read hr | skip hr | fetch hr | quit hr | shut hr =>
    obtain rfl := eq_of_modifySession hx hy
    rw [hr] at hline
    exact hline
  | overflow | reject | offer | lose | fail =>
    obtain rfl := eq_of_modifySession hx hy
    exact iff_of_true (List.mem_append_right _ List.mem_cons_self) rfl
  | abandon | hush =>
    obtain rfl := eq_of_modifySession hx hy
    exact iff_of_false (by simp [leaveBus, Bus.leave]) Bool.false_ne_true
  | post | announce =>
    obtain rfl := eq_of_modifySession hx hy
    exact iff_of_false (by simp [postFrom, Bus.post, Bus.leave]) Bool.false_ne_true
  | unregister hr =>
    obtain rfl := eq_of_unregister hx hy
    rw [hr] at hline
    exact hline

/-- After its own step a call is in line if it has a message to post. -/
theorem CallStep.mem_line (step : CallStep setup s i c t) (hc : s.calls[i]? = some c)
    (hline : Ticket.call i ∈ s.bus.line ↔ s.stage? i = some .posting) :
    Ticket.call i ∈ t.bus.line ↔ t.stage? i = some .posting := by
  have hold : s.stage? i = some c.stage := stage?_eq_of_getElem? hc
  obtain ⟨new, hnew, hnext, -⟩ := step.stage?_eq hc
  rw [hold, Option.some.injEq] at hline
  rw [hnew, Option.some.injEq]
  have other {stage : Stage} (hst : c.stage = stage) (hbus : t.bus = s.bus)
      (hne : stage ≠ .joining ∧ stage ≠ .posting) :
      Ticket.call i ∈ t.bus.line ↔ new = .posting := by
    rw [hbus, hline, hst]
    refine iff_of_false hne.2 fun hposting => hne.1 ?_
    rw [hst, hposting] at hnext
    exact hnext.eq_joining
  have moved {stage : Stage} (ht : t.calls = (s.setStage i stage).calls) : new = stage :=
    stage_eq_of_calls_eq hold hnew ht
  cases step with
  | join =>
    exact iff_of_true (List.mem_append_right _ List.mem_cons_self)
      (moved rfl)
  | refrain =>
    refine iff_of_false (by simp [Bus.leave]) ?_
    rw [moved rfl]
    simp
  | post =>
    refine iff_of_false (by simp [Bus.post, Bus.leave]) ?_
    rw [moved rfl]
    simp
  | clear hst => exact other hst (bus_cancelAll _) (by simp)
  | refuse hst | dial hst | reject hst | register hst | attach hst | start hst | find hst
  | miss hst | encode hst | unencodable hst | queue hst | turn hst | bounce hst | cut hst
  | accept hst | finish hst | snap hst | push hst | complete hst | condemn hst | late hst
  | remove hst | pass hst | close hst | leave hst => exact other hst rfl (by simp)

namespace Line

theorem readers_step (hl : s.Line) (ho : s.Opening) (step : MoveStep setup s m t) (e : Place) :
    Ticket.reader e ∈ t.bus.line
      ↔ ∃ x : Session, t.sessions[e]? = some x ∧ x.reader.waits = true := by
  cases hx : s.sessions[e]? with
  | none =>
    have hmem := step.busStep.mem_line (step.ne_reader hx)
    have hnone : Ticket.reader e ∉ s.bus.line := by simp [hl.readers, hx]
    refine iff_of_false (fun hin => hnone (hmem.mp hin)) ?_
    rintro ⟨y, hy, hw⟩
    obtain ⟨id, capacity, rfl⟩ := step.session_new hx hy
    cases hw
  | some x =>
    have hline : Ticket.reader e ∈ s.bus.line ↔ x.reader.waits = true := by
      simp [hl.readers, hx]
    obtain ⟨y, hy, input⟩ := step.inputStep hx
    rw [hy]
    simp only [Option.some.injEq, exists_eq_left']
    -- a reader that is started or dropped has had no message to post
    have opened {i : CallId} {c : Call} (hc : s.calls[i]? = some c)
        (hce : c.stage.opens e = true) (hm : m ≠ .act (.reader e)) (hw : y.reader.waits = false) :
        Ticket.reader e ∈ t.bus.line ↔ y.reader.waits = true := by
      have hr := ho.eq_unstarted hx hc hce
      have hmem := step.busStep.mem_line hm
      refine iff_of_false ?_ (by simp [hw])
      intro hin
      have hwaits := hline.mp (hmem.mp hin)
      simp [hr, Reader.waits] at hwaits
    cases input with
    | rest hm same =>
      have hmem := step.busStep.mem_line hm
      rw [same.reader, ← hline]
      exact hmem
    | own own => exact own.mem_line hx hline hy
    | drop hc hst _ hy' =>
      exact opened hc (by simp [hst, Stage.opens]) (by simp) (by simp [hy', Reader.waits])
    | start hc hst _ hreader hy' =>
      refine opened hc (by simp [hst, Stage.opens]) (by simp) ?_
      rcases hreader with rfl | rfl <;> simp [hy', Reader.waits]

theorem calls_step (hl : s.Line) (step : MoveStep setup s m t) (i : CallId) :
    Ticket.call i ∈ t.bus.line ↔ t.stage? i = some .posting := by
  by_cases hm : m = .act (.call i)
  · subst hm
    cases step with
    | call hc step => exact step.mem_line hc (hl.calls i)
  · have hmem : Ticket.call i ∈ t.bus.line ↔ Ticket.call i ∈ s.bus.line :=
      step.busStep.mem_line hm
    rw [hmem, hl.calls]
    rcases step.stage?_of_ne hm with heq | ⟨hs, p, n, ht⟩ | ⟨hs, ⟨o, ht⟩ | ⟨e, ht⟩⟩
    · rw [heq]
    · rw [hs, ht]
      cases p <;> simp [Purpose.start]
    · simp [hs, ht]
    · simp [hs, ht]

end Line

/-- In every run those who wait in line are exactly the readers and the calls that have a message
to post. -/
theorem line_of_run (run : Run setup busCapacity h s) : s.Line := by
  induction run with
  | nil =>
    refine ⟨fun e => iff_of_false List.not_mem_nil ?_, fun i => iff_of_false List.not_mem_nil ?_⟩
    · simp [Relay.empty]
    · simp [stage?, Relay.empty]
  | snoc run hm ih =>
    have step := run.moveStep hm
    exact ⟨ih.readers_step (opening_of_run run) step, ih.calls_step step⟩

/-! ### Nobody waits in vain -/

/-- Only a call that delivers a message gets in line. -/
theorem purpose_of_posting (run : Run setup busCapacity h s) (hc : s.calls[i]? = some c)
    (hst : c.stage = .posting) : ∃ msg, c.purpose = .deliver msg := by
  refine stage_of_run (P := fun p stage => stage = .joining ∨ stage = .posting →
    ∃ msg, p = .deliver msg) ?_ ?_ run hc
    (.inr hst)
  · intro p n hp
    cases p with
    | deliver msg => exact ⟨msg, rfl⟩
    | _ => simp [Purpose.start] at hp
  · intro p old new hold hnext hnew
    refine hold ?_
    rcases hnew with rfl | rfl
    · exact absurd rfl hnext.ne_joining
    · exact .inl hnext.eq_joining

/-- The first in line can move if there is room, or nobody receives any more. -/
theorem Line.step?_ne_none (hl : s.Line) (run : Run setup busCapacity h s)
    (hroom : s.bus.closed = true ∨ s.bus.queue.length < s.bus.capacity) {a : Actor}
    (hhead : s.bus.line.head? = some a.ticket) : s.step? setup a ≠ none := by
  have hmem : a.ticket ∈ s.bus.line := List.mem_of_mem_head? (Option.mem_def.mpr hhead)
  have hmay : s.bus.closed = false → s.bus.mayPost a.ticket = true := by
    intro hopen
    have hlt := hroom.resolve_left (by simp [hopen])
    simp only [Bus.mayPost, hhead, hlt, decide_true, Bool.true_and]
  cases a with
  | reader e =>
    obtain ⟨x, hx, hw⟩ := (hl.readers e).mp hmem
    -- it posts, or gives its message up if nobody receives any more
    rw [step?, hx, Option.bind_some, stepReader]
    cases hr : x.reader with
    | delivering msg chunk =>
      cases hopen : s.bus.closed with
      | true => simp
      | false =>
        have hmay' : s.bus.mayPost (.reader e) = true := hmay hopen
        simp only [hmay']
        split <;> simp
    | notifying msg =>
      cases hopen : s.bus.closed with
      | true => simp
      | false =>
        have hmay' : s.bus.mayPost (.reader e) = true := hmay hopen
        simp [hmay']
    | _ => simp [hr, Reader.waits] at hw
  | call i =>
    obtain ⟨c, hc, hst⟩ := Option.map_eq_some_iff.mp ((hl.calls i).mp hmem)
    obtain ⟨msg, hp⟩ := purpose_of_posting run hc hst
    rw [step?, hc, Option.bind_some, stepCall, hst, hp]
    cases hopen : s.bus.closed with
    | true => simp [stepPost, hopen]
    | false =>
      have hmay' : s.bus.mayPost (.call i) = true := hmay hopen
      simp [stepPost, hopen, hmay']

/-- When nobody can move, nobody waits in line, or the bus is full and somebody receives from it. -/
theorem Quiet.line_eq_nil_or_full (quiet : s.Quiet setup) (run : Run setup busCapacity h s) :
    s.bus.line = [] ∨ s.bus.closed = false ∧ s.bus.capacity ≤ s.bus.queue.length := by
  cases hl : s.bus.line with
  | nil => exact .inl rfl
  | cons ticket line =>
    obtain ⟨a, rfl⟩ : ∃ a : Actor, ticket = a.ticket := by
      cases ticket with
      | reader e => exact ⟨.reader e, rfl⟩
      | call i => exact ⟨.call i, rfl⟩
    have stuck (hroom : s.bus.closed = true ∨ s.bus.queue.length < s.bus.capacity) : False :=
      (line_of_run run).step?_ne_none run hroom (by rw [hl]; rfl) (quiet a)
    exact .inr ⟨Bool.eq_false_iff.mpr fun hclosed => stuck (.inl hclosed),
      Nat.le_of_not_lt fun hlt => stuck (.inr hlt)⟩

/-- When nobody can move and nothing is on the way, nobody waits in line. -/
theorem Quiet.line_eq_nil (quiet : s.Quiet setup) (run : Run setup busCapacity h s)
    (hq : s.bus.queue = []) : s.bus.line = [] := by
  refine (quiet.line_eq_nil_or_full run).resolve_right fun ⟨_, hfull⟩ => ?_
  have hcap := (roomy_of_run run).capacity_eq
  rw [hq, List.length_nil] at hfull
  omega

end Relay

end StompRelay
