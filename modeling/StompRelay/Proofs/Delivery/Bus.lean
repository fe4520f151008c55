import StompRelay.Proofs.Sound
/-!
# The bus in a run

Readers and calls get in line for the bus, leave the line, and post when it is their turn; the
receiver takes what was posted first. So the bus never holds more than it may, and what is received
is the start of what was posted.

## Main definitions

* `Relay.Actor.ticket` — with what a reader or a call waits in line
* `Relay.BusStep` — what a move can do to the bus

## Main results

* `Relay.MoveStep.busStep` — every step does one of these
* `Relay.length_queue_le` — the bus never holds more than it may
* `Relay.posted_of_run`, `Relay.receipts_prefix_posts` — messages are received in the order in
  which they were posted
-/

namespace StompRelay.Relay

/-- With what a reader or a call waits in line for the bus. -/
def Actor.ticket : Actor → Ticket
  | reader e => .reader e
  | call i => .call i

variable {setup : Setup} {busCapacity : Nat} {s t : Relay} {h : History} {m : Move} {e : Place}
  {i : CallId} {c : Call} {x : Session}

/-- What a move can do to the bus. -/
inductive BusStep (s t : Relay) : Move → Prop where
  /-- It leaves the bus alone. -/
  | rest {m : Move} : m ≠ .receive → t.bus = s.bus → BusStep s t m
  /-- Somebody gets in line. -/
  | join {a : Actor} : t.bus = s.bus.join a.ticket → BusStep s t (.act a)
  /-- Somebody leaves the line. -/
  | leave {a : Actor} : t.bus = s.bus.leave a.ticket → BusStep s t (.act a)
  /-- Somebody whose turn it is posts a message. -/
  | post {a : Actor} {m : Message} : s.bus.closed = false → s.bus.mayPost a.ticket = true →
    t.bus = s.bus.post a.ticket m → BusStep s t (.act a)
  /-- The next message is received. -/
  | receive {m : Message} {queue : List Message} : s.bus.queue = m :: queue →
    t.bus = { s.bus with received := m :: s.bus.received, queue := queue } → BusStep s t .receive
  /-- The receiver goes. -/
  | drop : t.bus = s.bus.drop → BusStep s t .dropBus

theorem ReaderStep.busStep (step : ReaderStep setup s e x t) :
    BusStep s t (.act (.reader e)) := by
  cases step with
  | overflow | reject | offer | lose | fail => exact .join rfl
  | abandon | hush => exact .leave rfl
  | post _ _ hopen hmay => exact .post hopen hmay rfl
  | announce _ hopen hmay => exact .post hopen hmay rfl
  | _ => exact .rest (by simp) rfl

theorem CallStep.busStep (step : CallStep setup s i c t) : BusStep s t (.act (.call i)) := by
  cases step with
  | join => exact .join rfl
  | refrain => exact .leave rfl
  | post _ _ hopen hmay => exact .post hopen hmay rfl
  | clear => exact .rest (by simp) (bus_cancelAll _)
  | _ => exact .rest (by simp) rfl

/-- Every move does one of these things to the bus. -/
theorem MoveStep.busStep (step : MoveStep setup s m t) : BusStep s t m := by
  cases step with
  | reader _ step => exact step.busStep
  | call _ step => exact step.busStep
  | receive hq => exact .receive hq rfl
  | dropBus => exact .drop rfl
  | _ => exact .rest (by simp) rfl

/-- A receiver that has gone does not come back. -/
theorem BusStep.closed (step : BusStep s t m) (hc : s.bus.closed = true) :
    t.bus.closed = true := by
  cases step with
  | rest _ hb | join hb | leave hb | post _ _ hb | receive _ hb => rw [hb]; exact hc
  | drop hb => rw [hb]; rfl

/-! ### Room -/

/-- The bus has room for at least one message, holds no more than it may, and holds nothing when
nobody receives any more. -/
structure Roomy (capacity : Nat) (b : Bus) : Prop where
  capacity_eq : b.capacity = max 1 capacity
  length_le : b.queue.length ≤ max 1 capacity
  closed : b.closed = true → b.queue = []

theorem BusStep.roomy (hr : Roomy busCapacity s.bus) (step : BusStep s t m) :
    Roomy busCapacity t.bus := by
  obtain ⟨hcap, hlen, hclosed⟩ := hr
  cases step with
  | rest _ hb | join hb | leave hb => rw [hb]; exact ⟨hcap, hlen, hclosed⟩
  | post hopen hmay hb =>
    rw [hb]
    refine ⟨hcap, ?_, fun hc => absurd (hopen.symm.trans hc) Bool.false_ne_true⟩
    simp only [Bus.mayPost, Bool.and_eq_true, decide_eq_true_eq, hcap] at hmay
    simpa [Bus.post] using Nat.succ_le_of_lt hmay.2
  | receive hq hb =>
    rw [hb]
    refine ⟨hcap, ?_, ?_⟩
    · rw [hq, List.length_cons] at hlen
      exact Nat.le_of_succ_le hlen
    · intro hc
      rw [hclosed hc] at hq
      cases hq
  | drop hb =>
    rw [hb]
    exact ⟨hcap, Nat.zero_le _, fun _ => rfl⟩

theorem roomy_of_run (run : Run setup busCapacity h s) : Roomy busCapacity s.bus := by
  induction run with
  | nil => exact ⟨rfl, Nat.zero_le _, fun _ => rfl⟩
  | snoc run hm ih => exact (run.moveStep hm).busStep.roomy ih

/-- The bus never holds more than it may. -/
theorem length_queue_le (run : Run setup busCapacity h s) :
    s.bus.queue.length ≤ max 1 busCapacity :=
  (roomy_of_run run).length_le

/-! ### Order -/

/-- What a step posts is what is on the record after it and was not before. -/
theorem BusStep.posted (step : BusStep s t m) :
    t.bus.posted = s.bus.posted ++ (Transition.posts ⟨s, m, t⟩).map Prod.snd := by
  have act {a : Actor} {ms : List Message} (hp : t.bus.posted = s.bus.posted ++ ms) :
      t.bus.posted
        = s.bus.posted ++ (Transition.posts ⟨s, .act a, t⟩).map Prod.snd := by
    simp [Transition.posts, hp, Function.comp_def]
  have still {a : Actor} (hp : t.bus.posted = s.bus.posted) :
      t.bus.posted
        = s.bus.posted ++ (Transition.posts ⟨s, .act a, t⟩).map Prod.snd := by
    have hp' : t.bus.posted = s.bus.posted ++ [] := by rw [hp, List.append_nil]
    exact act hp'
  cases step with
  | @rest m hm hb =>
    cases m with
    | act a => exact still (by rw [hb])
    | _ => simp [Transition.posts, hb]
  | join hb => exact still (by simp [hb, Bus.posted, Bus.join])
  | leave hb => exact still (by simp [hb, Bus.posted, Bus.leave])
  | post _ _ hb => exact act (by rw [hb, Bus.posted_post])
  | receive hq hb => simp [Transition.posts, hb, Bus.posted, hq]
  | drop hb => simp [Transition.posts, hb]

/-- The bus knows all that was posted in a run, in order. -/
theorem posted_of_run (run : Run setup busCapacity h s) :
    s.bus.posted = (posts h).map Prod.snd := by
  induction run with
  | nil => rfl
  | snoc run hm ih =>
    rw [(run.moveStep hm).busStep.posted, ih, posts, posts]
    simp

/-- While there is a receiver, it has received what is not on the way. -/
theorem receipts_of_run (run : Run setup busCapacity h s) :
    receipts h <+: s.bus.received.reverse
      ∧ (s.bus.closed = false → receipts h = s.bus.received.reverse) := by
  induction run with
  | nil => exact ⟨List.prefix_rfl, fun _ => rfl⟩
  | @snoc h s t m run hm ih =>
    have hclosed := (roomy_of_run run).closed
    have same (hr : t.bus.received = s.bus.received) (hc : t.bus.closed = s.bus.closed)
        (hn : Transition.receipt? ⟨s, m, t⟩ = none) :
        receipts (h ++ [⟨s, m, t⟩]) <+: t.bus.received.reverse
          ∧ (t.bus.closed = false →
            receipts (h ++ [⟨s, m, t⟩]) = t.bus.received.reverse) := by
      have heq : receipts (h ++ [⟨s, m, t⟩]) = receipts h := by simp [receipts, hn]
      rw [heq, hr, hc]
      exact ih
    cases (run.moveStep hm).busStep with
    | rest hne hb =>
      refine same (by rw [hb]) (by rw [hb]) ?_
      unfold Transition.receipt?
      split
      · rename_i heq
        exact absurd heq hne
      · rfl
    | join hb | leave hb | post _ _ hb => exact same (by rw [hb]; rfl) (by rw [hb]; rfl) rfl
    | @receive msg queue hq hb =>
      have hopen : s.bus.closed = false := by
        rw [← Bool.not_eq_true]
        intro hc
        rw [hclosed hc] at hq
        cases hq
      have heq : receipts (h ++ [⟨s, .receive, t⟩]) = t.bus.received.reverse := by
        rw [receipts, List.filterMap_append, hb, List.reverse_cons, ← ih.2 hopen]
        simp [Transition.receipt?, hq, receipts]
      exact ⟨heq ▸ List.prefix_rfl, fun _ => heq⟩
    | drop hb =>
      have heq : receipts (h ++ [⟨s, .dropBus, t⟩]) = receipts h := by
        simp [receipts, Transition.receipt?]
      rw [heq, hb]
      -- what was on the way is on the record, though nobody gets it
      refine ⟨ih.1.trans ?_, fun hc => by cases hc⟩
      rw [Bus.drop, List.reverse_append]
      exact List.prefix_append _ _

/-- Messages are received in the order in which they were posted, each once. -/
theorem receipts_prefix_posts (run : Run setup busCapacity h s) :
    receipts h <+: (posts h).map Prod.snd := by
  rw [← posted_of_run run, Bus.posted]
  exact (receipts_of_run run).1.trans (List.prefix_append _ _)

end StompRelay.Relay
