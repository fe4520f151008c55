import StompRelay.Relay.Step
/-!
# Histories

A run with all that happened in it: the moves, in order, each with the states before and after it.
What somebody did in a run is read off its history.

## Main definitions

* `Relay.Transition`, `Relay.History` — one step of a run, and all of them in order
* `Relay.Path`, `Relay.Run` — the histories from one state to another, and from the start
* `Relay.trace?` — the history of given moves
* `Relay.posts`, `Relay.postedBy` — what was put on the bus, and by whom
* `Relay.receipts` — what was received from the bus

## Main results

* `Relay.reachable_iff_exists_run` — the reachable states are those to which a history leads
* `Relay.Path.append`, `Relay.Path.cases_head` — histories can be put together, and taken apart at
  the first move
* `Relay.path_of_trace?` — the history of given moves is one
-/

namespace StompRelay.Relay

/-- One step of a run. -/
structure Transition where
  before : Relay
  move : Move
  after : Relay

/-- Whether a step is somebody's. -/
def Transition.isOf (a : Actor) (τ : Transition) : Bool :=
  match τ.move with
  | .act b => b = a
  | _ => false

theorem Transition.isOf_iff {a : Actor} {τ : Transition} :
    τ.isOf a = true ↔ τ.move = .act a := by
  obtain ⟨_, m, _⟩ := τ
  cases m <;> simp [isOf]

theorem Transition.isOf_eq_false {s t : Relay} {m : Move} {a : Actor} (hm : m ≠ .act a) :
    Transition.isOf a ⟨s, m, t⟩ = false :=
  Bool.eq_false_iff.mpr fun hof => hm (isOf_iff.mp hof)

/-- The steps of a run, in order. -/
abbrev History := List Transition

/-- The histories that lead from one state to another. -/
inductive Path (setup : Setup) (s : Relay) : History → Relay → Prop where
  | nil : Path setup s [] s
  | snoc {h : History} {t u : Relay} {m : Move} : Path setup s h t → t.move? setup m = some u →
    Path setup s (h ++ [⟨t, m, u⟩]) u

/-- The histories that lead to a state from a relay at its start. -/
abbrev Run (setup : Setup) (busCapacity : Nat) : History → Relay → Prop :=
  Path setup (.empty busCapacity)

/-- The history of the given moves, and the state to which they lead; none where one of them is not
possible. -/
def trace? (setup : Setup) (s : Relay) : List Move → Option (History × Relay)
  | [] => some ([], s)
  | m :: ms =>
    match s.move? setup m with
    | none => none
    | some t => (t.trace? setup ms).map fun (h, u) => (⟨s, m, t⟩ :: h, u)

section Paths

variable {setup : Setup} {busCapacity : Nat} {s t u : Relay} {h k : History}

/-- Histories can be put together. -/
theorem Path.append (first : Path setup s h t) (second : Path setup t k u) :
    Path setup s (h ++ k) u := by
  induction second with
  | nil => simpa using first
  | snoc _ hm ih =>
    rw [← List.append_assoc]
    exact .snoc ih hm

/-- A move comes before a history. -/
theorem Path.cons {m : Move} (hm : s.move? setup m = some t) (path : Path setup t k u) :
    Path setup s (⟨s, m, t⟩ :: k) u :=
  (Path.snoc .nil hm).append path

/-- A history is empty or begins with a move. -/
theorem Path.cases_head (path : Path setup s h u) : h = [] ∧ u = s
    ∨ ∃ m t k, s.move? setup m = some t ∧ h = ⟨s, m, t⟩ :: k ∧ Path setup t k u := by
  induction path with
  | nil => exact .inl ⟨rfl, rfl⟩
  | @snoc h v w m path hm ih =>
    rcases ih with ⟨rfl, rfl⟩ | ⟨m', t, k, hm', rfl, hrest⟩
    · exact .inr ⟨m, w, [], hm, rfl, .nil⟩
    · exact .inr ⟨m', t, _, hm', rfl, .snoc hrest hm⟩

/-- The history of given moves is one. -/
theorem path_of_trace? (ms : List Move) (htrace : s.trace? setup ms = some (h, t)) :
    Path setup s h t := by
  induction ms generalizing s h with
  | nil =>
    cases htrace
    exact .nil
  | cons m ms ih =>
    unfold trace? at htrace
    split at htrace
    · cases htrace
    · rename_i u hm
      obtain ⟨⟨k, v⟩, hk, heq⟩ := Option.map_eq_some_iff.mp htrace
      cases heq
      exact (ih hk).cons hm

/-- A state is reachable exactly if a history leads to it. -/
theorem reachable_iff_exists_run :
    Reachable setup busCapacity s ↔ ∃ h, Run setup busCapacity h s := by
  constructor
  · intro hs
    induction hs with
    | empty => exact ⟨[], .nil⟩
    | step _ hstep ih =>
      obtain ⟨h, run⟩ := ih
      obtain ⟨m, hm⟩ := hstep
      exact ⟨_, .snoc run hm⟩
  · rintro ⟨h, run⟩
    induction run with
    | nil => exact .empty
    | snoc _ hm ih => exact .step ih ⟨_, hm⟩

end Paths

/-! ### The bus in a history -/

/-- What a step puts on the bus, and whose it is. -/
def Transition.posts (τ : Transition) : List (Actor × Message) :=
  match τ.move with
  | .act a => (τ.after.bus.posted.drop τ.before.bus.posted.length).map fun m => (a, m)
  | _ => []

/-- What was put on the bus, in order, and by whom. -/
def posts (h : History) : List (Actor × Message) := h.flatMap Transition.posts

/-- What somebody put on the bus, in order. -/
def postedBy (a : Actor) (h : History) : List Message :=
  (posts h).filterMap fun p => if p.1 = a then some p.2 else none

/-- What a step receives from the bus. -/
def Transition.receipt? (τ : Transition) : Option Message :=
  match τ.move with
  | .receive => τ.before.bus.queue.head?
  | _ => none

/-- What was received from the bus, in order. -/
def receipts (h : History) : List Message := h.filterMap Transition.receipt?

end StompRelay.Relay
