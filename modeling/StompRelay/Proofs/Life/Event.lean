import Mathlib.Algebra.Ring.Nat
import StompRelay.Relay.History
/-!
# Lives of sessions

The life of a session begins when a call registers it, and ends when a reader or a call takes it out
of the register, alone or with all others. These events are read off a history from what the
register answered to those who asked, and counted.

## Main definitions

* `LifeEvent` — lives begin or end
* `Relay.Transition.life?`, `Relay.lifeEvents` — what happened in a step and in a history
* `Relay.creations`, `Relay.teardowns`, `Relay.clearances`, `Relay.endedBy` — how often
* `Relay.lives`, `Relay.Alternating` — the lives under one id, and their order

## Main results

* `Relay.filterMap_lifeEvents_snoc`, `Relay.lives_snoc` — what one step adds
-/

namespace StompRelay

/-- Lives of sessions begin or end. -/
inductive LifeEvent where
  /-- A call to register a session under an id succeeds. -/
  | created (id : SessionId) (e : Place)
  /-- A call to end the session under an id finds it. -/
  | ended (id : SessionId) (e : Place)
  /-- A call to end all sessions finds these and counts so many. -/
  | cleared (entries : List (SessionId × Place)) (count : Nat)
  deriving DecidableEq, Repr

/-- The life of a session under some id begins or ends. -/
inductive Life where
  | begins (e : Place)
  | ends (e : Place)
  deriving DecidableEq, Repr

namespace LifeEvent

/-- The session that is registered, and its id. -/
def creation? : LifeEvent → Option (SessionId × Place)
  | created id e => some (id, e)
  | _ => none

/-- The session that is ended alone, and its id. -/
def teardown? : LifeEvent → Option (SessionId × Place)
  | ended id e => some (id, e)
  | _ => none

/-- How many sessions are counted when all are ended. -/
def clearance? : LifeEvent → Option Nat
  | cleared _ count => some count
  | _ => none

/-- How many lives end. -/
def ends : LifeEvent → Nat
  | created _ _ => 0
  | ended _ _ => 1
  | cleared _ count => count

/-- What happens under an id. -/
def lives (id : SessionId) : LifeEvent → List Life
  | created id' e => if id' = id then [.begins e] else []
  | ended id' e => if id' = id then [.ends e] else []
  | cleared entries _ => (entries.lookup id).toList.map .ends

end LifeEvent

/-- What a call with an id does to lives when it moves from one stage to another, where `entries`
were registered. -/
def Stage.life? (id : SessionId) (entries : List (SessionId × Place)) :
    Stage → Stage → Option LifeEvent
  | .registering e, .starting _ => some (.created id e)
  | .failing e _, .closing _ _ _ => some (.ended id e)
  | .removing _ _ _, .closing (e :: _) _ _ => some (.ended id e)
  | .clearing, .closing _ (.ended count) _ => some (.cleared entries count)
  | _, _ => none

/-- Whether a reader that moves from one stage to another has ended its session. -/
def Reader.ends : Reader → Reader → Bool
  | .ending, .shutting => true
  | _, _ => false

namespace Relay

/-- What a step does to lives. -/
def Transition.life? (τ : Transition) : Option LifeEvent :=
  match τ.move with
  | .act (.reader e) =>
    τ.before.sessions[e]?.bind fun x => τ.after.sessions[e]?.bind fun y =>
      if x.reader.ends y.reader then some (.ended x.id e) else none
  | .act (.call i) =>
    τ.before.calls[i]?.bind fun c => (τ.after.stage? i).bind fun new =>
      c.stage.life? c.purpose.id τ.before.registry new
  | _ => none

/-- What happened to lives. -/
def lifeEvents (h : History) : List LifeEvent := h.filterMap Transition.life?

/-- The sessions that were registered, and their ids. -/
def creations (h : History) : List (SessionId × Place) :=
  (lifeEvents h).filterMap LifeEvent.creation?

/-- The sessions that were ended alone, and their ids. -/
def teardowns (h : History) : List (SessionId × Place) :=
  (lifeEvents h).filterMap LifeEvent.teardown?

/-- How many sessions were counted each time all were ended. -/
def clearances (h : History) : List Nat := (lifeEvents h).filterMap LifeEvent.clearance?

/-- How many sessions somebody has ended. -/
def endedBy (a : Actor) (h : History) : Nat :=
  ((lifeEvents (h.filter (Transition.isOf a))).map LifeEvent.ends).sum

/-- The lives under an id, in order. -/
def lives (id : SessionId) (h : History) : List Life := (lifeEvents h).flatMap (LifeEvent.lives id)

/-- Lives that begin and end by turns, each one that ends being the one that began last; and the
one that has not ended. -/
inductive Alternating : List Life → Option Place → Prop where
  | nil : Alternating [] none
  | begins {ls : List Life} {e : Place} : Alternating ls none →
    Alternating (ls ++ [.begins e]) (some e)
  | ends {ls : List Life} {e : Place} : Alternating ls (some e) → Alternating (ls ++ [.ends e]) none

section Snoc

variable {s t : Relay} {h : History} {m : Move} {τ : Transition} {a : Actor} {i : CallId} {c : Call}
  {new : Stage} {id : SessionId}

theorem lifeEvents_snoc (h : History) (τ : Transition) :
    lifeEvents (h ++ [τ]) = lifeEvents h ++ τ.life?.toList := by
  cases hlife : τ.life? <;> simp [lifeEvents, hlife]

/-- What one step adds to some of the events. -/
theorem filterMap_lifeEvents_snoc {α : Type} (f : LifeEvent → Option α) (h : History)
    (τ : Transition) :
    (lifeEvents (h ++ [τ])).filterMap f
      = (lifeEvents h).filterMap f ++ (τ.life?.bind f).toList := by
  rw [lifeEvents_snoc, List.filterMap_append]
  cases τ.life? with
  | none => rfl
  | some event => cases hf : f event <;> simp [hf]

theorem lives_snoc (id : SessionId) (h : History) (τ : Transition) :
    lives id (h ++ [τ]) = lives id h ++ τ.life?.toList.flatMap (LifeEvent.lives id) := by
  rw [lives, lifeEvents_snoc, List.flatMap_append, lives]

/-- What others end is not ended by somebody. -/
theorem endedBy_snoc_of_ne (hm : m ≠ .act a) :
    endedBy a (h ++ [⟨s, m, t⟩]) = endedBy a h := by
  have hisOf : Transition.isOf a ⟨s, m, t⟩ = false := Transition.isOf_eq_false hm
  simp [endedBy, hisOf]

theorem endedBy_snoc (hτ : τ.isOf a = true) :
    endedBy a (h ++ [τ]) = endedBy a h + (τ.life?.map LifeEvent.ends).getD 0 := by
  have hfilter : (h ++ [τ]).filter (Transition.isOf a) = h.filter (Transition.isOf a) ++ [τ] := by
    simp [hτ]
  rw [endedBy, hfilter, lifeEvents_snoc, List.map_append, List.sum_append, endedBy]
  cases τ.life? <;> simp

/-- What a step of a call does to lives is seen from its stages. -/
theorem life?_call (hc : s.calls[i]? = some c) (hnew : t.stage? i = some new) :
    Transition.life? ⟨s, .act (.call i), t⟩ = c.stage.life? c.purpose.id s.registry new := by
  simp [Transition.life?, hc, hnew]

end Snoc

end Relay

end StompRelay
