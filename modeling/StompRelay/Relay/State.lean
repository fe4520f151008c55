import StompRelay.Relay.Call
import StompRelay.Relay.Session
/-!
# The state of the relay

All sessions that ever were, the register of those that live, the bus, and all calls that were ever
started. Sessions and calls are known by their places in the lists. Besides, every session draws a
number from a counter when it is opened, and whoever ends one session of an id and no other asks for
it by this number.

## Main definitions

* `Relay` — the state
* `Relay.registered?` — the session that lives under an id
* `Relay.stage?`, `Relay.outcome?` — how far a call is, and how it ended
* `Relay.released` — whether the relay has dropped its end of a connection
* `Relay.endedByRelay` — whether the broker finds the end of the stream after what was sent

## Main results

* `Relay.teardown?_eq_some_iff`, `Relay.teardown?_eq_none_iff` — when a session is ended
-/

namespace StompRelay

/-- The state of the relay. -/
structure Relay where
  /-- All sessions that ever were, by place. -/
  sessions : List Session
  /-- The sessions that live, under the ids of their clients. -/
  registry : List (SessionId × Place)
  bus : Bus
  /-- All calls that were ever started, by number. -/
  calls : List Call
  /-- The number that the next session draws. -/
  nextEpoch : Epoch

namespace Relay

/-- A relay at its start. -/
def empty (busCapacity : Nat) : Relay := ⟨[], [], .empty busCapacity, [], 0⟩

/-! ### Looking things up -/

/-- The session that lives under an id. -/
def registered? (s : Relay) (id : SessionId) : Option Place := s.registry.lookup id

/-- The ids under which sessions live. -/
def ids (s : Relay) : List SessionId := s.registry.map Prod.fst

/-- The number of a session. -/
def epoch? (s : Relay) (e : Place) : Option Epoch := s.sessions[e]?.map Session.epoch

/-- The places of the sessions that live. -/
def registeredPlaces (s : Relay) : List Place := s.registry.map Prod.snd

/-- How far a call is. -/
def stage? (s : Relay) (i : CallId) : Option Stage := s.calls[i]?.map Call.stage

/-- How a call ended, once it has. -/
def outcome? (s : Relay) (i : CallId) : Option Outcome :=
  s.calls[i]?.bind fun c => c.stage.outcome?

/-- Whether something in the relay, or somebody outside it, keeps a session: it lives, it is held,
or a call uses it. -/
def kept (s : Relay) (e : Place) : Bool :=
  s.registeredPlaces.contains e || s.sessions[e]?.any Session.held
    || s.calls.any fun c => c.stage.keeps e

/-- Whether the relay has dropped its end of a connection: nothing keeps the session, and its input
has been given up. -/
def released (s : Relay) (e : Place) : Bool :=
  !s.kept e && s.sessions[e]?.all fun x => !x.reader.holdsInput

/-- Whether the broker finds the end of the stream after what was sent. -/
def endedByRelay (s : Relay) (e : Place) : Bool :=
  s.sessions[e]?.any Session.shut || s.released e

/-! ### Changing one thing -/

/-- Changes one session. -/
def modifySession (s : Relay) (e : Place) (f : Session → Session) : Relay :=
  { s with sessions := s.sessions.modify e f }

/-- Changes the reader of a session. -/
def setReader (s : Relay) (e : Place) (r : Reader) : Relay :=
  s.modifySession e fun x => { x with reader := r }

/-- Moves a call to another stage. -/
def setStage (s : Relay) (i : CallId) (stage : Stage) : Relay :=
  { s with calls := s.calls.modify i fun c => { c with stage := stage } }

/-- Fires the close signals of sessions. -/
def cancelAll (s : Relay) (es : List Place) : Relay :=
  es.foldl (fun s e => s.modifySession e Session.cancel) s

/-- Ends the life of the session under an id: its close signal fires and its entry goes. -/
def unregister (s : Relay) (id : SessionId) (e : Place) : Relay :=
  -- the signal first, so that no session without it is outside the register
  { s.modifySession e Session.cancel with registry := s.registry.filter (·.1 ≠ id) }

/-- Ends the life of the session under an id, but only if it has the number asked for, if any; its
place. -/
def teardown? (s : Relay) (id : SessionId) (only : Option Epoch) : Option (Place × Relay) :=
  match s.registered? id with
  | some e => if only.all (s.epoch? e = some ·) then some (e, s.unregister id e) else none
  | none => none

/-- Opens a session over a new connection. It draws the next number. -/
def openSession (s : Relay) (id : SessionId) (capacity : Nat) : Relay :=
  { s with
    sessions := s.sessions ++ [.new id s.nextEpoch capacity]
    nextEpoch := s.nextEpoch + 1 }

/-! ### What a change leaves alone -/

section Changes

variable {s : Relay} {e e' : Place} {i j : CallId} {f : Session → Session} {stage : Stage}

theorem getElem?_modifySession :
    (s.modifySession e f).sessions[e']?
      = if e = e' then s.sessions[e']?.map f else s.sessions[e']? := by
  rw [modifySession, List.getElem?_modify]
  by_cases h : e = e'
  · simp [h]
  · simp [h]

theorem getElem?_modifySession_self {x : Session} (hx : s.sessions[e]? = some x) :
    (s.modifySession e f).sessions[e]? = some (f x) := by
  rw [getElem?_modifySession, if_pos rfl, hx, Option.map_some]

/-- What becomes of a session that is changed. -/
theorem eq_of_modifySession {x y : Session} (hx : s.sessions[e]? = some x)
    (hy : (s.modifySession e f).sessions[e]? = some y) : y = f x :=
  Option.some.inj (hy.symm.trans (getElem?_modifySession_self hx))

theorem getElem?_modifySession_of_ne (h : e ≠ e') :
    (s.modifySession e f).sessions[e']? = s.sessions[e']? := by
  rw [getElem?_modifySession, if_neg h]

/-- What becomes of a session when some session is changed. -/
theorem eq_or_of_modifySession {t : Relay} {x y : Session} (hx : s.sessions[e]? = some x)
    (ht : t.sessions = (s.modifySession e' f).sessions) (hy : t.sessions[e]? = some y) :
    y = x ∨ e' = e ∧ y = f x := by
  rw [ht, getElem?_modifySession, hx] at hy
  by_cases he : e' = e
  · rw [if_pos he] at hy
    exact .inr ⟨he, (Option.some.inj hy).symm⟩
  · rw [if_neg he] at hy
    exact .inl (Option.some.inj hy).symm

@[simp] theorem length_modifySession :
    (s.modifySession e f).sessions.length = s.sessions.length := by
  simp [modifySession]

@[simp] theorem calls_modifySession : (s.modifySession e f).calls = s.calls := rfl

@[simp] theorem registry_modifySession : (s.modifySession e f).registry = s.registry := rfl

@[simp] theorem bus_modifySession : (s.modifySession e f).bus = s.bus := rfl

@[simp] theorem sessions_setStage : (s.setStage i stage).sessions = s.sessions := rfl

@[simp] theorem registry_setStage : (s.setStage i stage).registry = s.registry := rfl

@[simp] theorem bus_setStage : (s.setStage i stage).bus = s.bus := rfl

theorem getElem?_setStage :
    (s.setStage i stage).calls[j]?
      = if i = j then s.calls[j]?.map fun c => { c with stage := stage } else s.calls[j]? := by
  rw [setStage, List.getElem?_modify]
  by_cases h : i = j
  · simp [h]
  · simp [h]

@[simp] theorem calls_unregister (id : SessionId) : (s.unregister id e).calls = s.calls := rfl

@[simp] theorem bus_unregister (id : SessionId) : (s.unregister id e).bus = s.bus := rfl

@[simp] theorem registry_unregister (id : SessionId) :
    (s.unregister id e).registry = s.registry.filter (·.1 ≠ id) := rfl

@[simp] theorem sessions_unregister (id : SessionId) :
    (s.unregister id e).sessions = (s.modifySession e Session.cancel).sessions := rfl

/-- What becomes of a session that its reader ends. -/
theorem eq_of_unregister {x y : Session} {id : SessionId} {r : Reader}
    (hx : s.sessions[e]? = some x)
    (hy : ((s.unregister id e).setReader e r).sessions[e]? = some y) :
    y = { x.cancel with reader := r } :=
  eq_of_modifySession (getElem?_modifySession_self hx) hy

@[simp] theorem sessions_openSession (id : SessionId) (capacity : Nat) :
    (s.openSession id capacity).sessions = s.sessions ++ [.new id s.nextEpoch capacity] := rfl

theorem cancelAll_cons (es : List Place) :
    s.cancelAll (e :: es) = (s.modifySession e Session.cancel).cancelAll es := rfl

@[simp] theorem calls_cancelAll (es : List Place) : (s.cancelAll es).calls = s.calls := by
  induction es generalizing s with
  | nil => rfl
  | cons e es ih => rw [cancelAll_cons, ih, calls_modifySession]

@[simp] theorem bus_cancelAll (es : List Place) : (s.cancelAll es).bus = s.bus := by
  induction es generalizing s with
  | nil => rfl
  | cons e es ih => rw [cancelAll_cons, ih, bus_modifySession]

@[simp] theorem length_cancelAll (es : List Place) :
    (s.cancelAll es).sessions.length = s.sessions.length := by
  induction es generalizing s with
  | nil => rfl
  | cons e es ih => rw [cancelAll_cons, ih, length_modifySession]

theorem getElem?_cancelAll (es : List Place) :
    (s.cancelAll es).sessions[e]?
      = if e ∈ es then s.sessions[e]?.map Session.cancel else s.sessions[e]? := by
  induction es generalizing s with
  | nil => simp [cancelAll]
  | cons e' es ih =>
    rw [cancelAll_cons, ih, getElem?_modifySession]
    by_cases h : e' = e
    · subst h
      by_cases hm : e' ∈ es
      · simp only [hm, if_true, List.mem_cons_self, Option.map_map]
        rfl
      · simp [hm]
    · simp [h, Ne.symm h]

theorem getElem?_cancelAll_of_mem {es : List Place} {x : Session} (he : e ∈ es)
    (hx : s.sessions[e]? = some x) : (s.cancelAll es).sessions[e]? = some x.cancel := by
  rw [getElem?_cancelAll, if_pos he, hx, Option.map_some]

theorem getElem?_cancelAll_of_notMem {es : List Place} (he : e ∉ es) :
    (s.cancelAll es).sessions[e]? = s.sessions[e]? := by
  rw [getElem?_cancelAll, if_neg he]

/-- A session under an id is ended exactly if one lives there and it has the number asked for. -/
theorem teardown?_eq_some_iff {id : SessionId} {only : Option Epoch} {t : Relay} :
    s.teardown? id only = some (e, t)
      ↔ s.registered? id = some e ∧ only.all (s.epoch? e = some ·) ∧ t = s.unregister id e := by
  unfold teardown?
  split
  · rename_i e' h
    by_cases ho : only.all (s.epoch? e' = some ·)
    · rw [if_pos ho, Option.some.injEq, Prod.mk.injEq]
      constructor
      · rintro ⟨rfl, rfl⟩
        exact ⟨h, ho, rfl⟩
      · rintro ⟨heq, -, rfl⟩
        rw [h, Option.some.injEq] at heq
        exact ⟨heq, by rw [heq]⟩
    · rw [if_neg ho]
      constructor
      · intro heq
        cases heq
      · rintro ⟨heq, ho', -⟩
        rw [h, Option.some.injEq] at heq
        subst heq
        exact absurd ho' ho
  · rename_i h
    simp [h]

/-- Nothing is ended exactly if no session lives under the id, or one with another number than that
asked for. -/
theorem teardown?_eq_none_iff {id : SessionId} {only : Option Epoch} :
    s.teardown? id only = none
      ↔ ∀ e, s.registered? id = some e → only.all (s.epoch? e = some ·) = false := by
  unfold teardown?
  split
  · rename_i e h
    by_cases ho : only.all (s.epoch? e = some ·)
    · simp [h, ho]
    · simp [h, ho]
  · rename_i h
    simp [h]

end Changes

end Relay

end StompRelay
