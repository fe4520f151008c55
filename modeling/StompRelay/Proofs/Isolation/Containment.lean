import StompRelay.Proofs.Isolation.Account
import StompRelay.Proofs.Isolation.Stale
/-!
# Containment

What is done on the account of one client leaves all others alone: their sessions, what is
registered under their ids, their calls, and their places in line.

## Main definitions

* `Relay.Contained` — a step changes nothing that belongs to other clients

## Main results

* `Relay.ReaderStep.contained`, `Relay.CallStep.contained` — the steps of readers and calls
* `Relay.MoveStep.contained` — every step on the account of one client is contained
-/

namespace StompRelay.Relay

variable {setup : Setup} {busCapacity : Nat} {s t : Relay} {h : History} {m : Move} {e : Place}
  {i j : CallId} {c d : Call} {x y : Session} {a b id : SessionId} {p : Purpose} {k : Ticket}

/-- Nothing changes but what belongs to client `a`: the sessions of others, what is registered under
other ids and the calls for others stay as they are, and the bus gets messages for `a` at most,
while others keep their places in line. -/
structure Contained (a : SessionId) (s t : Relay) : Prop where
  sessions : ∀ (e : Place) (x : Session), x.id ≠ a →
    (t.sessions[e]? = some x ↔ s.sessions[e]? = some x)
  registered : ∀ b, b ≠ a → t.registered? b = s.registered? b
  calls : ∀ (i : CallId) (c : Call), s.client? c.purpose ≠ some a →
    (t.calls[i]? = some c ↔ s.calls[i]? = some c)
  queue : ∃ ms, t.bus.queue = s.bus.queue ++ ms ∧ ∀ m ∈ ms, m.session = a
  line : t.bus.line.filter (fun k => s.holder? k ≠ some a)
    = s.bus.line.filter (fun k => s.holder? k ≠ some a)
  bus : t.bus.received = s.bus.received ∧ t.bus.capacity = s.bus.capacity
    ∧ t.bus.closed = s.bus.closed

/-! ### The bus -/

/-- The part of containment that concerns the bus. -/
structure BusContained (a : SessionId) (s t : Relay) : Prop where
  queue : ∃ ms, t.bus.queue = s.bus.queue ++ ms ∧ ∀ m ∈ ms, m.session = a
  line : t.bus.line.filter (fun k => s.holder? k ≠ some a)
    = s.bus.line.filter (fun k => s.holder? k ≠ some a)
  bus : t.bus.received = s.bus.received ∧ t.bus.capacity = s.bus.capacity
    ∧ t.bus.closed = s.bus.closed

namespace BusContained

theorem of_eq (ht : t.bus = s.bus) : BusContained a s t where
  queue := ⟨[], by rw [ht, List.append_nil], by simp⟩
  line := by rw [ht]
  bus := by rw [ht]; exact ⟨rfl, rfl, rfl⟩

theorem join (hk : s.holder? k = some a) (ht : t.bus = s.bus.join k) : BusContained a s t where
  queue := ⟨[], by rw [ht, List.append_nil]; rfl, by simp⟩
  line := by simp [ht, Bus.join, hk]
  bus := by rw [ht]; exact ⟨rfl, rfl, rfl⟩

theorem filter_leave (hk : s.holder? k = some a) :
    (s.bus.leave k).line.filter (fun k => s.holder? k ≠ some a)
      = s.bus.line.filter (fun k => s.holder? k ≠ some a) := by
  rw [Bus.leave, List.filter_filter]
  apply List.filter_congr
  intro k' _
  by_cases hk' : k' = k
  · simp [hk', hk]
  · simp [hk']

theorem leave (hk : s.holder? k = some a) (ht : t.bus = s.bus.leave k) : BusContained a s t where
  queue := ⟨[], by rw [ht, List.append_nil]; rfl, by simp⟩
  line := by rw [ht, filter_leave hk]
  bus := by rw [ht]; exact ⟨rfl, rfl, rfl⟩

theorem post {msg : Message} (hk : s.holder? k = some a) (hm : msg.session = a)
    (ht : t.bus = s.bus.post k msg) : BusContained a s t where
  queue := ⟨[msg], by rw [ht]; rfl, by simpa using hm⟩
  line := by
    rw [ht]
    exact filter_leave hk
  bus := by rw [ht]; exact ⟨rfl, rfl, rfl⟩

end BusContained

theorem Contained.of_bus (hbus : BusContained a s t)
    (sessions : ∀ (e : Place) (x : Session), x.id ≠ a →
      (t.sessions[e]? = some x ↔ s.sessions[e]? = some x))
    (registered : ∀ b, b ≠ a → t.registered? b = s.registered? b)
    (calls : ∀ (i : CallId) (c : Call), s.client? c.purpose ≠ some a →
      (t.calls[i]? = some c ↔ s.calls[i]? = some c)) : Contained a s t :=
  ⟨sessions, registered, calls, hbus.queue, hbus.line, hbus.bus⟩

/-! ### Readers -/

/-- A step that changes only a session of `a`. -/
theorem sessions_of_owner (ho : s.owner? e = some a)
    (hother : ∀ e', e' ≠ e → t.sessions[e']? = s.sessions[e']?)
    (hid : ∀ y, t.sessions[e]? = some y → y.id = a) (e' : Place) (x : Session) (hx : x.id ≠ a) :
    t.sessions[e']? = some x ↔ s.sessions[e']? = some x := by
  by_cases he : e' = e
  · subst he
    obtain ⟨z, hz, hza⟩ := owner?_eq_some_iff.mp ho
    refine iff_of_false (fun ht => hx (hid x ht)) ?_
    intro hs
    rw [hz, Option.some.injEq] at hs
    exact hx (hs ▸ hza)
  · rw [hother e' he]

theorem ReaderStep.busContained (hx : s.sessions[e]? = some x)
    (haddr : ∀ m, x.reader.message? = some m → m.session = x.id)
    (step : ReaderStep setup s e x t) : BusContained x.id s t := by
  have hk : s.holder? (.reader e) = some x.id := owner?_of_getElem? hx
  cases step with
  | overflow | reject | offer | lose | fail => exact .join hk rfl
  | abandon | hush => exact .leave hk rfl
  | post hr => exact .post hk (haddr _ (by rw [hr]; rfl)) rfl
  | announce hr => exact .post hk (haddr _ (by rw [hr]; rfl)) rfl
  | _ => exact .of_eq rfl

/-- What a reader does concerns its own client. -/
theorem ReaderStep.contained (hcen : Census h s) (hx : s.sessions[e]? = some x)
    (haddr : ∀ m, x.reader.message? = some m → m.session = x.id)
    (step : ReaderStep setup s e x t) : Contained x.id s t := by
  refine .of_bus (step.busContained hx haddr) ?_ ?_ ?_
  · refine sessions_of_owner (owner?_of_getElem? hx) (step.confined hcen).sessions ?_
    intro y hy
    obtain ⟨z, hz, hid⟩ := (MoveStep.reader hx step).session_id hx
    rw [hy, Option.some.injEq] at hz
    exact hz ▸ hid
  · intro b hb
    cases step with
    | unregister => exact (registered?_of_filter rfl).trans (if_neg (Ne.symm hb))
    | _ => rfl
  · intro i c _
    rw [step.calls_eq]

/-! ### Calls -/

/-- A call that neither keeps a session nor finds it under its id leaves it as it is. -/
theorem CallStep.getElem?_of_not_kept (step : CallStep setup s i c t)
    (hk : c.stage.keeps e = false)
    (hr : c.stage.usesId = true → s.registered? c.purpose.id ≠ some e)
    (hclear : c.stage ≠ .clearing) : t.sessions[e]? = s.sessions[e]? := by
  have ne {e' : Place} (hst : c.stage.keeps e = (e == e')) : e' ≠ e := by
    rw [hst] at hk
    exact Ne.symm (beq_eq_false_iff_ne.mp hk)
  have out {e' : Place} (hu : c.stage.usesId = true) (hr' : s.registered? c.purpose.id = some e') :
      e' ≠ e := by
    rintro rfl
    exact hr hu hr'
  cases step with
  | reject hst | attach hst | start hst | queue hst | bounce hst | cut hst | accept hst
  | finish hst | snap hst | push hst =>
    exact getElem?_modifySession_of_ne (ne (by rw [hst]; rfl))
  | @complete e' _ _ _ hst =>
    have he : e' ≠ e := ne (by rw [hst]; rfl)
    exact (getElem?_modifySession_of_ne he).trans (getElem?_modifySession_of_ne he)
  | condemn hst hr' => exact getElem?_modifySession_of_ne (out (by rw [hst]; rfl) hr')
  | remove hst hr' => exact getElem?_modifySession_of_ne (out (by rw [hst]; rfl) hr')
  | close hst =>
    refine getElem?_modifySession_of_ne ?_
    rintro rfl
    simp [hst, Stage.keeps] at hk
  | clear hst => exact absurd hst hclear
  | _ => rfl

/-- A call changes at most what is registered under its own id. -/
theorem CallStep.registered?_of_ne (step : CallStep setup s i c t)
    (hv : c.purpose.visits c.stage = true) (hb : c.purpose.session? ≠ some b)
    (hclear : c.stage ≠ .clearing) : t.registered? b = s.registered? b := by
  have ne (hu : c.stage.usesId = true) : c.purpose.id ≠ b := by
    rintro rfl
    exact hb (Stage.session?_of_usesId hv hu)
  cases step with
  | register hst hr =>
    have hne := ne (by rw [hst]; rfl)
    exact (registered?_of_append rfl).trans (by rw [if_neg hne, Option.or_none])
  | condemn hst | remove hst =>
    exact (registered?_of_filter rfl).trans (if_neg (ne (by rw [hst]; rfl)))
  | clear hst => exact absurd hst hclear
  | _ => rfl

theorem CallStep.busContained (hc : s.calls[i]? = some c) (ha : s.client? c.purpose = some a)
    (step : CallStep setup s i c t) : BusContained a s t := by
  have hk : s.holder? (.call i) = some a := by simp [holder?, hc, ha]
  cases step with
  | join => exact .join hk rfl
  | refrain => exact .leave hk rfl
  | post _ hp =>
    rw [hp] at ha
    exact .post hk (Option.some.inj ha) rfl
  | clear => exact .of_eq (bus_cancelAll _)
  | _ => exact .of_eq rfl

/-- What a call does concerns the client on whose account it is made. -/
theorem CallStep.contained (run : Run setup busCapacity h s) (hc : s.calls[i]? = some c)
    (ha : s.client? c.purpose = some a) (step : CallStep setup s i c t) : Contained a s t := by
  have hv := visits_of_run run hc
  have hcen := census_of_run run
  -- a call on a client's account does not end all sessions
  have hclear : c.stage ≠ .clearing := by
    intro hst
    rw [hst] at hv
    obtain ⟨hnone, hnone'⟩ := Stage.session?_of_clearing hv
    simp [client?, hnone, hnone'] at ha
  have hkept (e : Place) (hk : c.stage.keeps e = true) : s.owner? e = some a := by
    rw [client?] at ha
    cases htarget : c.purpose.target? with
    | some e' =>
      rw [htarget] at ha
      rw [target_of_run run hc htarget hk]
      exact ha
    | none =>
      rw [htarget] at ha
      exact owner_of_run run hc ha hk
  have hsession (hu : c.stage.usesId = true) : c.purpose.id = a := by
    have hid := Stage.session?_of_usesId hv hu
    have htarget : c.purpose.target? = none := by
      cases hp : c.purpose <;> first | rfl | (rw [hp] at hid; cases hid)
    simpa [client?, htarget, hid] using ha
  refine .of_bus (step.busContained hc ha) ?_ ?_ ?_
  · intro e x hx
    by_cases ho : s.owner? e = some a
    · obtain ⟨z, hz, hza⟩ := owner?_eq_some_iff.mp ho
      obtain ⟨y, hy, hid⟩ := (MoveStep.call hc step).session_id hz
      refine iff_of_false ?_ ?_
      · intro ht
        rw [hy, Option.some.injEq] at ht
        exact hx (ht ▸ hid.trans hza)
      · intro hs
        rw [hz, Option.some.injEq] at hs
        exact hx (hs ▸ hza)
    · rw [step.getElem?_of_not_kept ?_ ?_ hclear]
      · exact Bool.eq_false_iff.mpr fun hk => ho (hkept e hk)
      · intro hu hr
        exact ho (hsession hu ▸ hcen.owner? hr)
  · intro b hb
    refine step.registered?_of_ne hv ?_ hclear
    intro hid
    refine hb ?_
    have htarget : c.purpose.target? = none := by
      cases hp : c.purpose <;> first | rfl | (rw [hp] at hid; cases hid)
    simpa [client?, htarget, hid] using ha
  · intro j d hd
    obtain ⟨new, heq, -⟩ := step.calls_eq
    rw [heq, getElem?_setStage]
    by_cases hij : i = j
    · subst hij
      rw [if_pos rfl, hc]
      refine iff_of_false ?_ ?_
      · rintro ⟨⟩
        exact hd ha
      · rintro ⟨⟩
        exact hd ha
    · rw [if_neg hij]

/-! ### All moves -/

/-- What the broker of a client does to a connection, or what holds a session, concerns that
client. -/
theorem contained_modifySession {f : Session → Session} (ho : s.owner? e = some a)
    (hf : ∀ x, (f x).id = x.id) : Contained a s (s.modifySession e f) := by
  refine .of_bus (.of_eq rfl) ?_ (fun _ _ => rfl) (fun _ _ _ => Iff.rfl)
  refine sessions_of_owner ho (fun e' he => getElem?_modifySession_of_ne (Ne.symm he)) ?_
  intro y hy
  obtain ⟨x, hx, rfl⟩ := owner?_eq_some_iff.mp ho
  rw [eq_of_modifySession hx hy]
  exact hf x

/-- A session that is opened for a client concerns no other. -/
theorem sessions_append {n : Epoch} {capacity : Nat}
    (ht : t.sessions = s.sessions ++ [.new a n capacity])
    (e : Place) (x : Session) (hx : x.id ≠ a) :
    t.sessions[e]? = some x ↔ s.sessions[e]? = some x := by
  rw [ht]
  by_cases he : e < s.sessions.length
  · rw [List.getElem?_append_left he]
  · have hle : s.sessions.length ≤ e := Nat.le_of_not_lt he
    rw [List.getElem?_append_right hle, List.getElem?_eq_none hle]
    refine iff_of_false ?_ (by simp)
    intro hmem
    obtain rfl := List.mem_singleton.mp (List.mem_of_getElem? hmem)
    exact hx rfl

/-- A call that is started on a client's account concerns no other. -/
theorem calls_append (hp : s.client? p = some a) {stage : Stage}
    (ht : t.calls = s.calls ++ [⟨p, stage⟩]) (i : CallId) (c : Call)
    (hc : s.client? c.purpose ≠ some a) : t.calls[i]? = some c ↔ s.calls[i]? = some c := by
  constructor
  · intro hi
    rcases call_of_append ht hi with hi | ⟨-, -, rfl⟩
    · exact hi
    · exact absurd hp hc
  · intro hi
    rw [ht, List.getElem?_append_left (List.getElem?_eq_some_iff.mp hi).1, hi]

/-- A call for a client that is given a connection, or none, concerns no other. -/
theorem calls_setStage (hc : s.calls[i]? = some c) (hp : s.client? c.purpose = some a)
    {stage : Stage} (ht : t.calls = (s.setStage i stage).calls) (j : CallId) (d : Call)
    (hd : s.client? d.purpose ≠ some a) : t.calls[j]? = some d ↔ s.calls[j]? = some d := by
  rw [ht, getElem?_setStage]
  by_cases hij : i = j
  · subst hij
    rw [if_pos rfl, hc]
    refine iff_of_false ?_ ?_
    · rintro ⟨⟩
      exact hd hp
    · rintro ⟨⟩
      exact hd hp
  · rw [if_neg hij]

/-- A step on the account of one client changes nothing that belongs to others. -/
theorem MoveStep.contained (run : Run setup busCapacity h s) (step : MoveStep setup s m t)
    (ha : s.account? m = some a) : Contained a s t := by
  cases step with
  | reader hx step =>
    obtain rfl := Option.some.inj ((owner?_of_getElem? hx).symm.trans ha)
    exact step.contained (census_of_run run) hx fun m hm => addressed_of_run run hx hm
  | @call i c _ hc step =>
    have hp : s.client? c.purpose = some a := by
      simpa [account?, Actor.ticket, holder?, hc] using ha
    exact step.contained run hc hp
  | start =>
    exact .of_bus (.of_eq rfl) (fun _ _ _ => Iff.rfl) (fun _ _ => rfl) (calls_append ha rfl)
  | attach =>
    obtain rfl := Option.some.inj ha
    exact .of_bus (.of_eq rfl) (sessions_append rfl) (fun _ _ => rfl) (calls_append rfl rfl)
  | @refused i p reason hc =>
    have hp : s.client? p = some a := by simpa [account?, holder?, hc] using ha
    exact .of_bus (.of_eq rfl) (fun _ _ _ => Iff.rfl) (fun _ _ => rfl) (calls_setStage hc hp rfl)
  | @connected i p capacity hc =>
    have hp : s.client? p = some a := by simpa [account?, holder?, hc] using ha
    have hid : p.id = a := by
      have hv : p.visits .dialing = true := visits_of_run run hc
      cases p with
      | login => exact Option.some.inj hp
      | _ => cases hv
    subst hid
    exact .of_bus (.of_eq rfl) (sessions_append rfl) (fun _ _ => rfl) (calls_setStage hc hp rfl)
  | undialed =>
    exact .of_bus (.of_eq rfl) (fun _ _ _ => Iff.rfl) (fun _ _ => rfl) (fun _ _ _ => Iff.rfl)
  | brokerPut | brokerTake | brokerDrop | breakInput | letGo =>
    exact contained_modifySession ha fun _ => rfl
  | receive | dropBus => cases ha
  | forget =>
    obtain rfl := Option.some.inj ha
    refine .of_bus (.of_eq rfl) (fun _ _ _ => Iff.rfl) ?_ (fun _ _ _ => Iff.rfl)
    intro b hb
    exact (registered?_of_filter rfl).trans (if_neg (Ne.symm hb))

end StompRelay.Relay
