import StompRelay.Proofs.Life.Event
import StompRelay.Proofs.Opening
/-!
# The register in a run

A step leaves the register alone, adds a session to it under an id that is free, takes one session
out or takes all out. A session that goes out is closed in the same step, and no other session is
closed by it, as long as sessions are closed only by those who have ended them.

## Main definitions

* `Relay.Orderly` — nobody outside the relay removes an entry or closes a session by hand
* `Relay.Enrolled` — the sessions in the register are open, each under its own id
* `Relay.Spared` — what a step that closes some sessions does to all others
* `Relay.RegisterStep` — what a step can do to the register

## Main results

* `Relay.registered?_eq_some_iff` — what is found by id is what is in the register
* `Relay.MoveStep.registerStep` — every step does one of these things
-/

namespace StompRelay

/-- Whether the reader of a session has ended it, or found it ended. -/
def Reader.leaves : Reader → Bool
  | .shutting | .finished => true
  | _ => false

/-- The sessions that a call still has to close. -/
def Stage.closes : Stage → List Place
  | .closing es _ _ => es
  | _ => []

namespace Relay

/-- Whether a move is neither the removal of an entry nor a call to close a session. -/
def Move.orderly : Move → Bool
  | .forget _ | .start (.close _) => false
  | _ => true

/-- Nobody outside the relay removes an entry from the register or closes a session by hand. -/
def Orderly (h : History) : Prop := h.all (fun τ => τ.move.orderly) = true

instance (h : History) : Decidable (Orderly h) := inferInstanceAs (Decidable (_ = true))

variable {setup : Setup} {busCapacity : Nat} {s t : Relay} {h : History} {m : Move} {e e' : Place}
  {i j : CallId} {c d : Call} {x y : Session} {id : SessionId} {es : List Place} {new : Stage}

theorem orderly_snoc {τ : Transition} :
    Orderly (h ++ [τ]) ↔ Orderly h ∧ τ.move.orderly = true := by
  simp [Orderly]

/-! ### Looking ids up -/

/-- Where no id occurs twice, what is found by id is what is in the register. -/
theorem registered?_eq_some_iff (hids : s.ids.Nodup) :
    s.registered? id = some e ↔ (id, e) ∈ s.registry := by
  refine ⟨mem_registry_of_registered?, ?_⟩
  intro hmem
  obtain ⟨before, after, heq⟩ := List.append_of_mem hmem
  refine List.lookup_eq_some_iff.mpr ⟨before, after, heq, ?_⟩
  intro p hp
  rw [ids, heq, List.map_append, List.map_cons] at hids
  have hne := (List.nodup_append.mp hids).2.2 p.1 (List.mem_map_of_mem hp) id List.mem_cons_self
  simpa using Ne.symm hne

theorem registered?_eq_none_iff : s.registered? id = none ↔ id ∉ s.ids := by
  rw [registered?, List.lookup_eq_none_iff, ids]
  simp only [List.mem_map, not_exists, not_and, bne_iff_ne]
  exact ⟨fun hall p hp hid => hall p hp hid.symm, fun hall p hp hid => hall p hp hid.symm⟩

/-- One session is under one id. -/
theorem mem_registeredPlaces (hmem : (id, e) ∈ s.registry) : e ∈ s.registeredPlaces :=
  List.mem_map_of_mem hmem

theorem registered?_of_eq (ht : t.registry = s.registry) : t.registered? id = s.registered? id := by
  rw [registered?, ht, registered?]

/-- An entry at the end is found only where no earlier one has its id. -/
theorem registered?_of_append {key : SessionId} (ht : t.registry = s.registry ++ [(key, e)]) :
    t.registered? id = (s.registered? id).or (if key = id then some e else none) := by
  rw [registered?, ht, List.lookup_append, registered?, List.lookup_cons, List.lookup_nil]
  by_cases hid : key = id
  · simp [hid]
  · simp [hid, beq_false_of_ne (Ne.symm hid)]

/-- An id whose entries are taken out is not found any more, and others are found as before. -/
theorem registered?_of_filter {key : SessionId} (ht : t.registry = s.registry.filter (·.1 ≠ key)) :
    t.registered? id = if key = id then none else s.registered? id := by
  rw [registered?, ht, registered?]
  induction s.registry with
  | nil => simp
  | cons p r ih =>
    obtain ⟨id', e⟩ := p
    by_cases hkey : id' = key
    · subst hkey
      rw [List.filter_cons_of_neg (by simp), ih, List.lookup_cons]
      by_cases hid : id' = id
      · simp [hid]
      · simp [hid, beq_false_of_ne (Ne.symm hid)]
    · rw [List.filter_cons_of_pos (by simpa using hkey), List.lookup_cons, List.lookup_cons, ih]
      by_cases hid : key = id
      · subst hid
        simp [beq_false_of_ne (Ne.symm hkey)]
      · simp [hid]

/-- Taking an id out takes one entry out. -/
theorem length_filter_of_mem (hids : s.ids.Nodup) (hmem : (id, e) ∈ s.registry) :
    (s.registry.filter (·.1 ≠ id)).length + 1 = s.registry.length := by
  obtain ⟨before, after, heq⟩ := List.append_of_mem hmem
  rw [ids, heq, List.map_append, List.map_cons] at hids
  have hbefore (p) (hp : p ∈ before) : p.1 ≠ id :=
    (List.nodup_append.mp hids).2.2 p.1 (List.mem_map_of_mem hp) id List.mem_cons_self
  have hafter (p) (hp : p ∈ after) : p.1 ≠ id := fun hid =>
    (List.nodup_cons.mp (List.nodup_append.mp hids).2.1).1 (List.mem_map.mpr ⟨p, hp, hid⟩)
  have hb : before.filter (·.1 ≠ id) = before :=
    List.filter_eq_self.mpr fun p hp => by simpa using hbefore p hp
  have ha : after.filter (·.1 ≠ id) = after :=
    List.filter_eq_self.mpr fun p hp => by simpa using hafter p hp
  rw [heq, List.filter_append, List.filter_cons_of_neg (by simp), hb, ha]
  simp only [List.length_append, List.length_cons]
  omega

/-! ### What a step does to sessions -/

/-- A session that is there has been closed. -/
def HasClosed (s : Relay) (e : Place) : Prop :=
  ∃ x : Session, s.sessions[e]? = some x ∧ x.closed = true

/-- The sessions in the register are open, under their own ids; those that are being registered are
not there yet, and those that are being closed are not there any more. -/
structure Enrolled (s : Relay) : Prop where
  nodup : s.ids.Nodup
  live : ∀ (id : SessionId) (e : Place), (id, e) ∈ s.registry →
    ∃ x : Session, s.sessions[e]? = some x ∧ x.id = id ∧ x.closed = false ∧ x.reader.leaves = false
  entered : ∀ (i : CallId) (c : Call) (e : Place), s.calls[i]? = some c →
    c.stage = .registering e → e ∉ s.registeredPlaces
  waiting : ∀ (i : CallId) (c : Call) (e : Place), s.calls[i]? = some c →
    c.stage = .registering e → ∃ x : Session, s.sessions[e]? = some x ∧ x.closed = false
  closing : ∀ (i : CallId) (c : Call) (e : Place), s.calls[i]? = some c → e ∈ c.stage.closes →
    s.HasClosed e
  shutting : ∀ (e : Place) (x : Session), s.sessions[e]? = some x → x.reader = .shutting →
    x.closed = true

/-- The session of an entry of the register is open, under its own id. -/
theorem Enrolled.of_mem (he : s.Enrolled) (hx : s.sessions[e]? = some x)
    (hmem : (id, e) ∈ s.registry) : x.id = id ∧ x.closed = false ∧ x.reader.leaves = false := by
  obtain ⟨x', hx', hrest⟩ := he.live id e hmem
  rw [hx, Option.some.injEq] at hx'
  exact hx' ▸ hrest

theorem Enrolled.closed_eq_false (he : s.Enrolled) (hx : s.sessions[e]? = some x)
    (hr : e ∈ s.registeredPlaces) : x.closed = false := by
  obtain ⟨⟨id, e'⟩, hmem, rfl⟩ := List.mem_map.mp hr
  exact (he.of_mem hx hmem).2.1

/-- The sessions `es` are closed, all others stay as open as they are, and no session that is
registered comes to its end. -/
def Spared (s t : Relay) (es : List Place) : Prop :=
  ∀ (e : Place) (x : Session), s.sessions[e]? = some x → ∃ y : Session,
    t.sessions[e]? = some y ∧ y.id = x.id ∧ (e ∈ es → y.closed = true)
      ∧ (e ∉ es → y.closed = x.closed
        ∧ (y.reader.leaves = true → x.reader.leaves = true ∨ e ∉ s.registeredPlaces))

namespace Spared

/-- A step that changes no session. -/
theorem of_eq (ht : t.sessions = s.sessions) : Spared s t [] := fun e x hx =>
  ⟨x, ht ▸ hx, rfl, by simp, fun _ => ⟨rfl, .inl⟩⟩

/-- A step that only adds a session. -/
theorem append {z : Session} (ht : t.sessions = s.sessions ++ [z]) : Spared s t [] := fun e x hx =>
  ⟨x, by rw [ht, List.getElem?_append_left (List.getElem?_eq_some_iff.mp hx).1, hx], rfl, by simp,
    fun _ => ⟨rfl, .inl⟩⟩

/-- A step that changes one session. -/
theorem modifySession {f : Session → Session} (ht : t.sessions = (s.modifySession e f).sessions)
    (hf : ∀ x, s.sessions[e]? = some x → (f x).id = x.id ∧ (f x).closed = x.closed
      ∧ ((f x).reader.leaves = true → x.reader.leaves = true ∨ e ∉ s.registeredPlaces)) :
    Spared s t [] := by
  intro e' x hx
  rw [ht]
  by_cases he : e = e'
  · subst he
    obtain ⟨hid, hclosed, hover⟩ := hf x hx
    exact ⟨f x, getElem?_modifySession_self hx, hid, by simp, fun _ => ⟨hclosed, hover⟩⟩
  · exact ⟨x, (getElem?_modifySession_of_ne he).trans hx, rfl, by simp, fun _ => ⟨rfl, .inl⟩⟩

/-- A step that closes one session. -/
theorem cancel {f : Session → Session} (ht : t.sessions = (s.modifySession e f).sessions)
    (hf : ∀ x, (f x).id = x.id ∧ (f x).closed = true) : Spared s t [e] := by
  intro e' x hx
  rw [ht]
  by_cases he : e = e'
  · subst he
    exact ⟨f x, getElem?_modifySession_self hx, (hf x).1, fun _ => (hf x).2, by simp⟩
  · exact ⟨x, (getElem?_modifySession_of_ne he).trans hx, rfl,
      fun hmem => absurd (List.mem_singleton.mp hmem).symm he, fun _ => ⟨rfl, .inl⟩⟩

/-- A step that closes some sessions. -/
theorem cancelAll (ht : t.sessions = (s.cancelAll es).sessions) : Spared s t es := by
  intro e x hx
  rw [ht, getElem?_cancelAll, hx]
  by_cases he : e ∈ es
  · exact ⟨x.cancel, by simp [he], rfl, fun _ => rfl, fun hne => absurd he hne⟩
  · exact ⟨x, by simp [he], rfl, fun hmem => absurd hmem he, fun _ => ⟨rfl, .inl⟩⟩

end Spared

/-- What a step can do to the register, and which lives begin and end. -/
inductive RegisterStep (s t : Relay) : Option LifeEvent → Prop where
  /-- It leaves the register alone. -/
  | rest : t.registry = s.registry → Spared s t [] → RegisterStep s t none
  /-- A call registers a session. -/
  | create {i : CallId} {c : Call} {e : Place} : s.calls[i]? = some c → c.stage = .registering e →
    t.stage? i = some (.starting e) → s.registered? c.purpose.id = none →
    t.registry = s.registry ++ [(c.purpose.id, e)] → t.sessions = s.sessions →
    RegisterStep s t (some (.created c.purpose.id e))
  /-- Somebody ends a session. -/
  | end {id : SessionId} {e : Place} : s.registered? id = some e →
    t.registry = s.registry.filter (·.1 ≠ id) → Spared s t [e] →
    RegisterStep s t (some (.ended id e))
  /-- A call ends all sessions. -/
  | clear : t.registry = [] → Spared s t s.registeredPlaces →
    RegisterStep s t (some (.cleared s.registry s.registry.length))

/-- A step of a reader ends its session, or leaves the register alone. -/
theorem ReaderStep.registerStep (he : s.Enrolled) (hx : s.sessions[e]? = some x)
    (step : ReaderStep setup s e x t) :
    RegisterStep s t (Transition.life? ⟨s, .act (.reader e), t⟩) := by
  have life {f : Session → Session} (ht : t.sessions[e]? = some (f x)) :
      Transition.life? ⟨s, .act (.reader e), t⟩
        = if x.reader.ends (f x).reader then some (.ended x.id e) else none := by
    simp [Transition.life?, hx, ht]
  -- a step that ends nothing
  have modified {f : Session → Session} (ht : t.sessions = (s.modifySession e f).sessions)
      (hreg : t.registry = s.registry) (hends : x.reader.ends (f x).reader = false)
      (hf : (f x).id = x.id ∧ (f x).closed = x.closed
        ∧ ((f x).reader.leaves = true → x.reader.leaves = true ∨ e ∉ s.registeredPlaces)) :
      RegisterStep s t (Transition.life? ⟨s, .act (.reader e), t⟩) := by
    rw [life (f := f) (by rw [ht, getElem?_modifySession_self hx]), hends]
    refine .rest hreg (.modifySession ht ?_)
    intro x' hx'
    rw [hx, Option.some.injEq] at hx'
    exact hx' ▸ hf
  cases step with
  | stop hr | read hr | overflow hr | reject hr | skip hr | offer hr | fetch hr | lose hr
  | fail hr | abandon hr | post hr | hush hr | announce hr =>
    exact modified rfl rfl (by rw [hr]; rfl) ⟨rfl, rfl, by simp [Reader.leaves]⟩
  | unregister hr hreg =>
    have ht : ((s.unregister x.id e).setReader e .shutting).sessions[e]?
        = some { x.cancel with reader := .shutting } :=
      getElem?_modifySession_self (getElem?_modifySession_self hx)
    rw [life (f := fun x => { x.cancel with reader := .shutting }) ht, hr]
    refine .end hreg rfl (.cancel (f := fun x => { x.cancel with reader := .shutting }) ?_ ?_)
    · exact List.modify_modify_eq _ _ _ _
    · exact fun _ => ⟨rfl, rfl⟩
  | quit hr hreg =>
    refine modified rfl rfl (by rw [hr]; rfl) ⟨rfl, rfl, fun _ => .inr fun hmem => hreg ?_⟩
    obtain ⟨⟨id, e'⟩, hp, rfl⟩ := List.mem_map.mp hmem
    rw [(he.of_mem hx hp).1]
    exact (registered?_eq_some_iff he.nodup).mpr hp
  | shut hr =>
    -- the session was closed when the reader ended it
    have same : x.SameInput x.close := .close x
    have hclosed := he.shutting e x hx hr
    refine modified rfl rfl (by rw [hr]; rfl) ⟨same.id, ?_, fun _ => .inl (by rw [hr]; rfl)⟩
    exact (same.closed hclosed).trans hclosed.symm

/-- A step of a call registers a session, ends one or all, or leaves the register alone. -/
theorem CallStep.registerStep (he : s.Enrolled) (hc : s.calls[i]? = some c)
    (step : CallStep setup s i c t) :
    RegisterStep s t (Transition.life? ⟨s, .act (.call i), t⟩) := by
  have moved {new : Stage} (ht : t.calls = (s.setStage i new).calls) : t.stage? i = some new :=
    stage?_of_calls_eq (stage?_eq_of_getElem? hc) ht
  have rest {new : Stage} (ht : t.calls = (s.setStage i new).calls)
      (hlife : c.stage.life? c.purpose.id s.registry new = none) (hreg : t.registry = s.registry)
      (hspared : Spared s t []) : RegisterStep s t (Transition.life? ⟨s, .act (.call i), t⟩) := by
    rw [life?_call hc (moved ht), hlife]
    exact .rest hreg hspared
  -- a change to how a session is written to or read
  have kept {f : Session → Session} {e : Place} (ht : t.sessions = (s.modifySession e f).sessions)
      (hf : ∀ x, s.sessions[e]? = some x → (f x).id = x.id ∧ (f x).closed = x.closed
        ∧ ((f x).reader.leaves = true → x.reader.leaves = true)) : Spared s t [] :=
    .modifySession ht fun x hx => ⟨(hf x hx).1, (hf x hx).2.1, fun hy => .inl ((hf x hx).2.2 hy)⟩
  cases step with
  | refuse hst | dial hst | find hst | miss hst | encode hst | unencodable hst | turn hst
  | pass hst | join hst | refrain hst | post hst =>
    exact rest rfl (by rw [hst]; rfl) rfl (.of_eq rfl)
  | late hst =>
    refine rest rfl ?_ rfl (.of_eq rfl)
    rw [hst]
    cases c.purpose <;> rfl
  | leave hst => exact rest rfl (by rw [hst]; rfl) rfl (.of_eq rfl)
  | @reject e e' hst =>
    refine rest rfl (by rw [hst]; rfl) rfl (.modifySession rfl ?_)
    intro x hx
    exact ⟨rfl, rfl, fun _ => .inr (he.entered i c e hc hst)⟩
  | register hst hreg =>
    rw [life?_call hc (moved rfl), hst]
    exact .create hc hst (moved rfl) hreg rfl rfl
  | @attach e id reads holds hst =>
    refine rest rfl (by rw [hst]; rfl) rfl (kept rfl fun x _ => ⟨rfl, rfl, fun hy => ?_⟩)
    cases reads <;> cases hy
  | start hst =>
    exact rest rfl (by rw [hst]; rfl) rfl (kept rfl fun x _ => ⟨rfl, rfl, by simp [Reader.leaves]⟩)
  | queue hst | bounce hst | cut hst | accept hst | finish hst | snap hst =>
    exact rest rfl (by rw [hst]; rfl) rfl (kept rfl fun x _ => ⟨rfl, rfl, fun hy => hy⟩)
  | @push e x y _ _ hst hx _ _ hpush =>
    refine rest rfl (by rw [hst]; rfl) rfl (kept rfl ?_)
    intro x' hx'
    obtain rfl := Option.some.inj (hx.symm.trans hx')
    obtain ⟨bs, -, hy⟩ := Session.eq_of_push? hpush
    rw [hy]
    exact ⟨rfl, rfl, fun hover => hover⟩
  | @complete e x y _ hst hx _ _ hpush =>
    refine rest rfl (by rw [hst]; rfl) rfl
      (kept (f := fun _ => y.leave i) (List.modify_modify_eq _ _ _ _) ?_)
    intro x' hx'
    obtain rfl := Option.some.inj (hx.symm.trans hx')
    obtain ⟨bs, -, hy⟩ := Session.eq_of_push? hpush
    rw [hy]
    exact ⟨rfl, rfl, fun hover => hover⟩
  | condemn hst hreg =>
    rw [life?_call hc (moved rfl), hst]
    exact .end hreg rfl (.cancel rfl fun _ => ⟨rfl, rfl⟩)
  | remove hst hreg =>
    rw [life?_call hc (moved rfl), hst]
    exact .end hreg rfl (.cancel rfl fun _ => ⟨rfl, rfl⟩)
  | clear hst =>
    rw [life?_call hc (moved (calls_clear _ _)), hst]
    have hlen : s.registeredPlaces.length = s.registry.length := List.length_map _
    rw [hlen]
    exact .clear rfl (.cancelAll rfl)
  | @close e es o final hst =>
    refine rest rfl (by rw [hst]; rfl) rfl (kept rfl ?_)
    intro x hx
    -- the session was closed when it was ended, so nothing that counts changes
    obtain ⟨x', hx', hclosed⟩ := he.closing i c e hc (by simp [hst, Stage.closes])
    rw [hx, Option.some.injEq] at hx'
    subst hx'
    have same : x.SameInput x.close := .close x
    exact ⟨same.id, (same.closed hclosed).trans hclosed.symm, fun hy => by rwa [same.reader] at hy⟩

/-- Every orderly step does one of these things to the register. -/
theorem MoveStep.registerStep (he : s.Enrolled) (step : MoveStep setup s m t)
    (horderly : m.orderly = true) : RegisterStep s t (Transition.life? ⟨s, m, t⟩) := by
  cases step with
  | reader hx step => exact step.registerStep he hx
  | call hc step => exact step.registerStep he hc
  | attach | connected => exact .rest rfl (.append rfl)
  | brokerPut | brokerTake | brokerDrop | breakInput | letGo =>
    exact .rest rfl (.modifySession rfl fun x _ => ⟨rfl, rfl, .inl⟩)
  | forget => cases horderly
  | _ => exact .rest rfl (.of_eq rfl)

end Relay

end StompRelay
