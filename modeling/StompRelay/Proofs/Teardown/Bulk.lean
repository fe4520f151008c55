import StompRelay.Proofs.Teardown.Retiring
import StompRelay.Relay.Dispatch
/-!
# All sessions at once, or one after the other

A relay at rest may be asked to end all of its sessions, or to end them one by one, and comes to
rest after each. Both leave it in the same state, whatever the order of the sessions and whoever
moves when: only the calls differ that asked for it.

## Main definitions

* `Relay.CarriesOut` — a call is made, and all that follows from it happens
* `Relay.EndsEach` — the sessions of some clients are ended one after the other

## Main results

* `Relay.CarriesOut.of_teardown`, `Relay.CarriesOut.of_teardownAll` — what such a call does at once
* `Relay.bulk_teardown` — that both leave the same state, and which
-/

namespace StompRelay.Relay

/-- Only the given call moves. -/
def OnlyCall (i : CallId) (h : History) : Prop := ∀ τ ∈ h, τ.move = .act (.call i)

/-- A call is made and goes on, while nobody else moves, until it has ended. Then everybody moves,
in any order, until nobody can. -/
def CarriesOut (setup : Setup) (p : Purpose) (s t : Relay) : Prop :=
  ∃ (h k : History) (u : Relay), Path setup (s.start p) h u ∧ OnlyCall s.calls.length h
    ∧ (u.outcome? s.calls.length).isSome = true ∧ Path setup u k t ∧ Own k ∧ t.Quiet setup

/-- The sessions under some ids are ended one after the other. -/
inductive EndsEach (setup : Setup) : Relay → List SessionId → Relay → Prop where
  | nil {s : Relay} : EndsEach setup s [] s
  | cons {s t u : Relay} {id : SessionId} {ids : List SessionId} :
    CarriesOut setup (.teardown id none) s t → EndsEach setup t ids u →
    EndsEach setup s (id :: ids) u

variable {setup : Setup} {busCapacity : Nat} {s t u : Relay} {h k : History} {m : Move} {e : Place}
  {es es' : List Place} {i : CallId} {c : Call} {cs : List Call} {p : Purpose} {o : Outcome}
  {id : SessionId} {ids : List SessionId}

/-! ### A call that nobody disturbs -/

/-- A call that has not ended yet goes on. -/
theorem OnlyCall.next (hi : OnlyCall i h) (path : Path setup s h u) (hc : s.calls[i]? = some c)
    (hgoes : c.stage.outcome? = none) (hdone : (u.outcome? i).isSome = true) :
    ∃ t k, s.stepCall setup i c = some t ∧ Path setup t k u ∧ OnlyCall i k := by
  rcases path.cases_head with ⟨-, rfl⟩ | ⟨m, t, k, hm, rfl, hrest⟩
  · rw [outcome?, hc, Option.bind_some, hgoes] at hdone
    cases hdone
  · obtain rfl : m = .act (.call i) := hi _ List.mem_cons_self
    obtain ⟨c', hc', hstep⟩ := Option.bind_eq_some_iff.mp hm
    obtain rfl := Option.some.inj (hc'.symm.trans hc)
    exact ⟨t, k, hstep, hrest, fun τ hτ => hi τ (List.mem_cons_of_mem _ hτ)⟩

/-- A call that has ended does not go on. -/
theorem OnlyCall.eq_of_done (hi : OnlyCall i h) (path : Path setup s h u)
    (hc : s.calls[i]? = some c) (hdone : c.stage = .done o) : u = s := by
  rcases path.cases_head with ⟨-, rfl⟩ | ⟨m, t, k, hm, rfl, hrest⟩
  · rfl
  · obtain rfl : m = .act (.call i) := hi _ List.mem_cons_self
    obtain ⟨c', hc', hstep⟩ := Option.bind_eq_some_iff.mp hm
    obtain rfl := Option.some.inj (hc'.symm.trans hc)
    rw [stepCall, hdone] at hstep
    cases hstep

/-! ### Ending sessions -/

theorem modify_concat {α : Type} (as : List α) (a : α) (f : α → α) :
    (as ++ [a]).modify as.length f = as ++ [f a] :=
  List.modifyTailIdx_add (List.modifyHead f) 0 as [a]

/-- Closes several sessions. -/
def closeAll (s : Relay) (es : List Place) : Relay :=
  es.foldl (fun s e => s.modifySession e Session.close) s

theorem closeAll_cons : s.closeAll (e :: es) = (s.modifySession e Session.close).closeAll es := rfl

theorem closeAll_setStage {stage : Stage} :
    (s.setStage i stage).closeAll es = (s.closeAll es).setStage i stage := by
  induction es generalizing s with
  | nil => rfl
  | cons e es ih => exact ih (s := s.modifySession e Session.close)

@[simp] theorem calls_closeAll : (s.closeAll es).calls = s.calls := by
  induction es generalizing s with
  | nil => rfl
  | cons e es ih => rw [closeAll_cons, ih, calls_modifySession]

@[simp] theorem bus_closeAll : (s.closeAll es).bus = s.bus := by
  induction es generalizing s with
  | nil => rfl
  | cons e es ih => rw [closeAll_cons, ih, bus_modifySession]

@[simp] theorem registry_closeAll : (s.closeAll es).registry = s.registry := by
  induction es generalizing s with
  | nil => rfl
  | cons e es ih => rw [closeAll_cons, ih, registry_modifySession]

@[simp] theorem nextEpoch_closeAll : (s.closeAll es).nextEpoch = s.nextEpoch := by
  induction es generalizing s with
  | nil => rfl
  | cons e es ih => exact ih (s := s.modifySession e Session.close)

theorem close_close (x : Session) : x.close.close = x.close := by
  cases hw : x.writers <;> simp [Session.close, Session.cancel, hw]

theorem close_cancel (x : Session) : x.cancel.close = x.close := rfl

theorem getElem?_closeAll :
    (s.closeAll es).sessions[e]?
      = if e ∈ es then s.sessions[e]?.map Session.close else s.sessions[e]? := by
  induction es generalizing s with
  | nil => simp [closeAll]
  | cons e' es ih =>
    rw [closeAll_cons, ih, getElem?_modifySession]
    by_cases h : e' = e
    · subst h
      by_cases hm : e' ∈ es
      · simp [hm, Function.comp_def, close_close]
      · simp [hm]
    · simp [h, Ne.symm h]

theorem setStage_setStage {old new : Stage} :
    (s.setStage i old).setStage i new = s.setStage i new := by
  simp [setStage, List.modify_modify_eq, Function.comp_def]

/-- A call that nobody disturbs closes all sessions that it has ended. -/
theorem OnlyCall.closes (hi : OnlyCall i h) (path : Path setup s h u)
    (hc : s.calls[i]? = some ⟨p, .closing es o true⟩) (hdone : (u.outcome? i).isSome = true) :
    u = (s.closeAll es).setStage i (.done o) := by
  induction es generalizing s h with
  | nil =>
    obtain ⟨t, k, hstep, hrest, hk⟩ := hi.next path hc rfl hdone
    cases hstep
    have hc' : (s.setStage i (.done o)).calls[i]? = some ⟨p, .done o⟩ := by
      rw [getElem?_setStage, if_pos rfl, hc]
      rfl
    exact hk.eq_of_done hrest hc' rfl
  | cons e es ih =>
    obtain ⟨t, k, hstep, hrest, hk⟩ := hi.next path hc rfl hdone
    cases hstep
    have hc' : ((s.modifySession e Session.close).setStage i (.closing es o true)).calls[i]?
        = some ⟨p, .closing es o true⟩ := by
      rw [getElem?_setStage, if_pos rfl, calls_modifySession, hc]
      rfl
    rw [ih hk hrest hc', stepClose, closeAll_setStage, closeAll_cons, setStage_setStage]

/-- What comes of a call that has fired the close signals of some sessions and has taken their
entries out of the register, while nobody disturbs it. -/
theorem OnlyCall.endSessions (hi : OnlyCall s.calls.length h) (path : Path setup t h u)
    (hsessions : t.sessions = (s.cancelAll es).sessions)
    (hregistry : t.registry = s.registry.filter fun entry => !es.contains entry.2)
    (hbus : t.bus = s.bus) (hcalls : t.calls = s.calls ++ [⟨p, .closing es o true⟩])
    (hnext : t.nextEpoch = s.nextEpoch) (hdone : (u.outcome? s.calls.length).isSome = true) :
    u = s.endSessions es ⟨p, .done o⟩ := by
  have hc : t.calls[s.calls.length]? = some ⟨p, .closing es o true⟩ := by simp [hcalls]
  obtain rfl := hi.closes path hc hdone
  have hclosed : (t.closeAll es).sessions = (s.endSessions es ⟨p, .done o⟩).sessions := by
    refine List.ext_getElem? fun e => ?_
    rw [getElem?_closeAll, hsessions, getElem?_cancelAll, Relay.endSessions, List.getElem?_mapIdx]
    by_cases he : e ∈ es
    · simp [he, Function.comp_def, close_cancel]
    · simp [he]
  have hended : (t.closeAll es).calls.modify s.calls.length (fun c => { c with stage := .done o })
      = s.calls ++ [⟨p, .done o⟩] := by
    rw [calls_closeAll, hcalls, modify_concat]
  rw [setStage, hended, hclosed, registry_closeAll, hregistry, bus_closeAll, hbus,
    nextEpoch_closeAll, hnext, Relay.endSessions]

theorem calls_start_setStage {stage : Stage} :
    ((s.start p).setStage s.calls.length stage).calls = s.calls ++ [⟨p, stage⟩] :=
  modify_concat _ _ _

theorem filter_registeredPlaces (s : Relay) :
    (s.registry.filter fun entry => !s.registeredPlaces.contains entry.2) = [] := by
  rw [List.filter_eq_nil_iff]
  intro entry hmem
  simp [registeredPlaces, List.mem_map_of_mem (f := Prod.snd) hmem]

/-- A call to end all sessions ends them at once. -/
theorem CarriesOut.of_teardownAll (hcarries : CarriesOut setup .teardownAll s t) :
    ∃ k, Path setup (s.endSessions s.registeredPlaces
        ⟨.teardownAll, .done (.ended s.registeredPlaces.length)⟩) k t
      ∧ Own k ∧ t.Quiet setup := by
  obtain ⟨h, k, u, path, hi, hdone, rest, hown, quiet⟩ := hcarries
  have hc : (s.start .teardownAll).calls[s.calls.length]? = some ⟨.teardownAll, .clearing⟩ := by
    simp [start, Purpose.start]
  -- its first step fires all close signals and clears the register
  obtain ⟨v, k', hstep, hrest, hk'⟩ := hi.next path hc rfl hdone
  cases hstep
  have hsessions : ((s.start .teardownAll).cancelAll s.registeredPlaces).sessions
      = (s.cancelAll s.registeredPlaces).sessions := by
    refine List.ext_getElem? fun e => ?_
    rw [getElem?_cancelAll, getElem?_cancelAll]
    rfl
  have hcalls := (calls_clear (s := s.start .teardownAll) (i := s.calls.length) s.registeredPlaces
    (.closing s.registeredPlaces (.ended s.registeredPlaces.length) true)).trans
    calls_start_setStage
  obtain rfl := hk'.endSessions hrest hsessions (filter_registeredPlaces s).symm
    (bus_cancelAll _) hcalls (SameNumbers.cancelAll s.registeredPlaces).2 hdone
  exact ⟨k, rest, hown, quiet⟩

/-- Two entries are under one id exactly if they are of one session. -/
theorem Census.id_eq_iff (hcen : Census h s) {id' : SessionId} {e' : Place}
    (hmem : (id, e) ∈ s.registry) (hmem' : (id', e') ∈ s.registry) : id' = id ↔ e' = e := by
  constructor
  · rintro rfl
    have hr := (registered?_eq_some_iff hcen.ids).mpr hmem
    have hr' := (registered?_eq_some_iff hcen.ids).mpr hmem'
    exact Option.some.inj (hr'.symm.trans hr)
  · rintro rfl
    obtain ⟨x, hx, rfl⟩ := hcen.owned _ _ hmem
    exact (hcen.id_eq hx hmem').symm

/-- A call to end the session under an id ends it at once. -/
theorem CarriesOut.of_teardown (hcarries : CarriesOut setup (.teardown id none) s t)
    (run : Run setup busCapacity h s) (hmem : (id, e) ∈ s.registry) :
    ∃ k, Path setup (s.endSessions [e] ⟨.teardown id none, .done (.ended 1)⟩) k t
      ∧ Own k ∧ t.Quiet setup := by
  obtain ⟨h, k, u, path, hi, hdone, rest, hown, quiet⟩ := hcarries
  have hcen := census_of_run run
  have hr : (s.start (.teardown id none)).registered? id = some e :=
    (registered?_eq_some_iff hcen.ids).mpr hmem
  have hc : (s.start (.teardown id none)).calls[s.calls.length]?
      = some ⟨.teardown id none, .removing none (.ended 1) (.ended 0)⟩ := by
    simp [start, Purpose.start]
  obtain ⟨v, k', hstep, hrest, hk'⟩ := hi.next path hc rfl hdone
  -- its first step fires the close signal and takes the entry out of the register
  have hfound : (s.start (.teardown id none)).teardown? id none
      = some (e, (s.start (.teardown id none)).unregister id e) :=
    teardown?_eq_some_iff.mpr ⟨hr, rfl, rfl⟩
  have hid : (Purpose.teardown id none).id = id := rfl
  rw [stepCall] at hstep
  dsimp only at hstep
  rw [hid, hfound] at hstep
  cases hstep
  have hregistry : (s.registry.filter fun entry => entry.1 ≠ id)
      = s.registry.filter fun entry => !([e].contains entry.2) := by
    refine List.filter_congr fun entry hentry => ?_
    simp [hcen.id_eq_iff hmem hentry]
  obtain rfl := hk'.endSessions hrest rfl hregistry rfl calls_start_setStage rfl hdone
  exact ⟨k, rest, hown, quiet⟩

/-! ### Runs through such calls -/

/-- After a call that is carried out nobody can move. -/
theorem CarriesOut.quiet (hcarries : CarriesOut setup p s t) : t.Quiet setup :=
  let ⟨_, _, _, _, _, _, _, _, quiet⟩ := hcarries
  quiet

/-- A call that is carried out is part of a run. -/
theorem CarriesOut.run (hcarries : CarriesOut setup p s t) (run : Run setup busCapacity h s)
    (hp : s.mayStart p = true) : ∃ k, Run setup busCapacity k t := by
  obtain ⟨h₁, h₂, u, path, -, -, rest, -, -⟩ := hcarries
  have hstart : s.move? setup (.start p) = some (s.start p) := if_pos hp
  exact ⟨_, ((Path.snoc run hstart).append path).append rest⟩

/-- What is left when all sessions are ended at once. -/
theorem CarriesOut.eq_retire (hcarries : CarriesOut setup .teardownAll s t)
    (run : Run setup busCapacity h s) (quiet : s.Quiet setup) :
    t = (s.retire s.registeredPlaces).withCalls
      [⟨.teardownAll, .done (.ended s.registeredPlaces.length)⟩] := by
  obtain ⟨k, run'⟩ := hcarries.run run rfl
  obtain ⟨k', path, hown, quiet'⟩ := hcarries.of_teardownAll
  have hlived : ∀ e ∈ s.registeredPlaces, e ∈ s.registeredPlaces ∧ e ∉ [] :=
    fun e he => ⟨he, List.not_mem_nil⟩
  have hw := (Retiring.refl s).endSessions hlived
    (c := ⟨.teardownAll, .done (.ended s.registeredPlaces.length)⟩) rfl
  exact (hw.path run quiet path hown).eq_of_quiet run run' quiet'

/-- What is left when sessions are ended one after the other. -/
theorem EndsEach.retiring (run : Run setup busCapacity h s) (quiet : s.Quiet setup)
    (hends : EndsEach setup t ids u) (hw : Retiring s es cs t) (run' : Run setup busCapacity k t)
    (quiet' : t.Quiet setup) (hids : ids.Nodup)
    (hentries : ∀ id ∈ ids, ∃ e, e ∉ es ∧ (id, e) ∈ s.registry) :
    ∃ es' k', Retiring s (es ++ es')
        (cs ++ ids.map fun id => ⟨.teardown id none, .done (.ended 1)⟩) u
      ∧ Run setup busCapacity k' u ∧ u.Quiet setup
      ∧ ∀ e, e ∈ es' ↔ ∃ id ∈ ids, (id, e) ∈ s.registry := by
  have hcen := census_of_run run
  -- one session more is ended in each step, and those that follow still live
  induction hends generalizing es cs k with
  | nil => exact ⟨[], k, by simpa using hw, run', quiet', by simp⟩
  | @cons t v u id ids first rest ih =>
    rw [List.nodup_cons] at hids
    obtain ⟨e, he, hmem⟩ := hentries id List.mem_cons_self
    have hmem' : (id, e) ∈ t.registry := by
      rw [hw.registry, List.mem_filter]
      exact ⟨hmem, by simp [he]⟩
    have hlived : ∀ e' ∈ [e], e' ∈ s.registeredPlaces ∧ e' ∉ es := by
      intro e' he'
      obtain rfl := List.mem_singleton.mp he'
      exact ⟨mem_registeredPlaces hmem, he⟩
    obtain ⟨k₁, path, hown, quiet₁⟩ := first.of_teardown run' hmem'
    obtain ⟨k₂, run₂⟩ := first.run run' rfl
    have hw' := (hw.endSessions hlived (c := ⟨.teardown id none, .done (.ended 1)⟩) rfl).path run
      quiet path hown
    have hentries' : ∀ id' ∈ ids, ∃ e', e' ∉ es ++ [e] ∧ (id', e') ∈ s.registry := by
      intro id' hid'
      obtain ⟨e', he', hmem''⟩ := hentries id' (List.mem_cons_of_mem _ hid')
      refine ⟨e', ?_, hmem''⟩
      rw [List.mem_append, List.mem_singleton, not_or]
      refine ⟨he', fun heq => hids.1 ?_⟩
      rwa [← (hcen.id_eq_iff hmem hmem'').mpr heq]
    obtain ⟨es', k', hw'', run'', quiet'', hes'⟩ := ih hw' run₂ quiet₁ hids.2 hentries'
    refine ⟨e :: es', k', by simpa using hw'', run'', quiet'', fun e' => ?_⟩
    have hself : (id, e') ∈ s.registry ↔ e' = e :=
      ⟨fun hmem'' => (hcen.id_eq_iff hmem hmem'').mp rfl, fun heq => heq ▸ hmem⟩
    simp only [List.mem_cons, exists_eq_or_imp, hself, hes']

/-- What is left when all sessions are ended one after the other. -/
theorem EndsEach.eq_retire (hends : EndsEach setup s ids u) (run : Run setup busCapacity h s)
    (quiet : s.Quiet setup) (hids : ids.Perm s.ids) :
    u = (s.retire s.registeredPlaces).withCalls
      (ids.map fun id => ⟨.teardown id none, .done (.ended 1)⟩) := by
  have hentries : ∀ id ∈ ids, ∃ e, e ∉ [] ∧ (id, e) ∈ s.registry := by
    intro id hid
    obtain ⟨⟨id, e⟩, hmem, rfl⟩ := List.mem_map.mp (hids.mem_iff.mp hid)
    exact ⟨e, List.not_mem_nil, hmem⟩
  obtain ⟨es, k, hw, run', quiet', hes⟩ := hends.retiring run quiet (.refl s) run quiet
    (hids.nodup_iff.mpr (census_of_run run).ids) hentries
  have hall : ∀ e, e ∈ es ↔ e ∈ s.registeredPlaces := by
    intro e
    rw [hes]
    constructor
    · rintro ⟨id, -, hmem⟩
      exact mem_registeredPlaces hmem
    · intro hmem
      obtain ⟨⟨id, e⟩, hentry, rfl⟩ := List.mem_map.mp hmem
      exact ⟨id, hids.mem_iff.mpr (List.mem_map_of_mem hentry), hentry⟩
  have heq := hw.eq_of_quiet run run' quiet'
  rwa [List.nil_append, List.nil_append, retire_congr hall] at heq

/-! ### Coming to rest after such calls -/

/-- The call that moved last goes on as long as it can. -/
theorem exists_undisturbed (n : Nat) (hn : s.Numbered) (hwork : s.work setup ≤ n) :
    ∃ (h k : History) (u : Relay), Path setup s h u ∧ OnlyCall i h
      ∧ u.step? setup (.call i) = none
      ∧ Path setup u k (settleWithin setup n (some (.call i)) s) ∧ Own k := by
  induction n generalizing s with
  | zero =>
    refine ⟨[], [], s, .nil, by simp [OnlyCall], ?_, .nil, by simp [Own]⟩
    rw [Option.eq_none_iff_forall_ne_some]
    intro t hstep
    exact absurd (work_lt_of_step? hn hstep) (by omega)
  | succ n ih =>
    cases hstep : s.step? setup (.call i) with
    | none =>
      obtain ⟨⟨k, path, hown⟩, -⟩ := settleWithin_spec (n + 1) (some (.call i)) hn hwork
      exact ⟨[], k, s, .nil, by simp [OnlyCall], hstep, path, hown⟩
    | some t =>
      have hnext : s.next? setup (some (.call i)) = some (.call i, t) := by
        rw [next?_eq_or, Option.bind_some, hstep]
        rfl
      have hlt := work_lt_of_step? hn hstep
      obtain ⟨h, k, u, path, hi, hstuck, rest, hown⟩ := ih (hn.of_step? hstep) (by omega)
      rw [settleWithin, hnext]
      exact ⟨_, k, u, path.cons (m := .act (.call i)) hstep, List.forall_mem_cons.mpr ⟨rfl, hi⟩,
        hstuck, rest, hown⟩

/-- Where only one call can move, it goes on as long as it can before anybody else moves. -/
theorem exists_undisturbed_settle (hn : s.Numbered)
    (honly : ∀ a t, s.step? setup a = some t → a = .call i) :
    ∃ (h k : History) (u : Relay), Path setup s h u ∧ OnlyCall i h
      ∧ u.step? setup (.call i) = none ∧ Path setup u k (s.settle setup) ∧ Own k := by
  -- the call makes the first step, and who has moved last goes on
  rw [settle]
  cases hwork : s.work setup with
  | zero =>
    obtain ⟨h, k, u, hrest⟩ := exists_undisturbed (i := i) 0 hn (Nat.le_of_eq hwork)
    exact ⟨h, k, u, hrest⟩
  | succ n =>
    rw [settleWithin]
    cases hnext : s.next? setup none with
    | none =>
      exact ⟨[], [], s, .nil, by simp [OnlyCall], quiet_of_next? hnext (.call i), .nil,
        by simp [Own]⟩
    | some p =>
      obtain ⟨a, t⟩ := p
      have hstep := step?_of_next? hnext
      obtain rfl := honly a t hstep
      have hlt := work_lt_of_step? hn hstep
      have hle : t.work setup ≤ n := by omega
      obtain ⟨h, k, u, path, hi, hstuck, rest, hown⟩ :=
        exists_undisturbed (i := i) n (hn.of_step? hstep) hle
      exact ⟨_, k, u, path.cons (m := .act (.call i)) hstep, List.forall_mem_cons.mpr ⟨rfl, hi⟩,
        hstuck, rest, hown⟩

/-- When nobody can move, only a call that is started then can. -/
theorem Quiet.only_started (quiet : s.Quiet setup) (run : Run setup busCapacity h s) {a : Actor}
    (hstep : (s.start p).step? setup a = some t) : a = .call s.calls.length := by
  have hpost (ticket : Ticket) : s.bus.mayPost ticket = false :=
    (Retiring.refl s).mayPost_eq_false run quiet ticket
  have hn : (s.start p).Numbered := ⟨(numbered_of_run run).nodup, (numbered_of_run run).lt⟩
  cases a with
  | reader e =>
    obtain ⟨x, hx, hstep⟩ := Option.bind_eq_some_iff.mp hstep
    have step := readerStep_of_stepReader hn hx hstep
    exact absurd step ((quiet.restingReader hx).not_step rfl (hpost _))
  | call i =>
    obtain ⟨c, hc, hstep⟩ := Option.bind_eq_some_iff.mp hstep
    rcases call_of_append rfl hc with hc | ⟨hnone, hi, -⟩
    · have hnone := quiet.stepCall_eq_none (t := s.start p) run hc rfl (hpost _) fun _ _ => rfl
      cases hnone.symm.trans hstep
    · rw [hi]

/-- A call that ends sessions, and is started when nobody can move, is carried out. -/
theorem carriesOut_settle (run : Run setup busCapacity h s) (quiet : s.Quiet setup)
    (hp : p = .teardownAll ∨ ∃ id, p = .teardown id none) :
    CarriesOut setup p s ((s.start p).settle setup) := by
  have hmay : s.mayStart p = true := by
    rcases hp with rfl | ⟨id, rfl⟩ <;> rfl
  have hstart : s.move? setup (.start p) = some (s.start p) := if_pos hmay
  have hn : (s.start p).Numbered := numbered_of_run (.snoc run hstart)
  obtain ⟨h', k, u, path, hi, hstuck, rest, hown⟩ :=
    exists_undisturbed_settle hn fun a t => quiet.only_started (p := p) run
  refine ⟨h', k, u, path, hi, ?_, rest, hown, quiet_settle setup hn⟩
  have run' := (Path.snoc run hstart).append path
  have hc : (s.start p).calls[s.calls.length]? = some ⟨p, p.start s.sessions.length⟩ := by
    simp [start]
  obtain ⟨d, hd, hpurpose, -⟩ := path.call_after (P := fun _ => True) (fun _ _ _ _ => trivial) hn
    hc trivial
  -- a call that ends sessions waits for nobody
  have hrests := rests_of_stuck run' hd hstuck
  have hvisits := visits_of_run run' hd
  rw [hpurpose] at hvisits
  rw [outcome?, hd, Option.bind_some]
  cases hst : d.stage with
  | done o => rfl
  | dialing | waiting | writing | posting =>
    rw [hst] at hvisits
    rcases hp with rfl | ⟨id, rfl⟩ <;> cases hvisits
  | _ =>
    rw [hst] at hrests
    cases hrests

/-- Sessions that are ended one after the other are. -/
theorem endsEach_settle (run : Run setup busCapacity h s) (quiet : s.Quiet setup)
    (ids : List SessionId) : EndsEach setup s ids
      (ids.foldl (fun s id => (s.start (.teardown id none)).settle setup) s) := by
  induction ids generalizing s h with
  | nil => exact .nil
  | cons id ids ih =>
    have hcarries := carriesOut_settle (p := .teardown id none) run quiet (.inr ⟨id, rfl⟩)
    obtain ⟨k, run'⟩ := hcarries.run run rfl
    exact .cons hcarries (ih run' hcarries.quiet)

/-! ### Both ways -/

/-- Calls that have ended keep no connection open. -/
theorem endedByRelay_withCalls (hdone : ∀ c ∈ cs, ∃ o, c.stage = .done o) (e : Place) :
    (s.withCalls cs).endedByRelay e = s.endedByRelay e := by
  have hnone : (cs.any fun c => c.stage.keeps e) = false := by
    rw [List.any_eq_false]
    intro c hc
    obtain ⟨o, ho⟩ := hdone c hc
    simp [ho, Stage.keeps]
  have hkept : (s.withCalls cs).kept e = s.kept e := by
    rw [kept, kept, withCalls, List.any_append, hnone, Bool.or_false]
    rfl
  rw [endedByRelay, released, hkept]
  rfl

/-- To end all sessions at once is the same as to end them one after the other.

Let nobody be able to move in a state of a run. Then both can be done: the relay does them when it
is left to itself. And however they are done, whoever moves when and in whatever order the sessions
are ended, the relay comes to rest with the same sessions, that is the same close signals, the same
bytes in the connections and the same readers, of which some may still wait with a last message;
with the same bus; and with the same outcomes of all earlier calls: those of a relay whose sessions
have retired. The register is empty, and the same connections are ended by the relay. The one call
has ended as many sessions as there were, and each of the others has ended one. -/
theorem bulk_teardown (run : Run setup busCapacity h s) (quiet : s.Quiet setup)
    (hids : ids.Perm s.ids) :
    CarriesOut setup .teardownAll s (s.shutdown setup)
      ∧ EndsEach setup s ids (ids.foldl (fun s id => (s.start (.teardown id none)).settle setup) s)
      ∧ ∀ t u, CarriesOut setup .teardownAll s t → EndsEach setup s ids u →
        t = (s.retire s.registeredPlaces).withCalls [⟨.teardownAll, .done (.ended ids.length)⟩]
        ∧ u = (s.retire s.registeredPlaces).withCalls
          (ids.map fun id => ⟨.teardown id none, .done (.ended 1)⟩)
        ∧ t.registry = [] ∧ u.registry = [] ∧ ∀ e, t.endedByRelay e = u.endedByRelay e := by
  refine ⟨carriesOut_settle run quiet (.inl rfl), endsEach_settle run quiet ids, ?_⟩
  intro t u hall heach
  have hlength : s.registeredPlaces.length = ids.length := by
    rw [hids.length_eq, registeredPlaces, Relay.ids, List.length_map, List.length_map]
  have ht := hall.eq_retire run quiet
  have hu := heach.eq_retire run quiet hids
  rw [hlength] at ht
  refine ⟨ht, hu, ?_, ?_, fun e => ?_⟩
  · rw [ht]
    exact filter_registeredPlaces s
  · rw [hu]
    exact filter_registeredPlaces s
  · have hone : ∀ c ∈ ([⟨.teardownAll, .done (.ended ids.length)⟩] : List Call),
        ∃ o, c.stage = .done o := by
      intro c hc
      obtain rfl := List.mem_singleton.mp hc
      exact ⟨_, rfl⟩
    have heach : ∀ c ∈ ids.map fun id => (⟨.teardown id none, .done (.ended 1)⟩ : Call),
        ∃ o, c.stage = .done o := by
      intro c hc
      obtain ⟨id, -, rfl⟩ := List.mem_map.mp hc
      exact ⟨_, rfl⟩
    rw [ht, hu, endedByRelay_withCalls hone, endedByRelay_withCalls heach]

/-- A connection that takes four bytes is stalled by a write, and another write waits behind it. One
reader waits for room on the bus with a message, and another with its last. -/
def threeStalled : List Move :=
  [.attach "a" 4 true false, .act (.call 0), .act (.call 0),
    .attach "b" 64 true false, .act (.call 1), .act (.call 1),
    .attach "c" 64 true false, .act (.call 2), .act (.call 2),
    .start (.write 0 [1, 2, 3, 4, 5, 6]), .act (.call 3), .act (.call 3), .act (.call 3),
    .act (.call 3), .start (.write 0 [7]), .act (.call 4),
    .brokerPut 1 (Utf8.encodeText "SEND\n\n\x00SEND\n\n\x00")]
    ++ List.replicate 16 (.act (.reader 1)) ++ [.brokerDrop 2, .act (.reader 2)]

/-- Whichever way these sessions are ended, both writes fail, and the write side that they held is
not shut. The message that waited is given up, and the last message of a session still waits. -/
theorem bulk_teardown_of_three_stalled :
    ∃ h s t u, Run ⟨.standard, 16, "broker"⟩ 1 h s ∧ s.Quiet ⟨.standard, 16, "broker"⟩
      ∧ CarriesOut ⟨.standard, 16, "broker"⟩ .teardownAll s t
      ∧ EndsEach ⟨.standard, 16, "broker"⟩ s ["c", "a", "b"] u
      ∧ s.bus.line = [.reader 1, .reader 2] ∧ t.bus = u.bus ∧ u.bus.line = [.reader 2]
      ∧ t.sessions = u.sessions ∧ u.sessions.map Session.shut = [false, true, true]
      ∧ t.outcome? 3 = some (.broken .closed) ∧ u.outcome? 4 = some (.broken .closed)
      ∧ t.outcome? 5 = some (.ended 3) ∧ u.outcome? 7 = some (.ended 1) := by
  have hends : ((Relay.empty 1).trace? ⟨.standard, 16, "broker"⟩ threeStalled).any (fun p =>
      let atOnce := (p.2.retire p.2.registeredPlaces).withCalls
        [⟨.teardownAll, .done (.ended 3)⟩]
      let each := (p.2.retire p.2.registeredPlaces).withCalls
        (["c", "a", "b"].map fun id => ⟨.teardown id none, .done (.ended 1)⟩)
      (p.2.next? ⟨.standard, 16, "broker"⟩ none).isNone && p.2.ids = ["a", "b", "c"]
        && p.2.bus.line = [.reader 1, .reader 2] && each.bus.line = [.reader 2]
        && each.sessions.map Session.shut = [false, true, true]
        && atOnce.outcome? 3 = some (.broken .closed) && each.outcome? 4 = some (.broken .closed)
        && atOnce.outcome? 5 = some (.ended 3) && each.outcome? 7 = some (.ended 1)) = true := by
    decide +kernel
  obtain ⟨⟨h, s⟩, htrace, hends⟩ := (Option.any_eq_true _ _).mp hends
  simp only [Bool.and_eq_true, decide_eq_true_eq, Option.isNone_iff_eq_none] at hends
  obtain ⟨⟨⟨⟨⟨⟨⟨⟨hquiet, hids⟩, hbefore⟩, hline⟩, hshut⟩, hfirst⟩, hsecond⟩, hall⟩, heach⟩ := hends
  have run := path_of_trace? threeStalled htrace
  have quiet := quiet_of_next? hquiet
  have hperm : ["c", "a", "b"].Perm s.ids := by
    rw [hids]
    decide
  obtain ⟨carries, ends, hboth⟩ := bulk_teardown run quiet hperm
  obtain ⟨ht, hu, -⟩ := hboth _ _ carries ends
  refine ⟨h, s, _, _, run, quiet, carries, ends, hbefore, ?_⟩
  rw [ht, hu]
  exact ⟨rfl, hline, rfl, hshut, hfirst, hsecond, hall, heach⟩

end StompRelay.Relay
