import StompRelay.Proofs.Handling.Connections
import StompRelay.Proofs.Wire.Integrity
/-!
# Sessions that calls open

A call that has got its connection registers a session over it and starts the reader of that
session. If the id of the call is taken by then, it drops the session instead, and nobody has it any
more. When nobody can move, nothing keeps a session that is closed.

## Main definitions

* `Relay.enrolments` — what the calls found that wanted to register a session
* `Relay.Launched`, `Relay.Dropped` — how far the session is that a call has opened

## Main results

* `Relay.launched_of_run` — in every managed run it is one of these
* `Relay.Quiet.finished`, `Relay.Quiet.kept_eq_false` — what becomes of closed sessions
-/

namespace StompRelay

/-- Whether a session has a reader, or had one. -/
def Reader.isStarted : Reader → Bool
  | .unstarted | .absent => false
  | _ => true

namespace Relay

/-- What the calls found that wanted to register a session, in order. -/
abbrev enrolments (h : History) : List (CallId × Option Place) := inquiries Stage.registers h

/-- The call with which a client logs in, without headers. -/
def loginOf (id : SessionId) : Purpose := .login ⟨id, some .connect, [], .bytes []⟩ .connect

variable {setup : Setup} {busCapacity : Nat} {s t : Relay} {h k : History} {m : Move} {e : Place}
  {i : CallId} {b c d : Call} {x y : Session}

/-! ### Sessions that were opened -/

/-- A session that has had a reader is not handed over again. -/
theorem MoveStep.isStarted (ho : s.Opening) (step : MoveStep setup s m t)
    (hx : s.sessions[e]? = some x) (hy : t.sessions[e]? = some y)
    (hstarted : x.reader.isStarted = true) : y.reader.isStarted = true := by
  obtain ⟨y', hy', input⟩ := step.inputStep hx
  obtain rfl := Option.some.inj (hy.symm.trans hy')
  cases input with
  | rest _ same =>
    rw [same.reader]
    exact hstarted
  | own own =>
    cases own with
    | unregister =>
      obtain rfl := eq_of_unregister hx hy
      rfl
    | _ =>
      obtain rfl := eq_of_modifySession hx hy
      rfl
  | drop _ _ _ hy' =>
    rw [hy']
    rfl
  | start hc hst =>
    rw [ho.eq_unstarted hx hc (by simp [hst, Stage.opens])] at hstarted
    cases hstarted

/-- A reader that has finished has finished for good. -/
theorem MoveStep.finished (ho : s.Opening) (step : MoveStep setup s m t)
    (hx : s.sessions[e]? = some x) (hy : t.sessions[e]? = some y)
    (hr : x.reader = .finished) : y.reader = .finished := by
  obtain ⟨y', hy', input⟩ := step.inputStep hx
  obtain rfl := Option.some.inj (hy.symm.trans hy')
  cases input with
  | rest _ same => exact same.reader.trans hr
  | own own => cases own <;> simp_all
  | drop _ _ _ hy' => rw [hy']
  | start hc hst =>
    rw [ho.eq_unstarted hx hc (by simp [hst, Stage.opens])] at hr
    cases hr

/-- How far session `e`, which is `x`, is that was opened for call `c`: it is about to be
registered, or it was registered and its reader is about to be started, or was. -/
def Launched (h : History) (c : Call) (e : Place) (x : Session) : Prop :=
  c.stage = .registering e
    ∨ (c.purpose.id, e) ∈ creations h ∧ (c.stage = .starting e ∨ x.reader.isStarted = true)

/-- Session `e`, which is `x`, was opened for call `i`, which is `c`, and dropped: the call found
its id taken, and the session was never registered. -/
structure Dropped (h : History) (i : CallId) (c : Call) (e : Place) (x : Session) : Prop where
  done : c.stage = .done (.failed (.sessionAlreadyExists c.purpose.id))
  finished : x.reader = .finished
  unregistered : e ∉ (creations h).map Prod.snd
  taken : ∃ e', (i, some e') ∈ enrolments h

/-- What a call that opens a session does with it. -/
theorem CallStep.opens_cases (hc : s.calls[i]? = some c) (step : CallStep setup s i c t)
    (ho : c.stage.opens e = true) :
    (c.stage = .registering e ∧ (∃ e', s.registered? c.purpose.id = some e')
        ∧ t.stage? i = some (.done (.failed (.sessionAlreadyExists c.purpose.id)))
        ∧ t.sessions = (s.setReader e .finished).sessions)
      ∨ (c.stage = .registering e ∧ t.stage? i = some (.starting e))
      ∨ (c.stage = .starting e ∧ c.purpose.isManual = true)
      ∨ c.stage = .starting e
        ∧ ∃ r : Reader, r.isStarted = true ∧ t.sessions = (s.setReader e r).sessions := by
  cases step with
  | reject hst hr =>
    rw [hst] at ho
    obtain rfl : _ = e := by simpa [Stage.opens] using ho
    exact .inl ⟨hst, ⟨_, hr⟩, stage?_of_calls_eq (stage?_eq_of_getElem? hc) rfl, rfl⟩
  | register hst =>
    rw [hst] at ho
    obtain rfl : _ = e := by simpa [Stage.opens] using ho
    exact .inr (.inl ⟨hst, stage?_of_calls_eq (stage?_eq_of_getElem? hc) rfl⟩)
  | attach hst hattach =>
    rw [hst] at ho
    obtain rfl : _ = e := by simpa [Stage.opens] using ho
    exact .inr (.inr (.inl ⟨hst, by rw [hattach]; rfl⟩))
  | start hst =>
    rw [hst] at ho
    obtain rfl : _ = e := by simpa [Stage.opens] using ho
    exact .inr (.inr (.inr ⟨hst, _, rfl, rfl⟩))
  | refuse hst | dial hst | find hst | miss hst | encode hst | unencodable hst | queue hst
  | turn hst | bounce hst | cut hst | accept hst | finish hst | snap hst | push hst
  | complete hst | condemn hst | late hst | remove hst | pass hst | clear hst | close hst
  | leave hst | join hst | refrain hst | post hst =>
    rw [hst] at ho
    cases ho

/-- A call that finds its id taken when it registers its session drops the session. -/
theorem dropped_of_done (run : Run setup busCapacity h s) (hm : Managed h)
    (hc : s.calls[i]? = some c) (hst : c.stage = .registering e)
    (hr : ∃ e', s.registered? c.purpose.id = some e')
    (hdone : t.stage? i = some (.done (.failed (.sessionAlreadyExists c.purpose.id))))
    (ht : t.sessions = (s.setReader e .finished).sessions) (hx : s.sessions[e]? = some x)
    (hd : t.calls[i]? = some d) (hpurpose : d.purpose = c.purpose)
    (hy : t.sessions[e]? = some y) : Dropped (h ++ [⟨s, .act (.call i), t⟩]) i d e y := by
  obtain ⟨e', hr⟩ := hr
  have hlife : Transition.life? ⟨s, .act (.call i), t⟩ = none := by
    rw [life?_call hc hdone, hst]
    rfl
  obtain rfl := eq_of_modifySession hx (ht ▸ hy)
  refine ⟨?_, rfl, ?_, e', ?_⟩
  · rw [hpurpose]
    exact Option.some.inj ((stage?_eq_of_getElem? hd).symm.trans hdone)
  · rw [creations_snoc hlife, Option.bind_none, Option.toList_none, List.append_nil]
    exact (chronicle_of_run run hm.orderly).once i c e hc hst
  · rw [← hr]
    exact mem_inquiries_call hc (by rw [hst]; rfl)

/-- A step of a call that opens a session takes it further, or drops it. -/
theorem CallStep.launched (run : Run setup busCapacity h s) (hm : Managed h)
    (hc : s.calls[i]? = some c) (step : CallStep setup s i c t) (hx : s.sessions[e]? = some x)
    (hd : t.calls[i]? = some d) (hpurpose : d.purpose = c.purpose)
    (hy : t.sessions[e]? = some y) (hl : Launched h c e x) :
    Launched (h ++ [⟨s, .act (.call i), t⟩]) d e y
      ∨ Dropped (h ++ [⟨s, .act (.call i), t⟩]) i d e y := by
  have hnew : t.stage? i = some d.stage := stage?_eq_of_getElem? hd
  have opens (ho : c.stage.opens e = true) :
      Launched (h ++ [⟨s, .act (.call i), t⟩]) d e y
        ∨ Dropped (h ++ [⟨s, .act (.call i), t⟩]) i d e y := by
    rcases step.opens_cases hc ho with
      ⟨hst, hr, hdone, ht⟩ | ⟨hst, hstarting⟩ | ⟨-, hmanual⟩ | ⟨hst, r, hr, ht⟩
    · exact .inr (dropped_of_done run hm hc hst hr hdone ht hx hd hpurpose hy)
    · have hlife := life?_call hc hstarting
      rw [hst] at hlife
      refine .inl (.inr ⟨?_, .inl (Option.some.inj (hnew.symm.trans hstarting))⟩)
      rw [creations_snoc hlife, hpurpose]
      exact List.mem_append_right _ (List.mem_singleton_self _)
    · rw [isManual_of_run run hm hc] at hmanual
      cases hmanual
    · rcases hl with hst' | ⟨hmem, -⟩
      · cases hst.symm.trans hst'
      · obtain rfl := eq_of_modifySession hx (ht ▸ hy)
        exact .inl (.inr ⟨hpurpose ▸ mem_creations_snoc hmem, .inr hr⟩)
  rcases hl with hst | ⟨hmem, hst | hstarted⟩
  · exact opens (by simp [hst, Stage.opens])
  · exact opens (by simp [hst, Stage.opens])
  · refine .inl (.inr ⟨hpurpose ▸ mem_creations_snoc hmem, .inr ?_⟩)
    exact (MoveStep.call hc step).isStarted (opening_of_run run) hx hy hstarted

/-- A session that was dropped stays as it is. -/
theorem Dropped.step (run : Run setup busCapacity h s) (hm : Managed h)
    (step : MoveStep setup s m t) (hmanual : m.isManual = false) (ho : (i, e) ∈ openings h)
    (hc : s.calls[i]? = some c) (hx : s.sessions[e]? = some x) (hd : t.calls[i]? = some d)
    (hy : t.sessions[e]? = some y) (hdropped : Dropped h i c e x) :
    Dropped (h ++ [⟨s, m, t⟩]) i d e y := by
  obtain rfl := Option.some.inj (hd.symm.trans (step.done_after hc hdropped.done))
  obtain ⟨e', htaken⟩ := hdropped.taken
  refine ⟨hdropped.done, step.finished (opening_of_run run) hx hy hdropped.finished, ?_,
    e', mem_inquiries_snoc htaken⟩
  have horderly : m.orderly = true :=
    (orderly_snoc.mp (managed_snoc.mpr ⟨hm, hmanual⟩ : Managed (h ++ [⟨s, m, t⟩])).orderly).2
  have register := step.registerStep (enrolled_of_run run hm.orderly) horderly
  rw [creations_snoc rfl, List.map_append, List.mem_append]
  rintro (hold | hnew)
  · exact hdropped.unregistered hold
  · generalize Transition.life? ⟨s, m, t⟩ = event at register hnew
    cases register with
    | @create j b e' hb hst =>
      -- only the call that has opened it registers it, and that has ended
      obtain rfl : e = e' := List.mem_singleton.mp hnew
      have hopens := opening_of_opens run hm hb (e := e) (by simp [hst, Stage.opens])
      obtain rfl := (opened_of_run run).call _ _ _ ho hopens
      obtain rfl := Option.some.inj (hb.symm.trans hc)
      cases hst.symm.trans hdropped.done
    | rest | «end» | clear => cases hnew

/-- In a managed run, whatever a call has opened it registers and starts the reader of, or drops. -/
theorem launched_of_run (run : Run setup busCapacity h s) (hm : Managed h)
    (ho : (i, e) ∈ openings h) (hc : s.calls[i]? = some c) (hx : s.sessions[e]? = some x) :
    Launched h c e x ∨ Dropped h i c e x := by
  induction run generalizing c x with
  | nil => cases ho
  | @snoc h s t m run hmove ih =>
    obtain ⟨hbefore, hmanual⟩ := managed_snoc.mp hm
    have step := run.moveStep hmove
    rw [openings_snoc, List.mem_append, Option.mem_toList] at ho
    rcases ho with ho | ho
    · obtain ⟨b, x', hb, hx', -, -, hdialed⟩ := (opened_of_run run).calls i e ho
      have hpurpose := step.purpose_eq hb hc
      rcases ih hbefore ho hb hx' with hl | hdropped
      · by_cases hm' : m = .act (.call i)
        · subst hm'
          cases step with
          | call hb' own =>
            obtain rfl := Option.some.inj (hb'.symm.trans hb)
            exact own.launched run hbefore hb hx' hc hpurpose hx hl
        · -- others leave the call where it is, and the reader to itself
          have heq : c.stage = b.stage := by
            rcases step.stage_of_ne hm' hb hc with heq | ⟨hdialing, -⟩
            · exact heq
            · rw [hdialing] at hdialed
              cases hdialed
          rcases hl with hst | ⟨hmem, hst⟩
          · exact .inl (.inl (heq.trans hst))
          · refine .inl (.inr ⟨hpurpose ▸ mem_creations_snoc hmem, ?_⟩)
            exact hst.imp heq.trans (step.isStarted (opening_of_run run) hx' hx)
      · exact .inr (hdropped.step run hbefore step hmanual ho hb hx' hc hx)
    · obtain ⟨-, p, capacity, -, hnew, -⟩ := step.exists_of_opening? ho
      exact .inl (.inl (Option.some.inj ((stage?_eq_of_getElem? hc).symm.trans hnew)))

/-- The relay has let go of the connection of a session that was dropped. -/
theorem Dropped.released (run : Run setup busCapacity h s) (hm : Managed h)
    (ho : (i, e) ∈ openings h) (hc : s.calls[i]? = some c) (hx : s.sessions[e]? = some x)
    (hdropped : Dropped h i c e x) : e ∉ s.registeredPlaces ∧ s.released e = true := by
  have hregistered : e ∉ s.registeredPlaces := by
    intro hmem
    obtain ⟨⟨id, e'⟩, hentry, rfl⟩ := List.mem_map.mp hmem
    exact hdropped.unregistered
      (List.mem_map_of_mem ((chronicle_of_run run hm.orderly).entered id e' hentry))
  have hcalls : (s.calls.any fun c => c.stage.keeps e) = false := by
    rw [List.any_eq_false]
    intro b hmem hk
    obtain ⟨j, hb⟩ := List.mem_iff_getElem?.mp hmem
    rcases registered_of_keeps run hm hb hk with hst | ⟨id, hcreated⟩
    · -- a call that is about to register it is the one that has opened it
      have hopens := opening_of_opens run hm hb (e := e) (by simp [hst, Stage.opens])
      obtain rfl := (opened_of_run run).call _ _ _ ho hopens
      obtain rfl := Option.some.inj (hb.symm.trans hc)
      cases hst.symm.trans hdropped.done
    · exact hdropped.unregistered (List.mem_map_of_mem hcreated)
  refine ⟨hregistered, ?_⟩
  simp [Relay.released, kept, hregistered, hcalls, hx, held_of_run run hm hx, hdropped.finished,
    Reader.holdsInput]

/-! ### Closed sessions -/

/-- A session that is closed stays closed on every path. -/
theorem HasClosed.path (hclosed : s.HasClosed e) (run : Run setup busCapacity h s)
    (path : Path setup s k t) : t.HasClosed e := by
  induction path with
  | nil => exact hclosed
  | snoc path hm ih => exact ih.step ((run.append path).moveStep hm)

/-- When nobody can move, the reader of a closed session has finished, unless it waits with its last
message. -/
theorem Quiet.finished (quiet : s.Quiet setup) (hx : s.sessions[e]? = some x)
    (hclosed : x.closed = true) (hstarted : x.reader.isStarted = true)
    (hn : ∀ m, x.reader ≠ .notifying m) : x.reader = .finished := by
  have hstep : s.step? setup (.reader e) = none := quiet (.reader e)
  rw [step?, hx, Option.bind_some, stepReader] at hstep
  cases hr : x.reader with
  | finished => rfl
  | unstarted | absent =>
    rw [hr] at hstarted
    cases hstarted
  | notifying m => exact absurd hr (hn m)
  | reading | delivering =>
    rw [hr] at hstep
    simp [hclosed] at hstep
  | ending =>
    rw [hr] at hstep
    dsimp only at hstep
    split at hstep <;> cases hstep
  | shutting =>
    rw [hr] at hstep
    cases hstep

/-- When nobody can move in a managed run, nothing keeps a closed session. -/
theorem Quiet.kept_eq_false (quiet : s.Quiet setup) (run : Run setup busCapacity h s)
    (hm : Managed h) (hx : s.sessions[e]? = some x) (hclosed : x.closed = true) :
    s.kept e = false := by
  have hregistered : e ∉ s.registeredPlaces := fun hr => by
    have hopen := (enrolled_of_run run hm.orderly).closed_eq_false hx hr
    exact Bool.false_ne_true (hopen.symm.trans hclosed)
  have hcalls : (s.calls.any fun c => c.stage.keeps e) = false := by
    rw [List.any_eq_false]
    intro c hmem hk
    obtain ⟨i, hc⟩ := List.mem_iff_getElem?.mp hmem
    have hrests := quiet.rests run hc
    have hheads := quiet.heads_eq_false hx ((wired_of_run run e).2 x hx).1 (.inl hclosed)
      (stage?_eq_of_getElem? hc)
    -- of the calls that keep a session only those wait that are about to write to it
    cases hst : c.stage <;> simp_all [Stage.rests, Stage.keeps, Stage.heads]
  simp [kept, hregistered, hcalls, hx, held_of_run run hm hx]

end Relay

end StompRelay
