import StompRelay.Proofs.Isolation.Account
import StompRelay.Proofs.Life.Cycle
/-!
# Sessions that the relay has to itself

The relay opens all sessions itself, and nobody outside it keeps one, writes to one or closes one by
place, or takes entries out of the register. The calls of one client may overlap in any way.

## Main definitions

* `Relay.Managed` — nobody handles a session by hand

## Main results

* `Relay.held_of_run` — nobody outside the relay keeps a session
* `Relay.registered_of_keeps` — a call keeps only sessions that are or were registered, except for
  the one that it opens
-/

namespace StompRelay

/-- Whether a call handles a session by hand: it brings the session along, or names it by number. -/
def Purpose.isManual : Purpose → Bool
  | attach _ _ _ | write _ _ | close _ => true
  | _ => false

theorem Session.held_close (x : Session) : x.close.held = x.held := by
  unfold close
  split <;> rfl

namespace Relay

/-- Whether a move handles a session or its entry by hand. -/
def Move.isManual : Move → Bool
  | .start p => p.isManual
  | .attach _ _ _ _ | .letGo _ | .forget _ => true
  | _ => false

/-- Nobody outside the relay handles a session or its entry by hand. -/
def Managed (h : History) : Prop := h.all (fun τ => !τ.move.isManual) = true

instance (h : History) : Decidable (Managed h) := inferInstanceAs (Decidable (_ = true))

variable {setup : Setup} {busCapacity : Nat} {s t : Relay} {h k : History} {m : Move} {e : Place}
  {i : CallId} {c : Call} {x y : Session}

theorem managed_append : Managed (h ++ k) ↔ Managed h ∧ Managed k := by
  simp [Managed]

theorem managed_snoc {τ : Transition} :
    Managed (h ++ [τ]) ↔ Managed h ∧ τ.move.isManual = false := by
  simp [Managed]

/-- Nobody removes entries or closes sessions by hand in a managed run. -/
theorem Managed.orderly (hm : Managed h) : Orderly h := by
  rw [Orderly, List.all_eq_true]
  intro τ hτ
  have hmove := List.all_eq_true.mp hm τ hτ
  cases hm' : τ.move with
  | start p =>
    rw [hm'] at hmove
    cases p <;> first | rfl | cases hmove
  | forget => rw [hm'] at hmove; cases hmove
  | _ => rfl

/-- In a managed run, no call handles a session by hand. -/
theorem isManual_of_run (run : Run setup busCapacity h s) (hm : Managed h)
    (hc : s.calls[i]? = some c) : c.purpose.isManual = false := by
  induction run generalizing c with
  | nil => simp [Relay.empty] at hc
  | @snoc h s t m run hmove ih =>
    obtain ⟨hbefore, hmanual⟩ := managed_snoc.mp hm
    have step := run.moveStep hmove
    cases hs : s.calls[i]? with
    | some b =>
      have hpurpose := step.purpose_eq hs hc
      exact hpurpose ▸ ih hbefore hs
    | none =>
      obtain ⟨-, rfl | ⟨id, capacity, reads, holds, rfl, -⟩⟩ := step.call_new hs hc
      · exact hmanual
      · cases hmanual

/-! ### Nobody outside the relay keeps a session -/

/-- A call that does not hand a session over leaves it to those who have it. -/
theorem CallStep.held_eq (step : CallStep setup s i c t) (hp : c.purpose.isManual = false)
    (hx : s.sessions[e]? = some x) (hy : t.sessions[e]? = some y) : y.held = x.held := by
  have modified {e' : Place} {g : Session → Session}
      (ht : t.sessions = (s.modifySession e' g).sessions)
      (hg : ∀ x, s.sessions[e']? = some x → (g x).held = x.held) : y.held = x.held := by
    rcases eq_or_of_modifySession hx ht hy with rfl | ⟨rfl, rfl⟩
    · rfl
    · exact hg x hx
  cases step with
  | attach _ hattach =>
    rw [hattach] at hp
    cases hp
  | reject | start | queue | bounce | cut | accept | finish | snap | condemn | remove =>
    exact modified rfl fun _ _ => rfl
  | push _ hx' _ _ hpush =>
    refine modified rfl fun x hx => ?_
    obtain rfl := Option.some.inj (hx'.symm.trans hx)
    obtain ⟨bs, -, hy'⟩ := Session.eq_of_push? hpush
    rw [hy']
  | @complete _ _ y' _ _ hx' _ _ hpush =>
    refine modified (g := fun _ => y'.leave i) (List.modify_modify_eq _ _ _ _) fun x hx => ?_
    obtain rfl := Option.some.inj (hx'.symm.trans hx)
    obtain ⟨bs, -, hy'⟩ := Session.eq_of_push? hpush
    rw [hy']
    rfl
  | clear =>
    by_cases he : e ∈ s.registeredPlaces
    · cases hy.symm.trans (getElem?_cancelAll_of_mem he hx)
      rfl
    · cases hy.symm.trans ((getElem?_cancelAll_of_notMem he).trans hx)
      rfl
  | close => exact modified rfl fun x _ => x.held_close
  | _ =>
    cases hy.symm.trans hx
    rfl

/-- In a managed run, nobody outside the relay keeps a session. -/
theorem held_of_run (run : Run setup busCapacity h s) (hm : Managed h)
    (hx : s.sessions[e]? = some x) : x.held = false := by
  induction run generalizing x with
  | nil => simp [Relay.empty] at hx
  | @snoc h s t m run hmove ih =>
    obtain ⟨hbefore, hmanual⟩ := managed_snoc.mp hm
    have step := run.moveStep hmove
    cases hs : s.sessions[e]? with
    | none =>
      obtain ⟨id, capacity, rfl⟩ := step.session_new hs hx
      rfl
    | some x' =>
      have same (ht : t.sessions = s.sessions) : x.held = false := by
        cases hx.symm.trans (ht ▸ hs)
        exact ih hbefore hs
      have modified {e' : Place} {g : Session → Session}
          (ht : t.sessions = (s.modifySession e' g).sessions) (hg : ∀ x, (g x).held = x.held) :
          x.held = false := by
        rcases eq_or_of_modifySession hs ht hx with rfl | ⟨-, rfl⟩
        · exact ih hbefore hs
        · exact (hg x').trans (ih hbefore hs)
      cases step with
      | reader _ own =>
        cases own with
        | unregister =>
          exact modified (g := fun x => { x.cancel with reader := .shutting })
            (List.modify_modify_eq _ _ _ _) fun _ => rfl
        | shut => exact modified rfl fun x => x.held_close
        | _ => exact modified rfl fun _ => rfl
      | call hc own =>
        exact (own.held_eq (isManual_of_run run hbefore hc) hs hx).trans (ih hbefore hs)
      | connected =>
        have hlt := (List.getElem?_eq_some_iff.mp hs).1
        cases hx.symm.trans ((List.getElem?_append_left hlt).trans hs)
        exact ih hbefore hs
      | brokerPut | brokerTake | brokerDrop | breakInput => exact modified rfl fun _ => rfl
      | attach | letGo | forget => cases hmanual
      | _ => exact same rfl

/-! ### What calls keep -/

theorem mem_creations_snoc {τ : Transition} {entry : SessionId × Place}
    (hmem : entry ∈ creations h) : entry ∈ creations (h ++ [τ]) := by
  rw [creations_snoc rfl]
  exact List.mem_append_left _ hmem

/-- A session that a call keeps in a managed run is, or was, registered, unless the call is about to
register it. -/
theorem registered_of_keeps (run : Run setup busCapacity h s) (hm : Managed h)
    (hc : s.calls[i]? = some c) (hk : c.stage.keeps e = true) :
    c.stage = .registering e ∨ ∃ id, (id, e) ∈ creations h := by
  induction run generalizing c with
  | nil => simp [Relay.empty] at hc
  | @snoc h s t m run hmove ih =>
    obtain ⟨hbefore, hmanual⟩ := managed_snoc.mp hm
    have step := run.moveStep hmove
    have entered {id : SessionId} (hmem : (id, e) ∈ s.registry) :
        ∃ id, (id, e) ∈ creations (h ++ [⟨s, m, t⟩]) :=
      ⟨id, mem_creations_snoc ((chronicle_of_run run hbefore.orderly).entered id e hmem)⟩
    rcases step.call_before hc with ⟨b, hb, -, hstage⟩ | ⟨hnone, hstart⟩
    · by_cases hm' : m = .act (.call i)
      · subst hm'
        cases step with
        | call hb' own =>
          obtain rfl := Option.some.inj (hb.symm.trans hb')
          have hnew := stage?_eq_of_getElem? hc
          rcases own.keeps_before hb hnew hk with hkept | ⟨-, hr⟩ | ⟨-, hin⟩
          · rcases ih hbefore hb hkept with hst | ⟨id, hmem⟩
            · -- the call has just registered its session, or keeps nothing any more
              obtain ⟨new, hnew', hnext, -⟩ := own.stage?_eq hb
              obtain rfl := Option.some.inj (hnew.symm.trans hnew')
              rw [hst] at hnext
              cases hst' : c.stage with
              | starting e' =>
                rw [hst'] at hk hnew
                obtain rfl : e = e' := by simpa [Stage.keeps] using hk
                refine .inr ⟨b.purpose.id, ?_⟩
                rw [creations_snoc (life?_call hb hnew), hst]
                exact List.mem_append_right _ (List.mem_singleton_self _)
              | done =>
                rw [hst'] at hk
                cases hk
              | _ =>
                rw [hst'] at hnext
                cases hnext
            · exact .inr ⟨id, mem_creations_snoc hmem⟩
          · exact .inr (entered (mem_registry_of_registered? hr))
          · obtain ⟨⟨id, e'⟩, hmem, rfl⟩ := List.mem_map.mp hin
            exact .inr (entered hmem)
      · rcases step.stage_of_ne hm' hb hc with heq | ⟨-, ⟨o, ht⟩ | ⟨e', ht⟩⟩
        · rw [heq] at hk ⊢
          rcases ih hbefore hb hk with hst | ⟨id, hmem⟩
          · exact .inl hst
          · exact .inr ⟨id, mem_creations_snoc hmem⟩
        · rw [ht] at hk
          cases hk
        · rw [ht] at hk
          obtain rfl : e = e' := by simpa [Stage.keeps] using hk
          exact .inl ht
    · -- only a call that handles a session by hand starts with one
      have hpurpose := isManual_of_run (.snoc run hmove) hm hc
      rw [hstart] at hk
      cases hp : c.purpose <;> rw [hp] at hk hpurpose <;> first | cases hk | cases hpurpose

end Relay

end StompRelay
