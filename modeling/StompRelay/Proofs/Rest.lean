import StompRelay.Proofs.Opening
import StompRelay.Relay.Settle
/-!
# Coming to rest

Every step of a reader or a call uses up some of the work that is ahead. So the relay takes only so
many steps of its own before it comes to rest, whoever moves when.

## Main definitions

* `Relay.sessionsWork`, `Relay.callsWork` — the two parts of the work ahead
* `Relay.Own` — histories in which only readers and calls move

## Main results

* `Relay.work_lt_of_step?` — every step of a reader or a call uses up some work
* `Relay.Path.length_le_work` — the relay takes only so many steps of its own
* `Relay.quiet_settle`, `Relay.path_settle` — where the relay comes to rest nobody can move, and it
  gets there by steps of its own
-/

namespace StompRelay

/-! ### Sums -/

section Sums

variable {α : Type} {as : List α} {a : α} {i : Nat}

/-- What becomes of a sum when one summand is changed. -/
theorem foldr_modify (f : α → Nat) (g : α → α) (ha : as[i]? = some a) :
    (as.modify i g).foldr (fun a n => f a + n) 0 + f a
      = as.foldr (fun a n => f a + n) 0 + f (g a) := by
  induction as generalizing i with
  | nil => cases ha
  | cons b as ih =>
    cases i with
    | zero =>
      cases ha
      simp only [List.modify_zero_cons, List.foldr_cons]
      omega
    | succ i =>
      have hrest := ih ha
      simp only [List.modify_succ_cons, List.foldr_cons]
      omega

/-- What becomes of a count when one element is changed to one that does not count. -/
theorem countP_modify {p : α → Bool} {g : α → α} (ha : as[i]? = some a) (hg : p (g a) = false) :
    (as.modify i g).countP p + (if p a then 1 else 0) = as.countP p := by
  induction as generalizing i with
  | nil => cases ha
  | cons b as ih =>
    cases i with
    | zero =>
      cases ha
      rw [List.modify_zero_cons, List.countP_cons_of_neg (by simp [hg]), List.countP_cons]
    | succ i =>
      have hrest := ih ha
      rw [List.modify_succ_cons, List.countP_cons, List.countP_cons]
      omega

end Sums

/-! ### The work of one call -/

/-- A call has no less work where more sessions may have to be ended. -/
theorem Call.work_mono {setup : Setup} {n n' : Nat} (c : Call) (hn : n ≤ n') :
    c.work setup n ≤ c.work setup n' := by
  unfold Call.work
  split
  all_goals omega

namespace Stage

variable {p : Purpose} {setup : Setup} {n : Nat}

theorem work_conclude (o : Outcome) : Call.work setup n ⟨p, p.conclude o⟩ ≤ 3 := by
  cases p <;> simp [Purpose.conclude, Call.work]

theorem work_afterBreak (e : Place) (f : WriteFault) :
    Call.work setup n ⟨p, p.afterBreak e f⟩ ≤ 6 := by
  cases p <;> simp [Purpose.afterBreak, Call.work]

/-- Only a call that is given a connection comes to register a session. -/
theorem Next.registers {codec : Codec} {old new : Stage} (hnext : Next codec p old new)
    (hold : old ≠ .dialing) : new.registers = false := by
  cases hnew : new.wrapsUp with
  | true => cases new <;> first | rfl | cases hnew
  | false =>
    cases hnext.advance hnew with
    | dialed => exact absurd rfl hold
    | _ => rfl

end Stage

/-- What is put into the connection is work done. -/
theorem Session.work_of_push? {x y : Session} {rest rest' : Bytes}
    (h : x.push? rest = some (rest', y)) :
    2 * rest'.length + y.unsent.length < 2 * rest.length + x.unsent.length
      ∧ y.reader = x.reader ∧ y.toRelay = x.toRelay := by
  unfold push? at h
  split at h
  · obtain ⟨b, chunk, rfl, rfl⟩ := eq_of_put? h
    refine ⟨?_, rfl, rfl⟩
    simp only [List.length_append, List.length_cons]
    omega
  · obtain ⟨⟨unsent, z⟩, hz, heq⟩ := Option.map_eq_some_iff.mp h
    cases heq
    obtain ⟨b, chunk, hunsent, rfl⟩ := eq_of_put? hz
    refine ⟨?_, rfl, rfl⟩
    simp only [hunsent, List.length_append, List.length_cons]
    omega

namespace Relay

variable {setup : Setup} {s t : Relay} {h : History} {m : Move} {e : Place} {i : CallId} {c : Call}
  {x y : Session} {f : Session → Session} {new : Stage} {a : Actor} {n k : Nat}

/-! ### The two parts of the work -/

/-- The work in all sessions. -/
def sessionsWork (s : Relay) : Nat := s.sessions.foldr (fun x n => x.work + n) 0

/-- The work of all calls, where at most so many sessions may have to be ended at once. -/
def callsWork (setup : Setup) (registered : Nat) (s : Relay) : Nat :=
  s.calls.foldr (fun c n => c.work setup registered + n) 0

theorem work_eq : s.work setup = s.sessionsWork + s.callsWork setup s.registrable := rfl

theorem callsWork_mono (hn : n ≤ k) : s.callsWork setup n ≤ s.callsWork setup k := by
  unfold callsWork
  induction s.calls with
  | nil => exact Nat.le_refl _
  | cons c calls ih => exact Nat.add_le_add (c.work_mono hn) ih

/-- A change to a session that makes only so much more work of it. -/
theorem sessionsWork_modifySession_le
    (hf : ∀ x, s.sessions[e]? = some x → (f x).work ≤ x.work + n) :
    (s.modifySession e f).sessionsWork ≤ s.sessionsWork + n := by
  cases hx : s.sessions[e]? with
  | none =>
    have hsame : (s.modifySession e f).sessions = s.sessions :=
      List.modify_eq_self (List.getElem?_eq_none_iff.mp hx)
    rw [sessionsWork, hsame, sessionsWork]
    exact Nat.le_add_right _ _
  | some x =>
    have hsum : (s.modifySession e f).sessionsWork + x.work = s.sessionsWork + (f x).work :=
      foldr_modify _ _ hx
    have hle := hf x hx
    omega

theorem sessionsWork_cancelAll (es : List Place) :
    (s.cancelAll es).sessionsWork ≤ s.sessionsWork := by
  induction es generalizing s with
  | nil => exact Nat.le_refl _
  | cons e es ih =>
    rw [cancelAll_cons]
    exact Nat.le_trans ih (sessionsWork_modifySession_le (n := 0) fun x _ => Nat.le_refl _)

/-- A step that moves one call uses up some work, if that call has done more than what comes to the
sessions. -/
theorem work_lt_of_setStage (hc : s.calls[i]? = some c)
    (ht : t.calls = (s.setStage i new).calls) (hreg : t.registrable ≤ s.registrable)
    (hsessions : t.sessionsWork + n ≤ s.sessionsWork + k)
    (hcall : Call.work setup s.registrable ⟨c.purpose, new⟩ + k
      < c.work setup s.registrable + n) : t.work setup < s.work setup := by
  have hsum : (s.setStage i new).callsWork setup s.registrable + c.work setup s.registrable
      = s.callsWork setup s.registrable + Call.work setup s.registrable ⟨c.purpose, new⟩ :=
    foldr_modify _ _ hc
  have hcalls : t.callsWork setup t.registrable
      ≤ (s.setStage i new).callsWork setup s.registrable := by
    refine Nat.le_trans (callsWork_mono hreg) (Nat.le_of_eq ?_)
    rw [callsWork, ht, callsWork]
  rw [work_eq, work_eq]
  omega

/-! ### Every step uses up some work -/

/-- A step of a reader makes no more sessions to be ended. -/
theorem ReaderStep.registrable_le (step : ReaderStep setup s e x t) :
    t.registrable ≤ s.registrable := by
  rw [registrable, step.calls_eq, registrable]
  apply Nat.add_le_add_right
  cases step with
  | unregister => exact List.length_filter_le _ _
  | _ => exact Nat.le_refl _

/-- A step of a call makes no more sessions to be ended. -/
theorem CallStep.registrable_le (hc : s.calls[i]? = some c) (step : CallStep setup s i c t) :
    t.registrable ≤ s.registrable := by
  obtain ⟨new, ht, hnext⟩ := step.calls_eq
  have hnew : new.registers = false := hnext.registers step.stage_ne_dialing
  have hcount : (s.setStage i new).calls.countP (fun c => c.stage.registers)
      + (if c.stage.registers then 1 else 0) = s.calls.countP fun c => c.stage.registers :=
    countP_modify (g := fun c => { c with stage := new }) hc hnew
  have hle (hreg : t.registry.length ≤ s.registry.length + if c.stage.registers then 1 else 0) :
      t.registrable ≤ s.registrable := by
    rw [registrable, ht, registrable]
    omega
  cases step with
  | register hst =>
    -- the session that was about to be registered is
    apply hle
    simp [hst, Stage.registers]
  | condemn | remove => exact hle (Nat.le_trans (List.length_filter_le _ _) (Nat.le_add_right _ _))
  | clear => exact hle (Nat.zero_le _)
  | _ => exact hle (Nat.le_add_right _ _)

/-- A step of a call uses up some work. -/
theorem CallStep.work_lt (hc : s.calls[i]? = some c) (step : CallStep setup s i c t) :
    t.work setup < s.work setup := by
  have hreg := step.registrable_le hc
  -- nothing comes to the sessions
  have idle {new : Stage} (ht : t.calls = (s.setStage i new).calls)
      (hsessions : t.sessionsWork ≤ s.sessionsWork)
      (hcall : Call.work setup s.registrable ⟨c.purpose, new⟩ < c.work setup s.registrable) :
      t.work setup < s.work setup :=
    work_lt_of_setStage (n := 0) (k := 0) hc ht hreg hsessions hcall
  have modified {e : Place} {f : Session → Session} (hf : ∀ x : Session, (f x).work ≤ x.work) :
      (s.modifySession e f).sessionsWork ≤ s.sessionsWork :=
    sessionsWork_modifySession_le (n := 0) fun x _ => hf x
  cases step with
  | refuse hst | dial hst | pass hst | turn hst | join hst | find hst =>
    exact idle rfl (Nat.le_refl _) (by simp [Call.work, hst])
  | refrain hst | post hst => exact idle rfl (Nat.le_refl _) (by simp [Call.work, hst])
  | reject hst =>
    refine idle rfl (modified fun x => by simp [Session.work, Reader.work]) ?_
    simp only [Call.work, hst]
    omega
  | register hst => exact idle rfl (Nat.le_refl _) (by simp [Call.work, hst])
  | @attach e id reads holds hst =>
    refine work_lt_of_setStage (n := 0) (k := 4) hc rfl hreg ?_ ?_
    · apply sessionsWork_modifySession_le
      intro x hx
      cases reads <;> simp [Session.work, Reader.work] <;> omega
    · simp only [Call.work, hst]
      omega
  | start hst =>
    -- what the new reader has ahead was set aside for it
    refine work_lt_of_setStage (n := 0) (k := 4) hc rfl hreg ?_ ?_
    · apply sessionsWork_modifySession_le
      intro x hx
      simp only [Session.work, Reader.work, List.length_nil]
      omega
    · simp only [Call.work, hst]
      omega
  | miss hst | unencodable hst | late hst =>
    refine idle rfl (Nat.le_refl _) (Nat.lt_of_le_of_lt (Stage.work_conclude _) ?_)
    simp only [Call.work, hst]
    omega
  | @encode e m command frame hst hm hf =>
    have hlen : c.purpose.frameLength setup = frame.length := by
      simp [Purpose.frameLength, hm, hf]
    refine idle rfl (Nat.le_refl _) ?_
    simp only [Call.work, hst, hlen]
    omega
  | queue hst => exact idle rfl (modified fun x => Nat.le_refl _) (by simp [Call.work, hst])
  | bounce hst | cut hst | snap hst =>
    refine idle rfl (modified fun x => Nat.le_refl _)
      (Nat.lt_of_le_of_lt (Stage.work_afterBreak _ _) ?_)
    simp only [Call.work, hst]
    omega
  | @accept e x rest hst hx hopen hrest =>
    -- the bytes are the work of the session now, where each of them costs less
    refine work_lt_of_setStage (n := 0) (k := rest.length) hc rfl hreg ?_ ?_
    · apply sessionsWork_modifySession_le
      intro x hx
      simp only [Session.work, Session.accept, List.length_append]
      omega
    · have hpos := List.length_pos_iff.mpr hrest
      simp only [Call.work, hst, List.length_nil]
      omega
  | finish hst =>
    refine idle rfl (modified fun x => Nat.le_refl _)
      (Nat.lt_of_le_of_lt (Stage.work_conclude _) ?_)
    simp only [Call.work, hst]
    omega
  | @push e x y rest rest' hst hx hopen hbroken hpush =>
    obtain ⟨hlt, hr, hin⟩ := Session.work_of_push? hpush
    have hsum : (s.modifySession e fun _ => y).sessionsWork + x.work
        = s.sessionsWork + y.work := foldr_modify _ _ hx
    refine work_lt_of_setStage hc rfl hreg (Nat.le_of_eq hsum) ?_
    simp only [Call.work, hst, Session.work, hr, hin]
    omega
  | @complete e x y rest hst hx hopen hbroken hpush =>
    obtain ⟨hlt, hr, hin⟩ := Session.work_of_push? hpush
    have hsum : (s.modifySession e fun _ => y).sessionsWork + x.work
        = s.sessionsWork + y.work := foldr_modify _ _ hx
    have hle : ((s.modifySession e fun _ => y).modifySession e
        fun x => x.leave i).sessionsWork ≤ (s.modifySession e fun _ => y).sessionsWork :=
      sessionsWork_modifySession_le (n := 0) fun x _ => Nat.le_refl _
    have hconclude : Call.work setup s.registrable ⟨c.purpose, c.purpose.conclude .ok⟩ ≤ 3 :=
      Stage.work_conclude .ok
    have hwriting : c.work setup s.registrable = 7 + 2 * rest.length := by simp [Call.work, hst]
    refine work_lt_of_setStage hc rfl hreg
      (Nat.le_trans (Nat.add_le_add_right hle _) (Nat.le_of_eq hsum)) ?_
    rw [hwriting, Session.work, Session.work, hr, hin]
    rw [List.length_nil] at hlt
    omega
  | condemn hst | remove hst =>
    exact idle rfl (modified fun x => Nat.le_refl _) (by simp [Call.work, hst])
  | clear hst =>
    -- no more sessions are there to be closed than could have been
    have hlen : s.registeredPlaces.length ≤ s.registrable := by
      rw [registeredPlaces, List.length_map]
      exact Nat.le_add_right _ _
    refine idle (calls_clear _ _) (sessionsWork_cancelAll _) ?_
    simp only [Call.work, hst, if_true]
    omega
  | close hst =>
    refine idle rfl (modified fun x => ?_) ?_
    · unfold Session.close
      split <;> exact Nat.le_refl _
    · simp only [Call.work, hst, List.length_cons]
      omega
  | @leave o final hst =>
    refine idle rfl (Nat.le_refl _) ?_
    cases final
    · refine Nat.lt_of_le_of_lt (Stage.work_conclude _) ?_
      simp [Call.work, hst]
    · simp [Call.work, hst]

/-- The steps that a reader has ahead of it with the bytes that were sent so far. -/
def ahead (x : Session) : Nat := x.reader.work + 3 * x.toRelay.waiting.length

/-- A step of a reader uses up some of its work. -/
theorem ReaderStep.ahead_lt (step : ReaderStep setup s e x t) (hx : s.sessions[e]? = some x)
    (hy : t.sessions[e]? = some y) :
    ahead y < ahead x ∧ y.toRelay.sent = x.toRelay.sent ∧ y.reader ≠ .unstarted := by
  cases step with
  | fetch hr _ hwaiting =>
    obtain rfl := eq_of_modifySession hx hy
    refine ⟨?_, Pipe.sent_take _ _, by simp⟩
    -- fetching takes at least one byte out of the connection, which costs less once it is fetched
    have hpos : 0 < (x.toRelay.waiting.take Session.bufferSize).length := by
      rw [List.length_take]
      exact Nat.lt_min.mpr ⟨by decide, List.length_pos_iff.mpr hwaiting⟩
    have hlen := congrArg List.length
      (List.take_append_drop Session.bufferSize x.toRelay.waiting)
    rw [List.length_append] at hlen
    simp only [ahead, hr, Reader.work, Pipe.take, List.length_nil] at hpos hlen ⊢
    omega
  | unregister hr =>
    obtain rfl := eq_of_unregister hx hy
    exact ⟨by simp [ahead, hr, Reader.work, Session.cancel], rfl, by simp⟩
  | shut hr =>
    obtain rfl := eq_of_modifySession hx hy
    exact ⟨by simp [ahead, hr, Reader.work], by simp, by simp⟩
  | read hr | overflow hr | reject hr | skip hr | offer hr | abandon hr | stop hr | lose hr
  | fail hr | post hr | hush hr | announce hr | quit hr =>
    obtain rfl := eq_of_modifySession hx hy
    refine ⟨?_, rfl, by simp⟩
    simp only [ahead, hr, Reader.work, List.length_cons]
    omega

/-- A step of a reader uses up some work. -/
theorem ReaderStep.work_lt (hx : s.sessions[e]? = some x) (step : ReaderStep setup s e x t) :
    t.work setup < s.work setup := by
  have hcalls : t.callsWork setup t.registrable ≤ s.callsWork setup s.registrable := by
    refine Nat.le_trans (callsWork_mono step.registrable_le) (Nat.le_of_eq ?_)
    rw [callsWork, step.calls_eq, callsWork]
  have changed {f : Session → Session} (ht : t.sessions = (s.modifySession e f).sessions)
      (hf : (f x).unsent = x.unsent) : t.work setup < s.work setup := by
    have hy : t.sessions[e]? = some (f x) := by rw [ht, getElem?_modifySession_self hx]
    have hlt : ahead (f x) < ahead x := (step.ahead_lt hx hy).1
    have hsum : t.sessionsWork + x.work = s.sessionsWork + (f x).work := by
      rw [sessionsWork, ht]
      exact foldr_modify _ _ hx
    have hwork : (f x).work < x.work := by
      rw [Session.work, Session.work, hf]
      exact Nat.add_lt_add_right hlt _
    rw [work_eq, work_eq]
    omega
  cases step with
  | unregister =>
    exact changed (f := fun x => { x.cancel with reader := .shutting })
      (List.modify_modify_eq _ _ _ _) rfl
  | shut =>
    refine changed rfl ?_
    unfold Session.close
    split <;> rfl
  | _ => exact changed rfl rfl

/-- Every step of a reader or a call uses up some work. -/
theorem work_lt_of_step? (hn : s.Numbered) (h : s.step? setup a = some t) :
    t.work setup < s.work setup := by
  cases a with
  | reader e =>
    obtain ⟨x, hx, hstep⟩ := Option.bind_eq_some_iff.mp h
    exact (readerStep_of_stepReader hn hx hstep).work_lt hx
  | call i =>
    obtain ⟨c, hc, hstep⟩ := Option.bind_eq_some_iff.mp h
    exact (callStep_of_stepCall hn hstep).work_lt hc

/-! ### Coming to rest -/

/-- Only readers and calls move. -/
def Own (h : History) : Prop := ∀ τ ∈ h, ∃ a, τ.move = .act a

/-- The relay takes only so many steps of its own. -/
theorem Path.length_le_work (path : Path setup s h t) (hn : s.Numbered) (hown : Own h) :
    h.length + t.work setup ≤ s.work setup := by
  induction path with
  | nil => simp
  | @snoc h t u m path hm ih =>
    have hle := ih fun τ hτ => hown τ (List.mem_append_left _ hτ)
    obtain ⟨a, rfl : m = .act a⟩ := hown _ (List.mem_append_right _ List.mem_cons_self)
    have hlt := work_lt_of_step? (a := a) (path.numbered hn) hm
    rw [List.length_append, List.length_singleton]
    omega

theorem next?_eq_or (last : Option Actor) :
    s.next? setup last = (last.bind fun a => (s.step? setup a).map fun t => (a, t)).or
      ((s.nextReader? setup).or (s.nextCall? setup)) := by
  rw [next?, Option.orElse_eq_orElse, Option.orElse_eq_or, Option.orElse_eq_or]

/-- Who moves next can move. -/
theorem step?_of_next? {last : Option Actor} (h : s.next? setup last = some (a, t)) :
    s.step? setup a = some t := by
  rw [next?_eq_or, Option.or_eq_some_iff, Option.or_eq_some_iff] at h
  rcases h with h | ⟨-, h | ⟨-, h⟩⟩
  · obtain ⟨b, -, hstep⟩ := Option.bind_eq_some_iff.mp h
    obtain ⟨u, hu, heq⟩ := Option.map_eq_some_iff.mp hstep
    cases heq
    exact hu
  · obtain ⟨⟨x, e⟩, hmem, hstep⟩ := List.exists_of_findSome?_eq_some h
    obtain ⟨u, hu, heq⟩ := Option.map_eq_some_iff.mp hstep
    cases heq
    rw [step?, List.mem_zipIdx_iff_getElem?.mp hmem]
    exact hu
  · obtain ⟨⟨c, i⟩, hmem, hstep⟩ := List.exists_of_findSome?_eq_some h
    obtain ⟨u, hu, heq⟩ := Option.map_eq_some_iff.mp hstep
    cases heq
    rw [step?, List.mem_zipIdx_iff_getElem?.mp hmem]
    exact hu

/-- When nobody moves next, nobody can move. -/
theorem quiet_of_next? {last : Option Actor} (h : s.next? setup last = none) :
    s.Quiet setup := by
  rw [next?_eq_or, Option.or_eq_none_iff, Option.or_eq_none_iff] at h
  obtain ⟨-, hreader, hcall⟩ := h
  intro a
  cases a with
  | reader e =>
    rw [step?]
    cases hx : s.sessions[e]? with
    | none => rfl
    | some x =>
      have hmem : (x, e) ∈ s.sessions.zipIdx := List.mem_zipIdx_iff_getElem?.mpr hx
      exact Option.map_eq_none_iff.mp (List.findSome?_eq_none_iff.mp hreader _ hmem)
  | call i =>
    rw [step?]
    cases hc : s.calls[i]? with
    | none => rfl
    | some c =>
      have hmem : (c, i) ∈ s.calls.zipIdx := List.mem_zipIdx_iff_getElem?.mpr hc
      exact Option.map_eq_none_iff.mp (List.findSome?_eq_none_iff.mp hcall _ hmem)

/-- Within as many steps as there is work ahead the relay comes to rest. -/
theorem settleWithin_spec (n : Nat) (last : Option Actor) (hn : s.Numbered)
    (hwork : s.work setup ≤ n) :
    (∃ k, Path setup s k (settleWithin setup n last s) ∧ Own k)
      ∧ (settleWithin setup n last s).Quiet setup := by
  -- with no work ahead nobody can move, and every move leaves less
  induction n generalizing s last with
  | zero =>
    refine ⟨⟨[], .nil, by simp [Own]⟩, fun a => ?_⟩
    rw [settleWithin, Option.eq_none_iff_forall_ne_some]
    intro t hstep
    exact absurd (work_lt_of_step? hn hstep) (by omega)
  | succ n ih =>
    rw [settleWithin]
    cases hnext : s.next? setup last with
    | none => exact ⟨⟨[], .nil, by simp [Own]⟩, quiet_of_next? hnext⟩
    | some p =>
      obtain ⟨a, t⟩ := p
      have hstep := step?_of_next? hnext
      have hlt := work_lt_of_step? hn hstep
      obtain ⟨⟨k, path, hown⟩, quiet⟩ := ih (some a) (hn.of_step? hstep) (by omega)
      exact ⟨⟨_, path.cons (m := .act a) hstep, List.forall_mem_cons.mpr ⟨⟨a, rfl⟩, hown⟩⟩, quiet⟩

/-- Where the relay comes to rest nobody can move. -/
theorem quiet_settle (setup : Setup) (hn : s.Numbered) : (s.settle setup).Quiet setup :=
  (settleWithin_spec _ none hn (Nat.le_refl _)).2

/-- The relay comes to rest by steps of its own. -/
theorem path_settle (setup : Setup) (hn : s.Numbered) :
    ∃ k, Path setup s k (s.settle setup) ∧ Own k :=
  (settleWithin_spec _ none hn (Nat.le_refl _)).1

end Relay

end StompRelay
