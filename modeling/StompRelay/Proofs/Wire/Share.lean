import StompRelay.Proofs.Wire.Written
/-!
# What one call writes

Of what a session has put into the connection, a part was put there by one call. It is nothing as
long as the call has not had its turn, a start of its frame while it writes or when its write has
failed, and the frame when its write has succeeded.

## Main definitions

* `Relay.putBy` — what a call has put into the connection of a session
* `Relay.Share` — that agrees with a log of the writes to the session

## Main results

* `Relay.MoveStep.eq_or_writing` — only a call that writes puts anything into the connection
* `Relay.Share.step` — every step keeps the share of a call so
* `Relay.share_of_run` — it is so in every run
* `Relay.putBy_eq_nil` — a call that has not queued to write has put nothing into the connection
-/

namespace StompRelay.Relay

/-- What a step puts into the connection of a session. -/
def Transition.puts (e : Place) (τ : Transition) : Bytes :=
  match τ.before.sessions[e]?, τ.after.sessions[e]? with
  | some x, some y => y.toBroker.sent.drop x.toBroker.sent.length
  | _, _ => []

/-- What a call has put into the connection of a session with its steps, in order. -/
def putBy (i : CallId) (e : Place) (h : History) : Bytes :=
  (h.filter (Transition.isOf (.call i))).flatMap (Transition.puts e)

variable {setup : Setup} {busCapacity : Nat} {s t : Relay} {h : History} {m : Move} {e : Place}
  {i j : CallId} {c : Call} {x y : Session} {ws : List WriteEvent} {event : Option WriteEvent}
  {frame rest bs own : Bytes}

theorem putBy_snoc_of_ne (hm : m ≠ .act (.call i)) :
    putBy i e (h ++ [⟨s, m, t⟩]) = putBy i e h := by
  simp [putBy, Transition.isOf_eq_false hm]

theorem putBy_snoc_self :
    putBy i e (h ++ [⟨s, .act (.call i), t⟩])
      = putBy i e h ++ Transition.puts e ⟨s, .act (.call i), t⟩ := by
  simp [putBy, Transition.isOf]

theorem Transition.puts_of_none (hx : s.sessions[e]? = none) :
    Transition.puts e ⟨s, m, t⟩ = [] := by
  simp [Transition.puts, hx]

theorem Transition.puts_of_append (hx : s.sessions[e]? = some x) (hy : t.sessions[e]? = some y)
    (hsent : y.toBroker.sent = x.toBroker.sent ++ bs) : Transition.puts e ⟨s, m, t⟩ = bs := by
  simp [Transition.puts, hx, hy, hsent]

/-! ### Who puts bytes into the connection -/

/-- A step of a call leaves what was put into the connection of a session, unless the call writes
to it. -/
theorem CallStep.eq_or_writing (step : CallStep setup s i c t) (hx : s.sessions[e]? = some x)
    (hy : t.sessions[e]? = some y) :
    y.toBroker.sent = x.toBroker.sent ∨ ∃ rest, c.stage = .writing e rest := by
  cases hh : c.stage.heads e with
  | false =>
    obtain ⟨y', hy', same⟩ := step.sameWire hh hx
    obtain rfl := Option.some.inj (hy.symm.trans hy')
    exact .inl same.sent
  | true =>
    cases step with
    | queue | bounce =>
      refine .inl ?_
      rcases eq_or_of_modifySession hx rfl hy with rfl | ⟨-, rfl⟩ <;> rfl
    | turn =>
      obtain rfl := Option.some.inj (hx.symm.trans hy)
      exact .inl rfl
    | cut hst | snap hst | accept hst | push hst | finish hst | complete hst =>
      rw [hst] at hh ⊢
      obtain rfl : _ = e := by simpa [Stage.heads] using hh
      exact .inr ⟨_, rfl⟩
    | refuse hst | dial hst | reject hst | register hst | attach hst | start hst | find hst
    | miss hst | encode hst | unencodable hst | condemn hst | late hst | remove hst | pass hst
    | clear hst | close hst | leave hst | join hst | refrain hst | post hst =>
      rw [hst] at hh
      cases hh

/-- A step leaves what was put into the connection of a session, unless it is one of the call that
writes to the session. -/
theorem MoveStep.eq_or_writing (step : MoveStep setup s m t) (hx : s.sessions[e]? = some x)
    (hy : t.sessions[e]? = some y) :
    y.toBroker.sent = x.toBroker.sent
      ∨ ∃ j rest, m = .act (.call j) ∧ s.stage? j = some (.writing e rest) := by
  by_cases hm : ∃ j, m = .act (.call j)
  · obtain ⟨j, rfl⟩ := hm
    cases step with
    | call hc own =>
      refine (own.eq_or_writing hx hy).imp_right fun ⟨rest, hst⟩ => ⟨j, rest, rfl, ?_⟩
      rw [stage?_eq_of_getElem? hc, hst]
  · obtain ⟨y', hy', same⟩ := step.sameWire (e := e) (fun j _ hj => absurd ⟨j, hj⟩ hm) hx
    obtain rfl := Option.some.inj (hy.symm.trans hy')
    exact .inl same.sent

/-- What was put into the connection stays there. -/
theorem WireStep.exists_append (wire : WireStep e s t x y event) :
    ∃ bs, y.toBroker.sent = x.toBroker.sent ++ bs := by
  cases wire with
  | rest same => exact ⟨[], by rw [same.sent, List.append_nil]⟩
  | queue _ _ _ hy | turn _ _ _ _ hy | fail _ _ _ _ _ _ hy =>
    subst hy
    exact ⟨[], (List.append_nil _).symm⟩
  | advance _ _ _ _ _ _ _ hsent | finish _ _ _ _ _ _ hsent => exact ⟨_, hsent⟩

/-! ### The share of a call -/

/-- What call `i` has put into the connection of session `e`, which is `x`, is `own`, in agreement
with a log of the writes to the session. -/
structure Share (s : Relay) (i : CallId) (e : Place) (x : Session) (ws : List WriteEvent)
    (own : Bytes) : Prop where
  unqueued : (∀ frame, (i, frame) ∉ queuedWrites ws) → own = []
  waiting : ∀ frame, s.stage? i = some (.waiting e frame) → own = []
  writing : ∀ rest, s.stage? i = some (.writing e rest) → ¬x.Dead →
    x.toBroker.sent = (writtenFrames ws).flatten ++ own
  part : ∀ frame, (i, frame) ∈ queuedWrites ws → frame ≠ [] → .returned i none ∉ ws →
    own <+: frame ∧ own ≠ frame
  whole : ∀ frame, (i, frame) ∈ queuedWrites ws → frame ≠ [] → .returned i none ∈ ws →
    own = frame

namespace Share

theorem nil (hnone : ∀ stage, s.stage? i = some stage → stage.writesTo e = false) :
    Share s i e x [] [] where
  unqueued _ := rfl
  waiting _ _ := rfl
  writing rest hi := by simpa [Stage.writesTo] using hnone _ hi
  part _ hi := by cases hi
  whole _ hi := by cases hi

/-- The call puts nothing into the connection, and no write of it queues or succeeds. -/
theorem still (hsh : Share s i e x ws own) (hdead : x.Dead → y.Dead) {ws' : List WriteEvent}
    (hqueued : ∀ frame, (i, frame) ∈ queuedWrites ws' ↔ (i, frame) ∈ queuedWrites ws)
    (hreturned : .returned i none ∈ ws' ↔ .returned i none ∈ ws)
    (hwaiting : ∀ frame, t.stage? i = some (.waiting e frame) →
      s.stage? i = some (.waiting e frame))
    (hwriting : ∀ rest, t.stage? i = some (.writing e rest) →
      s.stage? i = some (.writing e rest) ∧ writtenFrames ws' = writtenFrames ws
        ∧ y.toBroker.sent = x.toBroker.sent) :
    Share t i e y ws' own where
  unqueued hi := hsh.unqueued fun frame hframe => hi frame ((hqueued frame).mpr hframe)
  waiting frame hi := hsh.waiting frame (hwaiting frame hi)
  writing rest hi hd := by
    obtain ⟨hold, hframes, hsent⟩ := hwriting rest hi
    rw [hsent, hframes]
    exact hsh.writing rest hold (mt hdead hd)
  part frame hi hne hr := hsh.part frame ((hqueued frame).mp hi) hne (mt hreturned.mpr hr)
  whole frame hi hne hr := hsh.whole frame ((hqueued frame).mp hi) hne (hreturned.mp hr)

/-- The write of the call queues. -/
theorem queue (hsh : Share s i e x ws own) (hq : Queued s e x ws)
    (hold : s.stage? i = some (.asking e frame)) (hnew : t.stage? i = some (.waiting e frame)) :
    Share t i e y (ws ++ [.queued i frame]) own := by
  have hfresh := hq.not_queued hold rfl
  have hnil : own = [] := hsh.unqueued hfresh
  refine ⟨fun _ => hnil, fun _ _ => hnil, ?_, ?_, ?_⟩
  · intro rest hi
    cases hi.symm.trans hnew
  · intro frame' _ hne _
    rw [hnil]
    exact ⟨List.nil_prefix, hne.symm⟩
  · intro frame' _ _ hr
    have hr' : .returned i none ∈ ws := by simpa using hr
    obtain ⟨frame'', hqueued⟩ := hq.log.exists_queued_of_returned hr'
    exact absurd hqueued (hfresh frame'')

/-- The write of the call gets its turn: the frames that were written are in the connection, and
nothing else. -/
theorem turn (hsh : Share s i e x ws own) (hq : Queued s e x ws) (hw : Written s e x ws)
    (hold : s.stage? i = some (.waiting e frame)) (hhead : x.writers.head? = some i) :
    Share t i e x ws own := by
  have hnil : own = [] := hsh.waiting frame hold
  refine ⟨fun _ => hnil, fun _ _ => hnil, ?_, hsh.part, hsh.whole⟩
  intro rest _ hd
  have hnone (j : CallId) (rest : Bytes) : s.stage? j ≠ some (.writing e rest) := by
    intro hj
    obtain rfl := hq.eq_of_writing hhead hj
    cases hold.symm.trans hj
  rw [hnil, List.append_nil]
  exact (hw.idle hd hnone).1

/-- What the call has put into the connection comes before what is left of its frame. -/
theorem eq_append (hsh : Share s i e x ws own) (hw : Written s e x ws)
    (hi : s.stage? i = some (.writing e rest)) (hframe : (i, frame) ∈ queuedWrites ws)
    (hd : ¬x.Dead) : frame = own ++ (x.unsent ++ rest) := by
  obtain ⟨part, heq, hsent⟩ := hw.busy hd i rest frame hi hframe
  have hown := hsh.writing rest hi hd
  rw [hsent] at hown
  rw [← List.append_cancel_left hown]
  exact heq

/-- The write of the call goes on, and some of it is left. -/
theorem advance {rest' : Bytes} (hsh : Share s i e x ws own) (hq : Queued s e x ws)
    (hw : Written s e x ws) (hold : s.stage? i = some (.writing e rest))
    (hnew : t.stage? i = some (.writing e rest')) (hopen : x.closed = false)
    (hput : bs ≠ [] → x.broken = false) (heq : x.unsent ++ rest = bs ++ (y.unsent ++ rest'))
    (hleft : y.unsent ++ rest' ≠ []) (hsent : y.toBroker.sent = x.toBroker.sent ++ bs)
    (hdead : y.Dead ↔ x.Dead) : Share t i e y ws (own ++ bs) := by
  obtain ⟨frame', hframe'⟩ := hq.exists_frame hold
  constructor
  case unqueued => exact fun hnone => absurd hframe' (hnone frame')
  case waiting =>
    intro frame hi
    cases hi.symm.trans hnew
  case writing =>
    intro r _ hd
    rw [hsent, hsh.writing rest hold (mt hdead.mpr hd), List.append_assoc]
  case part =>
    intro frame hframe hne hr
    by_cases hd : x.Dead
    · rw [hd.eq_nil hopen hput, List.append_nil]
      exact hsh.part frame hframe hne hr
    · have hsplit := hsh.eq_append hw hold hframe hd
      rw [heq, ← List.append_assoc] at hsplit
      rw [hsplit]
      exact ⟨List.prefix_append _ _, fun hself => hleft (List.self_eq_append_right.mp hself)⟩
  case whole =>
    intro frame _ _ hr
    obtain ⟨writers, hwriters⟩ := hq.eq_cons hold
    exact absurd hr (hq.log.not_returned (hwriters ▸ List.mem_cons_self))

/-- The call puts what is left of its write, if anything, and its write returns. -/
theorem finish {new : Stage} (hsh : Share s i e x ws own) (hq : Queued s e x ws)
    (hw : Written s e x ws) (hold : s.stage? i = some (.writing e rest))
    (hnew : t.stage? i = some new) (hleaves : new.writesTo e = false) (hopen : x.closed = false)
    (hput : x.unsent ++ rest ≠ [] → x.broken = false) :
    Share t i e y (ws ++ [.returned i none]) (own ++ (x.unsent ++ rest)) := by
  obtain ⟨frame', hframe'⟩ := hq.exists_frame hold
  have gone {stage : Stage} (hi : t.stage? i = some stage) : stage.writesTo e = false :=
    Option.some.inj (hnew.symm.trans hi) ▸ hleaves
  constructor
  case unqueued => exact fun hnone => absurd hframe' (by simpa using hnone frame')
  case waiting => exact fun frame hi => by simpa [Stage.writesTo] using gone hi
  case writing => exact fun rest hi => by simpa [Stage.writesTo] using gone hi
  case part => exact fun frame _ _ hr => absurd (by simp) hr
  case whole =>
    intro frame hframe hne _
    rw [queuedWrites_return] at hframe
    by_cases hd : x.Dead
    · exact absurd (hd.eq_nil hopen hput) (hw.left i rest frame hold hframe hne)
    · exact (hsh.eq_append hw hold hframe hd).symm

/-- Every step keeps what a call has put into the connection in agreement with the log. -/
theorem step (hsh : Share s i e x ws own) (hq : Queued s e x ws) (hw : Written s e x ws)
    (step : MoveStep setup s m t) (hx : s.sessions[e]? = some x) (hy : t.sessions[e]? = some y)
    (wire : WireStep e s t x y event)
    (hown : m = .act (.call i) → y.toBroker.sent = x.toBroker.sent ++ bs)
    (hother : m ≠ .act (.call i) → bs = []) :
    Share t i e y (ws ++ event.toList) (own ++ bs) := by
  have hmover := step.eq_or_writing hx hy
  have quiet (hsent : y.toBroker.sent = x.toBroker.sent) : own ++ bs = own := by
    refine List.append_right_eq_self.mpr ?_
    by_cases hm : m = .act (.call i)
    · exact List.self_eq_append_right.mp (hsent.symm.trans (hown hm))
    · exact hother hm
  -- of the calls only the one that writes puts anything into the connection
  have mine {rest : Bytes} (hi : s.stage? i = some (.writing e rest)) :
      y.toBroker.sent = x.toBroker.sent ++ bs := by
    rcases hmover with hsent | ⟨j, rest', rfl, hj⟩
    · rw [hsent, List.append_right_eq_self.mp (quiet hsent), List.append_nil]
    · obtain rfl := hq.eq_of_writing (hq.head i rest hi) hj
      exact hown rfl
  have others {j : CallId} {rest : Bytes} (hj : s.stage? j = some (.writing e rest))
      (hij : j ≠ i) : own ++ bs = own ∧ ∀ rest', s.stage? i ≠ some (.writing e rest') := by
    refine ⟨?_, fun rest' hi => hij (hq.eq_of_writing (hq.head j rest hj) hi)⟩
    rcases hmover with hsent | ⟨k, rest', rfl, hk⟩
    · exact quiet hsent
    · obtain rfl := hq.eq_of_writing (hq.head j rest hj) hk
      rw [hother (by simpa using hij), List.append_nil]
  cases wire with
  | rest same stages =>
    rw [quiet same.sent, Option.toList_none, List.append_nil]
    refine hsh.still (Or.imp same.closed same.gone) (fun _ => Iff.rfl) Iff.rfl ?_ ?_
    · exact fun frame hi => (stages i _ (by simp [Stage.writesTo])).mp hi
    · exact fun rest hi => ⟨(stages i _ (by simp [Stage.writesTo])).mp hi, rfl, same.sent⟩
  | @queue j frame hold hnew stages hy =>
    have hsent : y.toBroker.sent = x.toBroker.sent := by rw [hy]
    have hdead : x.Dead → y.Dead := by rw [hy]; exact id
    rw [quiet hsent, Option.toList_some]
    by_cases hij : j = i
    · subst hij
      exact hsh.queue hq hold hnew
    · refine hsh.still hdead (fun _ => by simp [Ne.symm hij]) (by simp) ?_ ?_
      · exact fun frame hi => stages i hij ▸ hi
      · exact fun rest hi =>
          ⟨stages i hij ▸ hi, hq.log.written_queue (hq.not_queued hold rfl), hsent⟩
  | @turn j frame hold hnew stages hhead hy =>
    subst hy
    rw [quiet rfl, Option.toList_none, List.append_nil]
    by_cases hij : j = i
    · subst hij
      exact hsh.turn hq hw hold hhead
    · refine hsh.still id (fun _ => Iff.rfl) Iff.rfl ?_ ?_
      · exact fun frame hi => stages i hij ▸ hi
      · exact fun rest hi => ⟨stages i hij ▸ hi, rfl, rfl⟩
  | @advance j rest rest' bs' hold hnew stages hopen hput heq hleft hsent _ hclosed _ hgone =>
    rw [Option.toList_none, List.append_nil]
    have hdead : y.Dead ↔ x.Dead := Session.dead_congr hclosed hgone
    by_cases hij : j = i
    · subst hij
      obtain rfl : bs' = bs := List.append_cancel_left (hsent.symm.trans (mine hold))
      exact hsh.advance hq hw hold hnew hopen hput heq hleft hsent hdead
    · obtain ⟨hnone, hidle⟩ := others hold hij
      rw [hnone]
      refine hsh.still hdead.mpr (fun _ => Iff.rfl) Iff.rfl ?_ ?_
      · exact fun frame hi => stages i hij ▸ hi
      · exact fun rest hi => absurd (stages i hij ▸ hi) (hidle rest)
  | @finish j rest p hold hnew stages hopen hput _ hsent _ hclosed _ hgone =>
    rw [Option.toList_some]
    have hdead : y.Dead ↔ x.Dead := Session.dead_congr hclosed hgone
    by_cases hij : j = i
    · subst hij
      obtain rfl := List.append_cancel_left (hsent.symm.trans (mine hold))
      exact hsh.finish hq hw hold hnew (Stage.writesTo_conclude _) hopen hput
    · obtain ⟨hnone, hidle⟩ := others hold hij
      rw [hnone]
      refine hsh.still hdead.mpr (fun _ => by simp) (by simp [Ne.symm hij]) ?_ ?_
      · exact fun frame hi => stages i hij ▸ hi
      · exact fun rest hi => absurd (stages i hij ▸ hi) (hidle rest)
  | @fail j old p f hold _ hnew stages _ _ hy =>
    have hsent : y.toBroker.sent = x.toBroker.sent := by rw [hy]; rfl
    have hdead : x.Dead → y.Dead := by rw [hy]; exact id
    rw [quiet hsent, Option.toList_some]
    have stays {stage : Stage} (hi : t.stage? i = some stage) (hs : stage.writesTo e = true) :
        s.stage? i = some stage := by
      by_cases hij : j = i
      · subst hij
        obtain rfl := Option.some.inj (hi.symm.trans hnew)
        exact absurd hs (by simp [Stage.writesTo_afterBreak])
      · exact stages i hij ▸ hi
    refine hsh.still hdead (fun _ => by simp) (by simp) ?_ ?_
    · exact fun frame hi => stays hi (by simp [Stage.writesTo])
    · exact fun rest hi => ⟨stays hi (by simp [Stage.writesTo]), written_fail, hsent⟩

end Share

/-! ### Runs -/

/-- In every run, what a call has put into the connection of a session agrees with the log of the
writes to it. -/
theorem share_of_run (run : Run setup busCapacity h s) (i : CallId) (e : Place) :
    (s.sessions[e]? = none → putBy i e h = [])
      ∧ ∀ x, s.sessions[e]? = some x → Share s i e x (writes e h) (putBy i e h) := by
  refine session_of_run (Q := fun h => putBy i e h = [])
    (P := fun h s x => Share s i e x (writes e h) (putBy i e h)) rfl ?_ ?_ run
  · intro h s t m run step hx hnil
    have hnil' : putBy i e (h ++ [⟨s, m, t⟩]) = [] := by
      by_cases hm : m = .act (.call i)
      · subst hm
        rw [putBy_snoc_self, hnil, Transition.puts_of_none hx, List.nil_append]
      · rw [putBy_snoc_of_ne hm, hnil]
    refine ⟨hnil', ?_⟩
    intro y hy
    have hs := sound_of_run run
    rw [hnil', writes_snoc, (wired_of_run run e).1 hx, MoveStep.write?_eq_none hs hx]
    exact .nil fun stage hi => step.writesTo_new hs hx hi
  · intro h s t m x run step hx hsh
    obtain ⟨hq, hw⟩ := (wired_of_run run e).2 x hx
    obtain ⟨y, hy, wire⟩ := step.wireStep hx
    refine ⟨y, hy, ?_⟩
    rw [writes_snoc]
    by_cases hm : m = .act (.call i)
    · subst hm
      obtain ⟨bs, hbs⟩ := wire.exists_append
      rw [putBy_snoc_self, Transition.puts_of_append hx hy hbs]
      exact hsh.step hq hw step hx hy wire (fun _ => hbs) (fun hne => absurd rfl hne)
    · rw [putBy_snoc_of_ne hm, ← List.append_nil (putBy i e h)]
      exact hsh.step hq hw step hx hy wire (fun hm' => absurd hm' hm) fun _ => rfl

/-- A call that has not queued to write to a session has put nothing into its connection. -/
theorem putBy_eq_nil (run : Run setup busCapacity h s)
    (hnone : ∀ frame, (i, frame) ∉ queuedWrites (writes e h)) : putBy i e h = [] := by
  obtain ⟨habsent, hpresent⟩ := share_of_run run i e
  cases hx : s.sessions[e]? with
  | none => exact habsent hx
  | some x => exact (hpresent x hx).unqueued hnone

end StompRelay.Relay
