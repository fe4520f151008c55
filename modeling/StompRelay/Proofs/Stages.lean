import StompRelay.Proofs.Numbered
/-!
# From stage to stage

A call goes from its first stage to its last along the arrows of a small graph, and no step but its
own moves it.

## Main definitions

* `Stage.Next` — the arrows of the graph
* `Stage.wrapsUp` — the half of the graph in which calls come to their end
* `Stage.Advance` — the arrows in the other half
* `Relay.Unmoved` — a call has not taken a step

## Main results

* `Stage.Next.advance` — a call gets to a stage of the first half in one way only
* `Relay.MoveStep.call_new` — where a call that was not there before a step comes from
* `Relay.MoveStep.stage?_of_ne`, `Relay.MoveStep.stage_of_ne` — what others do to a call
* `Relay.MoveStep.call_after` — what a step does to a call that is there
* `Relay.MoveStep.call_before` — where a call that is there after a step comes from
* `Relay.Path.call_after` — what holds of a call along the arrows holds of it on every path
* `Relay.known_of_run` — what a call leaves on record is known from its stage
-/

namespace StompRelay

/-- The stages to which a call with the given purpose may move from a stage. -/
inductive Stage.Next (codec : Codec) (p : Purpose) : Stage → Stage → Prop where
  | refuse : Next codec p .admitting (.done (.failed (.sessionAlreadyExists p.id)))
  | dial : Next codec p .admitting .dialing
  | unreachable {address reason : String} :
    Next codec p .dialing (.done (.failed (.connectionEstablishment p.id address reason)))
  | dialed {e : Place} : Next codec p .dialing (.registering e)
  | reject {e : Place} :
    Next codec p (.registering e) (.done (.failed (.sessionAlreadyExists p.id)))
  | register {e : Place} : Next codec p (.registering e) (.starting e)
  | attach {e : Place} {id : SessionId} {reads holds : Bool} : p = .attach id reads holds →
    Next codec p (.starting e) (.done .ok)
  | start {e : Place} : (∀ id reads holds, p ≠ .attach id reads holds) →
    Next codec p (.starting e) .finding
  | find {e : Place} : Next codec p .finding (.encoding e)
  | miss : Next codec p .finding (p.conclude (.failed (.sessionNotFound p.id)))
  | encode {e : Place} {m : Message} {c : Command} {frame : Bytes} :
    p.sends? = some (m, c) → codec.encode m c = .ok frame →
    Next codec p (.encoding e) (.asking e frame)
  | unencodable {e : Place} {m : Message} {c : Command} {error : Error} :
    p.sends? = some (m, c) → codec.encode m c = .error error →
    Next codec p (.encoding e) (p.conclude (.failed (.conversion m.session error)))
  | queue {e : Place} {frame : Bytes} : Next codec p (.asking e frame) (.waiting e frame)
  | turn {e : Place} {frame : Bytes} : Next codec p (.waiting e frame) (.writing e frame)
  | bounce {e : Place} {frame : Bytes} {f : WriteFault} :
    Next codec p (.waiting e frame) (p.afterBreak e f)
  | write {e : Place} {rest rest' : Bytes} : Next codec p (.writing e rest) (.writing e rest')
  | break {e : Place} {rest : Bytes} {f : WriteFault} :
    Next codec p (.writing e rest) (p.afterBreak e f)
  | finish {e : Place} {rest : Bytes} : Next codec p (.writing e rest) (p.conclude .ok)
  | condemn {e : Place} {f : WriteFault} :
    Next codec p (.failing e f) (.closing [e] (.failed (.socketIo p.id f)) false)
  | late {e : Place} {f : WriteFault} :
    Next codec p (.failing e f) (p.conclude (.failed (.socketIo p.id f)))
  | remove {only : Option Place} {found missed : Outcome} {e : Place} :
    Next codec p (.removing only found missed) (.closing [e] found true)
  | pass {only : Option Place} {found missed : Outcome} :
    Next codec p (.removing only found missed) (.done missed)
  | clear {es : List Place} : Next codec p .clearing (.closing es (.ended es.length) true)
  | close {e : Place} {es : List Place} {o : Outcome} {final : Bool} :
    Next codec p (.closing (e :: es) o final) (.closing es o final)
  | leave {o : Outcome} {final : Bool} :
    Next codec p (.closing [] o final) (if final then .done o else p.conclude o)
  | join : Next codec p .joining .posting
  | post {o : Outcome} : Next codec p .posting (.done o)

namespace Stage

/-- Whether a call has done what it was started for, or given it up. -/
def wrapsUp : Stage → Bool
  | failing _ _ | removing _ _ _ | closing _ _ _ | done _ => true
  | _ => false

/-- The arrows to stages at which a call does not wrap up yet. -/
inductive Advance (codec : Codec) (p : Purpose) : Stage → Stage → Prop where
  | dial : Advance codec p .admitting .dialing
  | dialed {e : Place} : Advance codec p .dialing (.registering e)
  | register {e : Place} : Advance codec p (.registering e) (.starting e)
  | start {e : Place} : Advance codec p (.starting e) .finding
  | find {e : Place} : Advance codec p .finding (.encoding e)
  | encode {e : Place} {m : Message} {c : Command} {frame : Bytes} :
    p.sends? = some (m, c) → codec.encode m c = .ok frame →
    Advance codec p (.encoding e) (.asking e frame)
  | queue {e : Place} {frame : Bytes} : Advance codec p (.asking e frame) (.waiting e frame)
  | turn {e : Place} {frame : Bytes} : Advance codec p (.waiting e frame) (.writing e frame)
  | write {e : Place} {rest rest' : Bytes} : Advance codec p (.writing e rest) (.writing e rest')
  | join : Advance codec p .joining .posting

theorem wrapsUp_conclude (p : Purpose) (o : Outcome) : (p.conclude o).wrapsUp = true := by
  cases p <;> rfl

theorem wrapsUp_afterBreak (p : Purpose) (e : Place) (f : WriteFault) :
    (p.afterBreak e f).wrapsUp = true := by
  cases p <;> rfl

/-- A call gets to a stage at which it does not wrap up yet in one way only. -/
theorem Next.advance {codec : Codec} {p : Purpose} {old new : Stage}
    (hnext : Next codec p old new) (hnew : new.wrapsUp = false) : Advance codec p old new := by
  cases hnext with
  | dial => exact .dial
  | dialed => exact .dialed
  | register => exact .register
  | start => exact .start
  | find => exact .find
  | encode hm hf => exact .encode hm hf
  | queue => exact .queue
  | turn => exact .turn
  | write => exact .write
  | join => exact .join
  | miss | unencodable | finish | late =>
    rw [wrapsUp_conclude] at hnew
    cases hnew
  | bounce | «break» =>
    rw [wrapsUp_afterBreak] at hnew
    cases hnew
  | @leave o final =>
    cases final
    · rw [if_neg Bool.false_ne_true, wrapsUp_conclude] at hnew
      cases hnew
    · cases hnew
  | refuse | unreachable | reject | attach | condemn | remove | pass | clear | close | post =>
    cases hnew

end Stage

namespace Relay

variable {setup : Setup} {s t : Relay} {m : Move} {e : Place} {i j : CallId} {c d : Call}
  {stage new : Stage}

theorem stage?_eq_of_getElem? (hc : s.calls[i]? = some c) : s.stage? i = some c.stage := by
  simp [stage?, hc]

/-- A call that is there has an outcome exactly if it has ended with it. -/
theorem outcome?_eq_some_iff {o : Outcome} (hc : s.calls[i]? = some c) :
    s.outcome? i = some o ↔ c.stage = .done o := by
  rw [outcome?, hc, Option.bind_some]
  cases c.stage <;> simp [Stage.outcome?]

theorem stage?_setStage_self (hi : s.stage? i = some stage) :
    (s.setStage i new).stage? i = some new := by
  obtain ⟨c, hc, -⟩ := Option.map_eq_some_iff.mp hi
  simp [stage?, getElem?_setStage, hc]

theorem stage?_setStage_of_ne (hij : i ≠ j) : (s.setStage i new).stage? j = s.stage? j := by
  simp [stage?, getElem?_setStage, hij]

/-- A call that was moved to a stage is there. -/
theorem stage?_of_calls_eq (hi : s.stage? i = some stage)
    (ht : t.calls = (s.setStage i new).calls) : t.stage? i = some new := by
  rw [stage?, ht]
  exact stage?_setStage_self hi

/-- A call that was moved to a stage is at no other. -/
theorem stage_eq_of_calls_eq {old : Stage} (hi : s.stage? i = some old)
    (hnew : t.stage? i = some new) (ht : t.calls = (s.setStage i stage).calls) : new = stage :=
  Option.some.inj (hnew.symm.trans (stage?_of_calls_eq hi ht))

/-- A call that is there after one was moved to a stage was there before, at that stage if it is
the one that was moved. -/
theorem call_of_setStage (ht : t.calls = (s.setStage j new).calls) (hd : t.calls[i]? = some d) :
    (j = i ∧ ∃ c, s.calls[i]? = some c ∧ d = { c with stage := new })
      ∨ j ≠ i ∧ s.calls[i]? = some d := by
  rw [ht, getElem?_setStage] at hd
  by_cases hij : j = i
  · rw [if_pos hij] at hd
    obtain ⟨c, hc, rfl⟩ := Option.map_eq_some_iff.mp hd
    exact .inl ⟨hij, c, hc, rfl⟩
  · rw [if_neg hij] at hd
    exact .inr ⟨hij, hd⟩

/-- A call that is there after one was added was there before, or is the one that was added. -/
theorem call_of_append (ht : t.calls = s.calls ++ [c]) (hd : t.calls[i]? = some d) :
    s.calls[i]? = some d ∨ s.calls[i]? = none ∧ i = s.calls.length ∧ d = c := by
  rw [ht] at hd
  by_cases hi : i < s.calls.length
  · rw [List.getElem?_append_left hi] at hd
    exact .inl hd
  · have hle : s.calls.length ≤ i := Nat.le_of_not_lt hi
    have hlt := (List.getElem?_eq_some_iff.mp hd).1
    rw [List.length_append, List.length_singleton] at hlt
    rw [List.getElem?_append_right hle] at hd
    refine .inr ⟨List.getElem?_eq_none hle, Nat.le_antisymm (Nat.le_of_lt_succ hlt) hle, ?_⟩
    exact List.mem_singleton.mp (List.mem_of_getElem? hd)

/-- Ending all sessions moves no call. -/
theorem calls_clear (es : List Place) (stage : Stage) :
    ({ s.cancelAll es with registry := [] }.setStage i stage).calls
      = (s.setStage i stage).calls := by
  simp [setStage]

/-- A step of a reader moves no call. -/
theorem ReaderStep.calls_eq {x : Session} (step : ReaderStep setup s e x t) :
    t.calls = s.calls := by
  cases step <;> rfl

/-- A step of a call moves that call along an arrow, and no other. -/
theorem CallStep.calls_eq (step : CallStep setup s i c t) :
    ∃ new, t.calls = (s.setStage i new).calls ∧ Stage.Next setup.codec c.purpose c.stage new := by
  cases step with
  | refuse hs => exact ⟨_, rfl, hs ▸ .refuse⟩
  | dial hs => exact ⟨_, rfl, hs ▸ .dial⟩
  | reject hs => exact ⟨_, rfl, hs ▸ .reject⟩
  | register hs => exact ⟨_, rfl, hs ▸ .register⟩
  | attach hs hp => exact ⟨_, rfl, hs ▸ .attach hp⟩
  | start hs hp => exact ⟨_, rfl, hs ▸ .start hp⟩
  | find hs => exact ⟨_, rfl, hs ▸ .find⟩
  | miss hs => exact ⟨_, rfl, hs ▸ .miss⟩
  | encode hs hm hf => exact ⟨_, rfl, hs ▸ .encode hm hf⟩
  | unencodable hs hm hf => exact ⟨_, rfl, hs ▸ .unencodable hm hf⟩
  | queue hs => exact ⟨_, rfl, hs ▸ .queue⟩
  | turn hs => exact ⟨_, rfl, hs ▸ .turn⟩
  | bounce hs => exact ⟨_, rfl, hs ▸ .bounce⟩
  | cut hs | snap hs => exact ⟨_, rfl, hs ▸ .break⟩
  | accept hs | push hs => exact ⟨_, rfl, hs ▸ .write⟩
  | finish hs | complete hs => exact ⟨_, rfl, hs ▸ .finish⟩
  | condemn hs => exact ⟨_, rfl, hs ▸ .condemn⟩
  | late hs => exact ⟨_, rfl, hs ▸ .late⟩
  | remove hs => exact ⟨_, rfl, hs ▸ .remove⟩
  | pass hs => exact ⟨_, rfl, hs ▸ .pass⟩
  | clear hs => exact ⟨_, calls_clear _ _, hs ▸ .clear⟩
  | close hs => exact ⟨_, rfl, hs ▸ .close⟩
  | leave hs => exact ⟨_, rfl, hs ▸ .leave⟩
  | join hs => exact ⟨_, rfl, hs ▸ .join⟩
  | refrain hs | post hs => exact ⟨_, rfl, hs ▸ .post⟩

/-- After a step of a call only that call has another stage. -/
theorem CallStep.stage?_eq (hc : s.calls[i]? = some c) (step : CallStep setup s i c t) :
    ∃ new, t.stage? i = some new ∧ Stage.Next setup.codec c.purpose c.stage new
      ∧ ∀ j, i ≠ j → t.stage? j = s.stage? j := by
  obtain ⟨new, heq, hnext⟩ := step.calls_eq
  refine ⟨new, stage?_of_calls_eq (stage?_eq_of_getElem? hc) heq, hnext, ?_⟩
  intro j hj
  have same : (s.setStage i new).stage? j = s.stage? j := stage?_setStage_of_ne hj
  rw [← same, stage?, heq, stage?]

/-- A step moves no call, moves one along an arrow, or starts one. -/
theorem MoveStep.calls_eq (step : MoveStep setup s m t) :
    t.calls = s.calls
      ∨ (∃ i c new, s.calls[i]? = some c ∧ Stage.Next setup.codec c.purpose c.stage new
        ∧ t.calls = (s.setStage i new).calls)
      ∨ ∃ p : Purpose, t.calls = s.calls ++ [⟨p, p.start s.sessions.length⟩] := by
  cases step with
  | reader _ step => exact .inl step.calls_eq
  | call hc step =>
    obtain ⟨new, heq, hnext⟩ := step.calls_eq
    exact .inr (.inl ⟨_, _, new, hc, hnext, heq⟩)
  | start => exact .inr (.inr ⟨_, rfl⟩)
  | attach => exact .inr (.inr ⟨_, rfl⟩)
  | refused hc => exact .inr (.inl ⟨_, _, _, hc, .unreachable, rfl⟩)
  | connected hc => exact .inr (.inl ⟨_, _, _, hc, .dialed, rfl⟩)
  | undialed | brokerPut | brokerTake | brokerDrop | breakInput | receive | dropBus | letGo
  | forget =>
    exact .inl rfl

/-- A call that is there stays, with its purpose, and where it is or one arrow further. -/
theorem MoveStep.call_after (step : MoveStep setup s m t) (hi : s.calls[i]? = some c) :
    ∃ d, t.calls[i]? = some d ∧ d.purpose = c.purpose
      ∧ (d.stage = c.stage ∨ Stage.Next setup.codec c.purpose c.stage d.stage) := by
  -- no call was moved, one was, or one was added behind all others
  rcases step.calls_eq with heq | ⟨j, c', new, hj, hnext, heq⟩ | ⟨p, heq⟩
  · exact ⟨c, heq ▸ hi, rfl, .inl rfl⟩
  · rw [heq, getElem?_setStage]
    by_cases hij : j = i
    · subst hij
      rw [hi] at hj
      cases hj
      exact ⟨{ c with stage := new }, by simp [hi], rfl, .inr hnext⟩
    · exact ⟨c, by rw [if_neg hij, hi], rfl, .inl rfl⟩
  · refine ⟨c, ?_, rfl, .inl rfl⟩
    rw [heq, List.getElem?_append_left (List.getElem?_eq_some_iff.mp hi).1, hi]

/-- A call that is there keeps its purpose. -/
theorem MoveStep.purpose_eq (step : MoveStep setup s m t) (hc : s.calls[i]? = some c)
    (hd : t.calls[i]? = some d) : d.purpose = c.purpose := by
  obtain ⟨d', hd', hpurpose, -⟩ := step.call_after hc
  exact Option.some.inj (hd.symm.trans hd') ▸ hpurpose

/-- A call that is there after a step was there before it, or has just been started. -/
theorem MoveStep.call_before (step : MoveStep setup s m t) (hi : t.calls[i]? = some d) :
    (∃ c, s.calls[i]? = some c ∧ d.purpose = c.purpose
      ∧ (d.stage = c.stage ∨ Stage.Next setup.codec c.purpose c.stage d.stage))
      ∨ s.calls[i]? = none ∧ d.stage = d.purpose.start s.sessions.length := by
  cases hs : s.calls[i]? with
  | some c =>
    obtain ⟨d', hd', hp, hstage⟩ := step.call_after hs
    rw [hi] at hd'
    cases hd'
    exact .inl ⟨c, rfl, hp, hstage⟩
  | none =>
    refine .inr ⟨rfl, ?_⟩
    rcases step.calls_eq with heq | ⟨j, c', new, hj, hnext, heq⟩ | ⟨p, heq⟩
    · rw [heq, hs] at hi
      cases hi
    · rcases call_of_setStage heq hi with ⟨-, c, hc, -⟩ | ⟨-, hc⟩
      · exact nomatch hs.symm.trans hc
      · exact nomatch hs.symm.trans hc
    · rcases call_of_append heq hi with hc | ⟨-, -, rfl⟩
      · exact nomatch hs.symm.trans hc
      · rfl

/-- A call that was not there before a step is the one that the step starts. -/
theorem MoveStep.call_new (step : MoveStep setup s m t) (hs : s.calls[i]? = none)
    (hd : t.calls[i]? = some d) :
    d.stage = d.purpose.start s.sessions.length
      ∧ (m = .start d.purpose
        ∨ ∃ id capacity reads holds, m = .attach id capacity reads holds
          ∧ d.purpose = .attach id reads holds) := by
  -- whatever leaves the list of calls as long as it was brings no call
  have moved {j : CallId} {new : Stage} (ht : t.calls = (s.setStage j new).calls) : False := by
    rcases call_of_setStage ht hd with ⟨-, c, hc, -⟩ | ⟨-, hc⟩
    · exact nomatch hs.symm.trans hc
    · exact nomatch hs.symm.trans hc
  have started {p : Purpose} (ht : t.calls = s.calls ++ [⟨p, p.start s.sessions.length⟩]) :
      d = ⟨p, p.start s.sessions.length⟩ := by
    rcases call_of_append ht hd with hc | ⟨-, -, heq⟩
    · exact nomatch hs.symm.trans hc
    · exact heq
  cases step with
  | reader _ step =>
    rw [step.calls_eq, hs] at hd
    cases hd
  | call _ step =>
    obtain ⟨new, heq, -⟩ := step.calls_eq
    exact (moved heq).elim
  | start =>
    obtain rfl := started rfl
    exact ⟨rfl, .inl rfl⟩
  | attach =>
    obtain rfl := started rfl
    exact ⟨rfl, .inr ⟨_, _, _, _, rfl, rfl⟩⟩
  | refused => exact (moved rfl).elim
  | connected => exact (moved rfl).elim
  | _ => exact nomatch hs.symm.trans hd

/-- Others do not move a call, but it may be started, or given a connection or none. -/
theorem MoveStep.stage?_of_ne (step : MoveStep setup s m t) (hm : m ≠ .act (.call i)) :
    t.stage? i = s.stage? i
      ∨ s.stage? i = none ∧ (∃ (p : Purpose) (n : Place), t.stage? i = some (p.start n))
      ∨ s.stage? i = some .dialing ∧ ((∃ o, t.stage? i = some (.done o))
        ∨ ∃ e, t.stage? i = some (.registering e)) := by
  have started {p : Purpose} {n : Place} (ht : t.calls = s.calls ++ [⟨p, p.start n⟩]) :
      t.stage? i = s.stage? i
        ∨ s.stage? i = none ∧ ∃ (p : Purpose) (n : Place), t.stage? i = some (p.start n) := by
    cases hd : t.calls[i]? with
    | none =>
      have hle := List.getElem?_eq_none_iff.mp hd
      rw [ht, List.length_append, List.length_singleton] at hle
      have hs : s.calls[i]? = none := List.getElem?_eq_none (Nat.le_of_succ_le hle)
      refine .inl ?_
      rw [stage?, hd, stage?, hs]
    | some d =>
      rcases call_of_append ht hd with hs | ⟨hs, -, rfl⟩
      · refine .inl ?_
        rw [stage?, hd, stage?, hs]
      · exact .inr ⟨by simp [stage?, hs], p, n, stage?_eq_of_getElem? hd⟩
  have answered {j : CallId} {p : Purpose} {new : Stage} (hj : s.calls[j]? = some ⟨p, .dialing⟩)
      (ht : t.calls = (s.setStage j new).calls) :
      t.stage? i = s.stage? i ∨ s.stage? i = some .dialing ∧ t.stage? i = some new := by
    have hs : s.stage? j = some .dialing := stage?_eq_of_getElem? hj
    have same : t.stage? i = (s.setStage j new).stage? i := by rw [stage?, ht, stage?]
    by_cases hij : j = i
    · subst hij
      exact .inr ⟨hs, same.trans (stage?_setStage_self hs)⟩
    · exact .inl (same.trans (stage?_setStage_of_ne hij))
  cases step with
  | reader _ step =>
    refine .inl ?_
    rw [stage?, step.calls_eq, stage?]
  | @call j c _ hc step =>
    obtain ⟨-, -, -, others⟩ := step.stage?_eq hc
    exact .inl (others i fun hij => hm (by rw [hij]))
  | start => exact (started rfl).imp_right .inl
  | attach => exact (started rfl).imp_right .inl
  | refused hc => exact (answered hc rfl).imp_right fun ⟨hs, ht⟩ => .inr ⟨hs, .inl ⟨_, ht⟩⟩
  | connected hc => exact (answered hc rfl).imp_right fun ⟨hs, ht⟩ => .inr ⟨hs, .inr ⟨_, ht⟩⟩
  | _ => exact .inl rfl

/-- Others do not move a call that is there, but it may be given a connection or none. -/
theorem MoveStep.stage_of_ne (step : MoveStep setup s m t) (hm : m ≠ .act (.call i))
    (hc : s.calls[i]? = some c) (hd : t.calls[i]? = some d) :
    d.stage = c.stage
      ∨ c.stage = .dialing ∧ ((∃ o, d.stage = .done o) ∨ ∃ e, d.stage = .registering e) := by
  have hold := stage?_eq_of_getElem? hc
  have hnew := stage?_eq_of_getElem? hd
  rcases step.stage?_of_ne hm with heq | ⟨hnone, -⟩ | ⟨hdialing, ht⟩
  · rw [hold, hnew, Option.some.injEq] at heq
    exact .inl heq
  · exact nomatch hnone.symm.trans hold
  · rw [hold, Option.some.injEq] at hdialing
    rw [hnew] at ht
    simp only [Option.some.injEq] at ht
    exact .inr ⟨hdialing, ht⟩

/-- What is kept along the arrows is kept on every path. -/
theorem Path.call_after {h : History} {P : Stage → Prop}
    (keeps : ∀ old new, P old → Stage.Next setup.codec c.purpose old new → P new)
    (hn : s.Numbered) (path : Path setup s h t) (hc : s.calls[i]? = some c) (hp : P c.stage) :
    ∃ d, t.calls[i]? = some d ∧ d.purpose = c.purpose ∧ P d.stage := by
  induction path with
  | nil => exact ⟨c, hc, rfl, hp⟩
  | snoc path hm ih =>
    obtain ⟨d, hd, hpurpose, hd'⟩ := ih
    have step := moveStep_of_move (path.numbered hn) hm
    obtain ⟨d', hd'', hpurpose', hstage⟩ := step.call_after hd
    refine ⟨d', hd'', hpurpose'.trans hpurpose, ?_⟩
    rcases hstage with heq | hnext
    · exact heq ▸ hd'
    · exact keeps _ _ hd' (hpurpose ▸ hnext)

/-- What holds of all calls that start, and is kept along the arrows, holds in every run. -/
theorem stage_of_run {busCapacity : Nat} {h : History} {P : Purpose → Stage → Prop}
    (start : ∀ (p : Purpose) n, P p (p.start n))
    (keeps : ∀ p old new, P p old → Stage.Next setup.codec p old new → P p new)
    (run : Run setup busCapacity h s) (hc : s.calls[i]? = some c) : P c.purpose c.stage := by
  induction run generalizing c with
  | nil => simp [Relay.empty] at hc
  | snoc run hm ih =>
    -- the call was there before, and the induction speaks of it, or it starts now
    rcases (run.moveStep hm).call_before hc with ⟨b, hb, hpurpose, hstage⟩ | ⟨-, hstage⟩
    · rw [hpurpose]
      rcases hstage with heq | hnext
      · exact heq ▸ ih hb
      · exact keeps _ _ _ (ih hb) hnext
    · exact hstage ▸ start _ _

/-- A call has not moved. -/
def Unmoved (i : CallId) (h : History) : Prop := ∀ τ ∈ h, τ.move ≠ .act (.call i)

theorem Unmoved.snoc {h : History} {τ : Transition} (hu : Unmoved i h)
    (hτ : τ.move ≠ .act (.call i)) : Unmoved i (h ++ [τ]) := by
  intro τ' hmem
  rcases List.mem_append.mp hmem with hmem | hmem
  · exact hu τ' hmem
  · exact List.mem_singleton.mp hmem ▸ hτ

/-- A call that is not there does not move. -/
theorem MoveStep.ne_of_none (step : MoveStep setup s m t) (hs : s.calls[i]? = none) :
    m ≠ .act (.call i) := by
  rintro rfl
  cases step with
  | call hc => exact nomatch hs.symm.trans hc

/-- In every run, a call that is not there has not moved. -/
theorem unmoved_of_none {busCapacity : Nat} {h : History} (run : Run setup busCapacity h s)
    (hs : s.calls[i]? = none) : Unmoved i h := by
  induction run with
  | nil => exact fun τ hτ => (by cases hτ)
  | @snoc h s t m run hm ih =>
    have step := run.moveStep hm
    have hbefore : s.calls[i]? = none := by
      cases hc : s.calls[i]? with
      | none => rfl
      | some c =>
        obtain ⟨d, hd, -⟩ := step.call_after hc
        exact nomatch hs.symm.trans hd
    exact (ih hbefore).snoc (step.ne_of_none hbefore)

/-- What is known of a call when it starts, and stays known with every step, is known in every run:
others do not move the call, except that it is given a connection or none. -/
theorem known_of_run {busCapacity : Nat} {h : History} {P : Purpose → Prop}
    {K : History → Purpose → Stage → Prop}
    (start : ∀ h p n, P p → Unmoved i h → K h p (p.start n))
    (others : ∀ h τ p stage, τ.move ≠ .act (.call i) → K h p stage → K (h ++ [τ]) p stage)
    (dialed : ∀ h p new, P p → K h p .dialing → Stage.Next setup.codec p .dialing new → K h p new)
    (own : ∀ h s t c new, Run setup busCapacity h s → P c.purpose → s.calls[i]? = some c →
      CallStep setup s i c t → t.stage? i = some new → K h c.purpose c.stage →
      K (h ++ [⟨s, .act (.call i), t⟩]) c.purpose new)
    (run : Run setup busCapacity h s) (hc : s.calls[i]? = some c) (hp : P c.purpose) :
    K h c.purpose c.stage := by
  induction run generalizing c with
  | nil => simp [Relay.empty] at hc
  | @snoc h s t m run hm ih =>
    have step := run.moveStep hm
    rcases step.call_before hc with ⟨b, hb, hpurpose, hstage⟩ | ⟨hnone, hstage⟩
    · rw [hpurpose] at hp ⊢
      have hk := ih hb hp
      by_cases hm' : m = .act (.call i)
      · subst hm'
        cases step with
        | call hb' step =>
          obtain rfl := Option.some.inj (hb'.symm.trans hb)
          exact own h s t _ _ run hp hb step (stage?_eq_of_getElem? hc) hk
      · rcases hstage with heq | hnext
        · exact heq ▸ others _ _ _ _ hm' hk
        · rcases step.stage_of_ne hm' hb hc with heq | ⟨hdialing, -⟩
          · exact heq ▸ others _ _ _ _ hm' hk
          · rw [hdialing] at hnext hk
            exact others _ _ _ _ hm' (dialed _ _ _ hp hk hnext)
    · exact hstage ▸ start _ _ _ hp ((unmoved_of_none run hnone).snoc (step.ne_of_none hnone))

end Relay

end StompRelay
