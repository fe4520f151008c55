import Mathlib.Data.List.Sort
import StompRelay.Proofs.Handling.Exclusive
import StompRelay.Proofs.Wire.Integrity
/-!
# Where messages go

When the events of each client are handled one at a time, what a connection gets is the messages of
its client that were answered with success, in order, and nothing else but the start of one more.

## Main definitions

* `Relay.delivered` — the frames of the messages that found a session and were answered with success
* `Relay.Unfinished` — what may follow them on the connection
* `Relay.Routed` — what a connection has got

## Main results

* `Relay.writtenFrames_eq_delivered` — these are the frames that were written to the session
* `Relay.messages_routed` — in every handled run messages are routed like this
-/

namespace StompRelay

/-- The frame of the message that a call sends. -/
def Purpose.frame? (codec : Codec) (p : Purpose) : Option Bytes :=
  p.sends?.bind fun (m, c) => (codec.encode m c).toOption

theorem Purpose.frame?_eq {codec : Codec} {p : Purpose} {m : Message} {c : Command} {frame : Bytes}
    (hp : p.sends? = some (m, c)) (hf : codec.encode m c = .ok frame) :
    p.frame? codec = some frame := by
  simp [frame?, hp, hf, Except.toOption]

/-- A handled call that writes sends a message. -/
theorem Purpose.exists_sends {p : Purpose} (hp : p.isHandled = true)
    (hw : (p.sends?.isSome || p.writesRaw) = true) : ∃ q, p.sends? = some q := by
  cases p <;> simp_all [isHandled, sends?, writesRaw]

namespace Relay

/-- Whether a call has ended with an outcome, or will when it has ended its session. -/
def answered (s : Relay) (o : Outcome) (i : CallId) : Bool :=
  s.calls[i]?.any fun c => c.stage.answers o

/-- The frame of the message that a call sends. -/
def frameOf? (codec : Codec) (s : Relay) (i : CallId) : Option Bytes :=
  s.calls[i]?.bind fun c => c.purpose.frame? codec

/-- The frames of the messages that found session `e` under the ids of their clients and were
answered with success, in the order in which they were handled. -/
def delivered (codec : Codec) (e : Place) (h : History) (s : Relay) : List Bytes :=
  ((served e h).filter (s.answered .ok)).filterMap (s.frameOf? codec)

variable {setup : Setup} {busCapacity : Nat} {s t : Relay} {h : History} {m : Move} {e e' : Place}
  {i j : CallId} {c d : Call} {x : Session} {p : Purpose} {o : Outcome} {stage : Stage}
  {msg : Message} {command : Command} {frame part : Bytes} {codec : Codec}

/-! ### Answers -/

/-- A call that sends a message has a reason for its answer. -/
theorem Trail.answers (ht : Trail codec h i p stage) (ha : stage.answers o = true) :
    Answers codec h i p o := by
  cases stage with
  | done o' =>
    obtain rfl : o' = o := by simpa [Stage.answers] using ha
    exact ht
  | removing only found missed =>
    obtain ⟨rfl, -⟩ : found = o ∧ missed = o := by simpa [Stage.answers] using ha
    exact ht.2.2.2
  | closing es o' final =>
    obtain rfl : o' = o := by simpa [Stage.answers] using ha
    cases final with
    | true => exact ht.2
    | false =>
      obtain ⟨e, f, hb, rfl, -⟩ := ht
      exact .broken hb
  | _ => cases ha

/-- What has an outcome is answered with it. -/
theorem answers_of_outcome? (hc : s.calls[i]? = some c) (ho : s.outcome? i = some o) :
    c.stage.answers o = true := by
  rw [(outcome?_eq_some_iff hc).mp ho]
  simp [Stage.answers]

/-- When nobody can move, every answer has been given. -/
theorem Quiet.outcome?_of_answers (quiet : s.Quiet setup) (run : Run setup busCapacity h s)
    (hc : s.calls[i]? = some c) (ha : c.stage.answers o = true) : s.outcome? i = some o := by
  have hrests := quiet.rests run hc
  cases hst : c.stage with
  | done o' =>
    rw [hst] at ha
    obtain rfl : o' = o := by simpa [Stage.answers] using ha
    exact (outcome?_eq_some_iff hc).mpr hst
  | removing | closing =>
    rw [hst] at hrests
    cases hrests
  | _ =>
    rw [hst] at ha
    cases ha

/-- An answer is the outcome on every path. -/
theorem eq_of_answers {k : History} {o' : Outcome} (run : Run setup busCapacity h s)
    (path : Path setup s k t) (hc : s.calls[i]? = some c) (ha : c.stage.answers o = true)
    (ho : t.outcome? i = some o') : o' = o := by
  obtain ⟨d, hd, -, ha'⟩ := path.call_after (P := fun stage => stage.answers o = true)
    (fun _ _ hold hnext => hnext.answers hold) (numbered_of_run run) hc ha
  exact Stage.answers_unique ha' (answers_of_outcome? hd ho)

/-! ### Frames that were written -/

/-- In a handled run, a call queues for a session only to write its own message, and only if it has
found the session. -/
theorem sends_of_queued (run : Run setup busCapacity h s) (hh : Handled h)
    (hq : (i, frame) ∈ queuedWrites (writes e h)) :
    i ∈ served e h ∧ ∃ c, s.calls[i]? = some c ∧ c.purpose.frame? setup.codec = some frame := by
  obtain ⟨c, hc, hp | ⟨m, command, hp, -⟩⟩ := writes_of_queued run hq
  · -- nobody writes by hand
    have hhandled := (turns_of_run run hh).handled i c hc
    rw [hp] at hhandled
    cases hhandled
  · obtain ⟨hl, hf⟩ := look_of_queued run hc hp hq
    exact ⟨mem_served.mpr hl, c, hc, Purpose.frame?_eq hp hf⟩

/-- In a handled run, a call that asks for its turn was started after all calls that have queued. -/
theorem lt_of_asking {frame' : Bytes} (run : Run setup busCapacity h s) (hh : Handled h)
    (hc : s.calls[i]? = some c) (hst : c.stage = .asking e frame)
    (hq : (j, frame') ∈ queuedWrites (writes e h)) : j < i := by
  have turns := turns_of_run run hh
  have hv := visits_of_run run hc
  have hhandled := turns.handled i c hc
  rw [hst] at hv
  obtain ⟨⟨msg, command⟩, hp⟩ := Purpose.exists_sends hhandled hv
  have trail := trail_of_run run hc hp
  rw [hst] at trail
  obtain ⟨c', x, hc', hx, hcid, -⟩ := found_of_run run trail.1
  obtain rfl := Option.some.inj (hc.symm.trans hc')
  obtain ⟨d, y, hd, hy, hdid, -⟩ :=
    found_of_run run (mem_served.mp (sends_of_queued run hh hq).1)
  obtain rfl := Option.some.inj (hx.symm.trans hy)
  refine Nat.lt_of_le_of_ne (turns.le_of_active hd hc hdid hcid (by rw [hst]; simp)) ?_
  rintro rfl
  have hstage : s.stage? j = some (.asking e frame) := hst ▸ stage?_eq_of_getElem? hc
  exact ((wired_of_run run e).2 x hx).1.not_queued hstage rfl frame' hq

/-- In a handled run, writes queue in the order in which their calls were started. -/
theorem queued_sorted (run : Run setup busCapacity h s) (hh : Handled h) :
    ((queuedWrites (writes e h)).map Prod.fst).Pairwise (· < ·) := by
  induction run with
  | nil => exact .nil
  | @snoc h s t m run hm ih =>
    have hbefore := (handled_snoc.mp hh).1
    have step := run.moveStep hm
    rw [writes_snoc]
    cases hw : Transition.write? e ⟨s, m, t⟩ with
    | none => simpa using ih hbefore
    | some event =>
      obtain ⟨i, c, d, hc, -, -, -, hwrite⟩ := step.exists_of_write? hw
      cases event with
      | returned j fault =>
        rw [Option.toList_some, queuedWrites_return]
        exact ih hbefore
      | queued j frame =>
        obtain ⟨rfl, hst⟩ := Stage.eq_of_write?_queued hwrite
        rw [Option.toList_some, queuedWrites_queue, List.map_append, List.pairwise_append]
        refine ⟨ih hbefore, List.pairwise_singleton _ _, ?_⟩
        intro k hk k' hk'
        obtain rfl : k' = j := by simpa using hk'
        obtain ⟨⟨k, frame'⟩, hq, rfl⟩ := List.mem_map.mp hk
        exact lt_of_asking run hbefore hc hst hq

/-- In a handled run, the calls whose writes to a session succeeded are those that found the session
and are answered with success. -/
theorem written_iff_answered (run : Run setup busCapacity h s) (hh : Handled h) (i : CallId) :
    (∃ frame, (i, frame) ∈ queuedWrites (writes e h) ∧ .returned i none ∈ writes e h)
      ↔ i ∈ served e h ∧ s.answered .ok i = true := by
  constructor
  · rintro ⟨frame, hq, hr⟩
    obtain ⟨c, hc, hs⟩ := succeeds_of_returned run hr
    refine ⟨(sends_of_queued run hh hq).1, ?_⟩
    rw [answered, hc, Option.any_some]
    cases hst : c.stage <;> simp_all [Stage.succeeds, Stage.answers]
  · rintro ⟨hserved, hanswered⟩
    have hl := mem_served.mp hserved
    obtain ⟨c, x, hc, hx, -, hsends, -⟩ := found_of_run run hl
    obtain ⟨⟨msg, command⟩, hp⟩ := Option.isSome_iff_exists.mp hsends
    rw [answered, hc, Option.any_some] at hanswered
    cases (trail_of_run run hc hp).answers hanswered with
    | @sent e' hl' hr =>
      obtain rfl : e' = e := Option.some.inj (looks_unique run hl' hl)
      obtain ⟨frame, hq⟩ := ((wired_of_run run e').2 x hx).1.log.exists_queued_of_returned hr
      exact ⟨frame, hq, hr⟩

/-- In a handled run, the frames that were written to a session are those of the messages that found
it and are answered with success. -/
theorem writtenFrames_eq_delivered (run : Run setup busCapacity h s) (hh : Handled h) :
    writtenFrames (writes e h) = delivered setup.codec e h s := by
  have hids : ((queuedWrites (writes e h)).filter
        fun q => .returned q.1 none ∈ writes e h).map Prod.fst
      = (served e h).filter (s.answered .ok) := by
    -- both are in the order in which the calls were started
    refine List.Pairwise.eq_of_mem_iff (r := (· < ·))
      ((queued_sorted run hh).sublist (List.filter_sublist.map _))
      ((served_sorted run hh).sublist List.filter_sublist) ?_
    intro i
    rw [List.mem_filter, ← written_iff_answered run hh i]
    simp only [List.mem_map, List.mem_filter, decide_eq_true_eq, Prod.exists]
    constructor
    · rintro ⟨j, frame, ⟨hq, hr⟩, rfl⟩
      exact ⟨frame, hq, hr⟩
    · rintro ⟨frame, hq, hr⟩
      exact ⟨i, frame, ⟨hq, hr⟩, rfl⟩
  rw [writtenFrames, delivered, ← hids, List.filterMap_map, ← List.filterMap_eq_map]
  apply List.filterMap_congr
  rintro ⟨i, frame⟩ hq
  obtain ⟨-, c, hc, hf⟩ := sends_of_queued run hh (List.mem_of_mem_filter hq)
  simp [frameOf?, hc, hf]

/-! ### What else is on the connection -/

/-- What may follow the messages that were answered with success on the connection of session `e`,
which is `x`. -/
inductive Unfinished (setup : Setup) (h : History) (s : Relay) (e : Place) (x : Session) :
    Bytes → Prop where
  /-- Nothing. -/
  | none : Unfinished setup h s e x []
  /-- The start of a message that is handled still. -/
  | going {i : CallId} {c : Call} {frame part : Bytes} : i ∈ served e h → s.calls[i]? = some c →
    (∀ o, c.stage.answers o = false) → c.purpose.frame? setup.codec = some frame →
    part <+: frame → part ≠ frame → Unfinished setup h s e x part
  /-- The start of a message that could not be written, and nothing follows. -/
  | cut {i : CallId} {c : Call} {f : WriteFault} {frame part : Bytes} : i ∈ served e h →
    s.calls[i]? = some c → c.stage.answers (.failed (.socketIo x.id f)) = true →
    c.purpose.frame? setup.codec = some frame → part <+: frame → part ≠ frame →
    (∀ k t, Path setup s k t →
      ∃ y, t.sessions[e]? = some y ∧ y.toBroker.sent = x.toBroker.sent) →
    Unfinished setup h s e x part

/-- In a handled run, the start of a frame behind those that were written is the start of such a
message. -/
theorem StartOfOther.unfinished (run : Run setup busCapacity h s) (hh : Handled h)
    (hx : s.sessions[e]? = some x) (hw : Written s e x (writes e h))
    (hpart : StartOfOther s e (writes e h) part) : Unfinished setup h s e x part := by
  rcases hpart with rfl | ⟨i, frame, hq, hpre, hne, hwhy⟩
  · exact .none
  · obtain ⟨hserved, c, hc, hframe⟩ := sends_of_queued run hh hq
    obtain ⟨c', x', hc', hx', hid, hsends, -⟩ := found_of_run run (mem_served.mp hserved)
    obtain rfl := Option.some.inj (hc.symm.trans hc')
    obtain rfl := Option.some.inj (hx.symm.trans hx')
    obtain ⟨⟨msg, command⟩, hp⟩ := Option.isSome_iff_exists.mp hsends
    have hpid : c.purpose.id = x.id := by rw [Purpose.id, hid]; rfl
    rcases hwhy with ⟨rest, hr⟩ | ⟨f, hf⟩
    · have hst : c.stage = .writing e rest :=
        Option.some.inj ((stage?_eq_of_getElem? hc).symm.trans hr)
      exact .going hserved hc (fun o => by rw [hst]; rfl) hframe hpre hne
    · rcases fails_of_returned run hc hp hf with hst | hanswers
      · exact .going hserved hc (fun o => by rw [hst]; rfl) hframe hpre hne
      · refine .cut hserved hc (hpid ▸ hanswers) hframe hpre hne ?_
        intro k t path
        obtain ⟨y, hy, -, hsent, -⟩ := silent_of_path run hx (hw.faults i f hf) path
        exact ⟨y, hy, hsent⟩

/-! ### The whole -/

/-- What the connection of session `e`, which is `x`, has got, and from whom. -/
structure Routed (setup : Setup) (h : History) (s : Relay) (e : Place) (x : Session) : Prop where
  /-- It has got the messages that were answered with success, and the start of one more at most. -/
  sent : ∃ part, x.toBroker.sent = (delivered setup.codec e h s).flatten ++ part
    ∧ Unfinished setup h s e x part
  /-- They were handled in this order. -/
  order : (served e h).Pairwise (· < ·)
  /-- They are messages of its client, each under its own command, or under `SEND` if it has
  none. -/
  addressed : ∀ i ∈ served e h, ∃ (c : Call) (m : Message), s.calls[i]? = some c
    ∧ c.purpose = m.purpose ∧ m.session = x.id
    ∧ s.frameOf? setup.codec i = (setup.codec.encode m (m.command.getD .send)).toOption
  /-- A login has opened it, is not handled after any of them, and is sent on no other. -/
  opener : ∃ (i : CallId) (c : Call) (m : Message), (i, e) ∈ openings h
    ∧ s.calls[i]? = some c ∧ c.purpose = m.purpose
    ∧ m.command.any Command.opensConnection = true ∧ m.session = x.id
    ∧ (∀ j ∈ served e h, i ≤ j) ∧ ∀ e', i ∈ served e' h → e' = e

/-- In a handled run, every session is routed to. -/
theorem routed_of_run (run : Run setup busCapacity h s) (hh : Handled h)
    (hx : s.sessions[e]? = some x) : Routed setup h s e x := by
  have turns := turns_of_run run hh
  constructor
  case sent =>
    have hw := ((wired_of_run run e).2 x hx).2
    obtain ⟨part, hsent, hpart⟩ := hw.start
    rw [writtenFrames_eq_delivered run hh] at hsent
    exact ⟨part, hsent, hpart.unfinished run hh hx hw⟩
  case order => exact served_sorted run hh
  case addressed =>
    intro i hi
    obtain ⟨c, y, hc, hy, hid, hsends, -⟩ := found_of_run run (mem_served.mp hi)
    obtain rfl := Option.some.inj (hx.symm.trans hy)
    obtain ⟨⟨m, command⟩, hp⟩ := Option.isSome_iff_exists.mp hsends
    have heq := Purpose.eq_purpose_of_sends (turns.handled i c hc) hp
    refine ⟨c, m, hc, heq, ?_, ?_⟩
    · rw [heq, Message.session?_purpose] at hid
      exact Option.some.inj hid
    · simp [frameOf?, hc, heq, Purpose.frame?, m.sends?_purpose]
  case opener =>
    obtain ⟨i, ho⟩ := exists_opening_of_run run hh.managed hx
    obtain ⟨c, y, hc, hy, hid, hdials, -⟩ := (opened_of_run run).calls i e ho
    obtain rfl := Option.some.inj (hx.symm.trans hy)
    obtain ⟨⟨m, command⟩, hp⟩ := Purpose.exists_sends_of_dials hdials
    have heq := Purpose.eq_purpose_of_sends (turns.handled i c hc) hp
    refine ⟨i, c, m, ho, hc, heq, ?_, ?_, fun j hj => opening_le_served run hh ho hj, ?_⟩
    · rw [heq, Message.dials_purpose] at hdials
      exact hdials
    · rw [hid, heq, Message.id_purpose]
    · intro e' hi
      exact (opened_of_run run).session i e' e
        (opening_of_found run hh hc hdials (mem_served.mp hi)) ho

/-- How events are routed when those of each client are handled one at a time.

A connection has got the frames of the messages of its client that found its session and were
answered with success, in the order in which they were handled, the login that opened it before all
others; and then the start of at most one more, which is handled still, or could not be written, so
that nothing follows. A message answered with success has found one session. A message other than a
login that finds no session is answered so and changes nothing, and a login that finds one is
answered so, opens no connection and changes nothing. An answer is settled once a message is sent or
not; a call that logs out gives it after it has ended its session, and gives no other. -/
theorem messages_routed (run : Run setup busCapacity h s) (hh : Handled h) :
    (∀ e x, s.sessions[e]? = some x → Routed setup h s e x)
      ∧ (∀ (i : CallId) (c : Call) (m : Message), s.calls[i]? = some c → c.purpose = m.purpose →
        (c.stage.answers .ok = true → ∃ e, i ∈ served e h ∧ ∀ e', i ∈ served e' h → e' = e)
        ∧ (m.command.any Command.opensConnection = false → (i, none) ∈ looks h →
          c.stage.answers (.failed (.sessionNotFound m.session)) = true ∧ Harmless i h)
        ∧ (∀ e, (i, some e) ∈ admissions h →
          s.outcome? i = some (.failed (.sessionAlreadyExists m.session)) ∧ Harmless i h
            ∧ ∀ e', (i, e') ∉ openings h)
        ∧ ∀ o, (s.outcome? i = some o → c.stage.answers o = true)
          ∧ (c.stage.answers o = true → (s.Quiet setup → s.outcome? i = some o)
            ∧ ∀ k t o', Path setup s k t → t.outcome? i = some o' → o' = o)) := by
  refine ⟨fun e x hx => routed_of_run run hh hx, ?_⟩
  intro i c m hc hp
  have hsends := hp ▸ m.sends?_purpose
  have hid : c.purpose.id = m.session := hp ▸ m.id_purpose
  refine ⟨?_, ?_, ?_, fun o => ⟨fun ho => answers_of_outcome? hc ho, fun ha =>
    ⟨fun quiet => quiet.outcome?_of_answers run hc ha, fun k t o' path ho =>
      eq_of_answers run path hc ha ho⟩⟩⟩
  · intro ha
    cases (trail_of_run run hc hsends).answers ha with
    | @sent e hl =>
      refine ⟨e, mem_served.mpr hl, ?_⟩
      intro e' he'
      exact Option.some.inj (looks_unique run (mem_served.mp he') hl)
  · intro hdials hl
    rw [← Message.dials_purpose, ← hp] at hdials
    obtain ⟨ha, -, hharmless⟩ := missed_of_run run hh hc hdials hl
    exact ⟨hid ▸ ha, hharmless⟩
  · intro e hq
    obtain ⟨c', hc', hst, hharmless, hopenings⟩ := refused_of_run run hq
    obtain rfl := Option.some.inj (hc.symm.trans hc')
    refine ⟨?_, hharmless, hopenings⟩
    rw [outcome?_eq_some_iff hc, hst, hid]

/-- A login without headers and without a body. -/
def blankLogin : Message := ⟨"a", some .connect, [], .bytes []⟩

/-- A client logs in over a connection that takes fourteen bytes, and again, and sends a message of
which four bytes are taken. Another client sends a message without having logged in. -/
def twoClients : List Move :=
  [.start blankLogin.purpose, .act (.call 0), .dialed 0 (.ok 14), .act (.call 0), .act (.call 0),
    .act (.call 0), .act (.call 0), .act (.call 0), .act (.call 0), .act (.call 0), .act (.call 0),
    .start blankLogin.purpose, .act (.call 1),
    .start blankMessage.purpose, .act (.call 2), .act (.call 2), .act (.call 2), .act (.call 2),
    .start { blankMessage with session := "b" }.purpose, .act (.call 3),
    .act (.call 2), .act (.call 2)]

/-- The connection has got the first login, and the start of the message that is handled still. The
second login was refused, and the message of the other client found no session. -/
theorem messages_routed_of_two_clients :
    ∃ h s x, Run ⟨.standard, 16, "broker"⟩ 4 h s ∧ Handled h ∧ s.sessions[0]? = some x
      ∧ x.toBroker.sent = [67, 79, 78, 78, 69, 67, 84, 10, 10, 0, 83, 69, 78, 68]
      ∧ served 0 h = [0, 2] ∧ Routed ⟨.standard, 16, "broker"⟩ h s 0 x
      ∧ s.outcome? 1 = some (.failed (.sessionAlreadyExists "a")) ∧ Harmless 1 h
      ∧ s.outcome? 3 = some (.failed (.sessionNotFound "b")) ∧ Harmless 3 h := by
  obtain ⟨h, s, x, run, hh, hx, hsent, hserved, ho, c, d, hc, hcp, hq, hd, hdp, hl⟩ :
      ∃ h s x, Run ⟨.standard, 16, "broker"⟩ 4 h s ∧ Handled h ∧ s.sessions[0]? = some x
        ∧ x.toBroker.sent = [67, 79, 78, 78, 69, 67, 84, 10, 10, 0, 83, 69, 78, 68]
        ∧ served 0 h = [0, 2] ∧ s.outcome? 3 = some (.failed (.sessionNotFound "b"))
        ∧ ∃ c d, s.calls[1]? = some c ∧ c.purpose = blankLogin.purpose
        ∧ (1, some 0) ∈ admissions h
        ∧ s.calls[3]? = some d ∧ d.purpose = { blankMessage with session := "b" }.purpose
        ∧ (3, none) ∈ looks h :=
    ⟨_, _, _, path_of_trace? twoClients rfl, rfl, rfl, rfl, rfl, rfl, _, _, rfl, rfl,
      .tail _ (.head _), rfl, rfl, .tail _ (.tail _ (.head _))⟩
  obtain ⟨hrouted, hmessages⟩ := messages_routed run hh
  obtain ⟨ho', hharmless, -⟩ := (hmessages 1 c _ hc hcp).2.2.1 0 hq
  exact ⟨h, s, x, run, hh, hx, hsent, hserved, hrouted 0 x hx, ho', hharmless, ho,
    ((hmessages 3 d _ hd hdp).2.1 rfl hl).2⟩

end Relay

end StompRelay
