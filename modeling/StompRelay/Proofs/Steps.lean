import StompRelay.Relay.Step
/-!
# What a step can be

A reader or a call that moves does one of a few things. Each of them is listed here once, with all
that holds when it happens and the state that it leads to, so that a property of all runs is shown
by going through the list. Sessions are ended by their numbers; as each has its own, it does not
matter in the list that they are.

## Main definitions

* `Relay.Numbered` — every session has a number of its own
* `Relay.ReaderStep` — the steps of the reader of a session
* `Relay.CallStep` — the steps of a call
* `Relay.MoveStep` — all moves

## Main results

* `Relay.Numbered.teardown?_epoch` — who asks for a session by its number gets it or none
* `Relay.readerStep_of_stepReader`, `Relay.callStep_of_stepCall`, `Relay.moveStep_of_move` — every
  step is one of these
-/

namespace StompRelay.Relay

/-! ### Numbers of sessions -/

/-- The numbers of all sessions, in the order in which they were opened. -/
def epochs (s : Relay) : List Epoch := s.sessions.map Session.epoch

/-- No two sessions have the same number, and none has one that is still to be drawn. -/
structure Numbered (s : Relay) : Prop where
  nodup : s.epochs.Nodup
  lt : ∀ n ∈ s.epochs, n < s.nextEpoch

theorem epoch?_eq_some_iff {s : Relay} {e : Place} {n : Epoch} :
    s.epoch? e = some n ↔ ∃ x, s.sessions[e]? = some x ∧ x.epoch = n := by
  simp [epoch?]

theorem epoch?_eq_getElem? (s : Relay) (e : Place) : s.epoch? e = s.epochs[e]? :=
  List.getElem?_map.symm

/-- A number tells a session from all others. -/
theorem Numbered.eq_of_epoch? {s : Relay} (hn : s.Numbered) {e e' : Place} {n : Epoch}
    (he : s.epoch? e = some n) (he' : s.epoch? e' = some n) : e = e' := by
  rw [epoch?_eq_getElem?] at he he'
  obtain ⟨hlt, -⟩ := List.getElem?_eq_some_iff.mp he
  exact (List.getElem?_inj hlt hn.nodup).mp (he.trans he'.symm)

/-- Who asks for a session by its number ends that session, if it is registered, and no other. -/
theorem Numbered.teardown?_epoch {s : Relay} (hn : s.Numbered) {e : Place} {x : Session}
    (hx : s.sessions[e]? = some x) (id : SessionId) :
    s.teardown? id (some x.epoch)
      = if s.registered? id = some e then some (e, s.unregister id e) else none := by
  have he : s.epoch? e = some x.epoch := epoch?_eq_some_iff.mpr ⟨x, hx, rfl⟩
  split
  · rename_i hr
    exact teardown?_eq_some_iff.mpr ⟨hr, by simp [he], rfl⟩
  · rename_i hr
    refine teardown?_eq_none_iff.mpr fun e' hr' => ?_
    rw [Option.all_some, decide_eq_false_iff_not]
    intro he'
    exact hr (hn.eq_of_epoch? he' he ▸ hr')

/-! ### Readers -/

/-- The steps of the reader of session `e`, which is `x`. -/
inductive ReaderStep (setup : Setup) (s : Relay) (e : Place) (x : Session) : Relay → Prop where
  /-- It finds the close signal fired and stops. -/
  | stop {chunk : Bytes} {frame : Assembly} : x.reader = .reading chunk frame → x.closed = true →
    ReaderStep setup s e x (s.setReader e .ending)
  /-- It reads a byte that does not end a frame. -/
  | read {b : UInt8} {chunk : Bytes} {frame frame' : Assembly} :
    x.reader = .reading (b :: chunk) frame → x.closed = false → frame.feed b = .more frame' →
    ReaderStep setup s e x (s.setReader e (.reading chunk frame'))
  /-- It reads a byte for which the frame has no room. -/
  | overflow {b : UInt8} {chunk : Bytes} {frame : Assembly} :
    x.reader = .reading (b :: chunk) frame → x.closed = false → frame.feed b = .tooLarge →
    ReaderStep setup s e x (s.notify e x.id (frameTooLarge setup.maxFrameBytes))
  /-- It reads the end of what is no frame. -/
  | reject {b : UInt8} {chunk content : Bytes} {frame : Assembly} {f : Frame.Fault} :
    x.reader = .reading (b :: chunk) frame → x.closed = false →
    frame.feed b = .complete content → Codec.decode x.id content = .error f →
    ReaderStep setup s e x (s.notify e x.id (malformedFrame x.id f))
  /-- It reads the end of heart-beats. -/
  | skip {b : UInt8} {chunk content : Bytes} {frame : Assembly} :
    x.reader = .reading (b :: chunk) frame → x.closed = false →
    frame.feed b = .complete content → Codec.decode x.id content = .ok none →
    ReaderStep setup s e x (s.setReader e (.reading chunk (.empty setup.maxFrameBytes)))
  /-- It reads the end of a frame and gets in line with its message. -/
  | offer {b : UInt8} {chunk content : Bytes} {frame : Assembly} {m : Message} :
    x.reader = .reading (b :: chunk) frame → x.closed = false →
    frame.feed b = .complete content → Codec.decode x.id content = .ok (some m) →
    ReaderStep setup s e x (s.joinBus e (.delivering m chunk))
  /-- It fetches bytes from the connection. -/
  | fetch {frame : Assembly} : x.reader = .reading [] frame → x.closed = false →
    x.toRelay.waiting ≠ [] →
    ReaderStep setup s e x (s.modifySession e fun y =>
      { y with
        toRelay := (x.toRelay.take Session.bufferSize).2
        reader := .reading (x.toRelay.take Session.bufferSize).1 frame })
  /-- It finds the end of the stream. -/
  | lose {frame : Assembly} : x.reader = .reading [] frame → x.closed = false →
    x.toRelay.waiting = [] → x.inputFailed = false → x.brokerGone = true →
    ReaderStep setup s e x (s.notify e x.id lostConnection)
  /-- It fails to fetch bytes. -/
  | fail {frame : Assembly} : x.reader = .reading [] frame → x.closed = false →
    x.toRelay.waiting = [] → x.inputFailed = true →
    ReaderStep setup s e x (s.notify e x.id lostConnection)
  /-- It gives a message up, for the close signal or because nobody receives any more. -/
  | abandon {m : Message} {chunk : Bytes} : x.reader = .delivering m chunk →
    (x.closed = true ∨ s.bus.closed = true) →
    ReaderStep setup s e x (s.leaveBus e .ending)
  /-- It posts the message of a frame. -/
  | post {m : Message} {chunk : Bytes} : x.reader = .delivering m chunk → x.closed = false →
    s.bus.closed = false → s.bus.mayPost (.reader e) = true →
    ReaderStep setup s e x (s.postFrom e m (.reading chunk (.empty setup.maxFrameBytes)))
  /-- It keeps its last message, because nobody receives any more. -/
  | hush {m : Message} : x.reader = .notifying m → s.bus.closed = true →
    ReaderStep setup s e x (s.leaveBus e .ending)
  /-- It posts its last message. -/
  | announce {m : Message} : x.reader = .notifying m → s.bus.closed = false →
    s.bus.mayPost (.reader e) = true → ReaderStep setup s e x (s.postFrom e m .ending)
  /-- It ends its session. -/
  | unregister : x.reader = .ending → s.registered? x.id = some e →
    ReaderStep setup s e x ((s.unregister x.id e).setReader e .shutting)
  /-- It finds its session ended. -/
  | quit : x.reader = .ending → s.registered? x.id ≠ some e →
    ReaderStep setup s e x (s.setReader e .finished)
  /-- It shuts the write side of the session that it has ended. -/
  | shut : x.reader = .shutting →
    ReaderStep setup s e x (s.modifySession e fun x => { x.close with reader := .finished })

section Readers

variable {setup : Setup} {s t : Relay} {e : Place} {x : Session}

private theorem readerStep_of_readByte {b : UInt8} {chunk : Bytes} {frame : Assembly}
    (hr : x.reader = .reading (b :: chunk) frame) (hc : x.closed = false) :
    ReaderStep setup s e x (s.readByte setup e x frame b chunk) := by
  unfold readByte
  split
  · rename_i hf
    exact .read hr hc hf
  · rename_i hf
    exact .overflow hr hc hf
  · rename_i hf
    split
    · rename_i hd
      exact .reject hr hc hf hd
    · rename_i hd
      exact .skip hr hc hf hd
    · rename_i hd
      exact .offer hr hc hf hd

private theorem readerStep_of_fetch {frame : Assembly} (hr : x.reader = .reading [] frame)
    (hc : x.closed = false) (h : s.fetch e x frame = some t) : ReaderStep setup s e x t := by
  unfold fetch at h
  split at h
  · rename_i hw
    rw [List.isEmpty_iff] at hw
    split at h
    · rename_i hf
      cases h
      exact .fail hr hc hw hf
    · rename_i hf
      rw [Bool.not_eq_true] at hf
      obtain ⟨hg, heq⟩ := Option.ite_none_right_eq_some.mp h
      cases heq
      exact .lose hr hc hw hf hg
  · rename_i hw
    rw [List.isEmpty_iff] at hw
    cases h
    exact .fetch hr hc hw

/-- Every step of a reader is one of these. -/
theorem readerStep_of_stepReader (hn : s.Numbered) (hx : s.sessions[e]? = some x)
    (h : s.stepReader setup e x = some t) : ReaderStep setup s e x t := by
  cases hr : x.reader with
  | unstarted | absent | finished =>
    rw [stepReader, hr] at h
    cases h
  | reading chunk frame =>
    rw [stepReader, hr] at h
    dsimp only at h
    split at h
    · rename_i hc
      cases h
      exact .stop hr hc
    · rename_i hc
      rw [Bool.not_eq_true] at hc
      -- bytes that were fetched are read before others are fetched
      cases chunk with
      | cons b chunk =>
        cases h
        exact readerStep_of_readByte hr hc
      | nil => exact readerStep_of_fetch hr hc h
  | delivering m chunk =>
    rw [stepReader, hr] at h
    dsimp only at h
    split at h
    · rename_i hc
      cases h
      rw [Bool.or_eq_true] at hc
      exact .abandon hr hc
    · rename_i hc
      rw [Bool.not_eq_true, Bool.or_eq_false_iff] at hc
      obtain ⟨hp, heq⟩ := Option.ite_none_right_eq_some.mp h
      cases heq
      exact .post hr hc.1 hc.2 hp
  | notifying m =>
    rw [stepReader, hr] at h
    dsimp only at h
    split at h
    · rename_i hc
      cases h
      exact .hush hr hc
    · rename_i hc
      rw [Bool.not_eq_true] at hc
      obtain ⟨hp, heq⟩ := Option.ite_none_right_eq_some.mp h
      cases heq
      exact .announce hr hc hp
  | ending =>
    rw [stepReader, hr] at h
    dsimp only at h
    rw [hn.teardown?_epoch hx] at h
    by_cases hreg : s.registered? x.id = some e
    · rw [if_pos hreg] at h
      cases h
      exact .unregister hr hreg
    · rw [if_neg hreg] at h
      cases h
      exact .quit hr hreg
  | shutting =>
    rw [stepReader, hr] at h
    cases h
    exact .shut hr

end Readers

/-! ### Calls -/

/-- The steps of call `i`, which is `c`. -/
inductive CallStep (setup : Setup) (s : Relay) (i : CallId) (c : Call) : Relay → Prop where
  /-- It finds its id taken before it dials. -/
  | refuse {e : Place} : c.stage = .admitting → s.registered? c.purpose.id = some e →
    CallStep setup s i c (s.setStage i (.done (.failed (.sessionAlreadyExists c.purpose.id))))
  /-- It finds its id free and dials. -/
  | dial : c.stage = .admitting → s.registered? c.purpose.id = none →
    CallStep setup s i c (s.setStage i .dialing)
  /-- It finds its id taken after all and drops its session. -/
  | reject {e e' : Place} : c.stage = .registering e → s.registered? c.purpose.id = some e' →
    CallStep setup s i c
      ((s.setReader e .finished).setStage i
        (.done (.failed (.sessionAlreadyExists c.purpose.id))))
  /-- It registers its session. -/
  | register {e : Place} : c.stage = .registering e → s.registered? c.purpose.id = none →
    CallStep setup s i c
      { s.setStage i (.starting e) with registry := s.registry ++ [(c.purpose.id, e)] }
  /-- It hands its session over, with a reader or without. -/
  | attach {e : Place} {id : SessionId} {reads holds : Bool} : c.stage = .starting e →
    c.purpose = .attach id reads holds →
    CallStep setup s i c
      ((s.modifySession e fun x =>
        { x with
          reader := if reads then .reading [] (.empty setup.maxFrameBytes) else .absent
          held := holds }).setStage i (.done .ok))
  /-- It starts the reader of its session. -/
  | start {e : Place} : c.stage = .starting e →
    (∀ id reads holds, c.purpose ≠ .attach id reads holds) →
    CallStep setup s i c
      ((s.setReader e (.reading [] (.empty setup.maxFrameBytes))).setStage i .finding)
  /-- It finds the session of its message. -/
  | find {e : Place} : c.stage = .finding → s.registered? c.purpose.id = some e →
    CallStep setup s i c (s.setStage i (.encoding e))
  /-- It finds no session for its message. -/
  | miss : c.stage = .finding → s.registered? c.purpose.id = none →
    CallStep setup s i c
      (s.setStage i (c.purpose.conclude (.failed (.sessionNotFound c.purpose.id))))
  /-- Its message becomes a frame. -/
  | encode {e : Place} {m : Message} {command : Command} {frame : Bytes} :
    c.stage = .encoding e → c.purpose.sends? = some (m, command) →
    setup.codec.encode m command = .ok frame →
    CallStep setup s i c (s.setStage i (.asking e frame))
  /-- Its message becomes no frame. -/
  | unencodable {e : Place} {m : Message} {command : Command} {error : Error} :
    c.stage = .encoding e → c.purpose.sends? = some (m, command) →
    setup.codec.encode m command = .error error →
    CallStep setup s i c (s.setStage i (c.purpose.conclude (.failed (.conversion m.session error))))
  /-- It queues for its turn to write. -/
  | queue {e : Place} {frame : Bytes} : c.stage = .asking e frame →
    CallStep setup s i c
      ((s.modifySession e fun x => { x with writers := x.writers ++ [i] }).setStage i
        (.waiting e frame))
  /-- It gets its turn to write. -/
  | turn {e : Place} {x : Session} {frame : Bytes} : c.stage = .waiting e frame →
    s.sessions[e]? = some x → x.writers.head? = some i → x.closed = false →
    CallStep setup s i c (s.setStage i (.writing e frame))
  /-- It gets its turn to write when the close signal has fired. -/
  | bounce {e : Place} {x : Session} {frame : Bytes} : c.stage = .waiting e frame →
    s.sessions[e]? = some x → x.writers.head? = some i → x.closed = true →
    CallStep setup s i c (s.endWrite i e (c.purpose.afterBreak e .closed))
  /-- The close signal ends its write. -/
  | cut {e : Place} {x : Session} {rest : Bytes} : c.stage = .writing e rest →
    s.sessions[e]? = some x → x.closed = true →
    CallStep setup s i c (s.endWrite i e (c.purpose.afterBreak e .closed))
  /-- All that is left of its frame is accepted. -/
  | accept {e : Place} {x : Session} {rest : Bytes} : c.stage = .writing e rest →
    s.sessions[e]? = some x → x.closed = false → rest ≠ [] → x.hasSpace rest = true →
    CallStep setup s i c ((s.modifySession e fun x => x.accept rest).setStage i (.writing e []))
  /-- Nothing is left to write. -/
  | finish {e : Place} {x : Session} : c.stage = .writing e [] →
    s.sessions[e]? = some x → x.closed = false → x.unsent = [] →
    CallStep setup s i c (s.endWrite i e (c.purpose.conclude .ok))
  /-- The broken connection ends its write. -/
  | snap {e : Place} {x : Session} {rest : Bytes} : c.stage = .writing e rest →
    s.sessions[e]? = some x → x.closed = false → (rest ≠ [] ∨ x.unsent ≠ []) → x.broken = true →
    CallStep setup s i c (s.endWrite i e (c.purpose.afterBreak e .brokenPipe))
  /-- Bytes get into the connection, and some are left. -/
  | push {e : Place} {x y : Session} {rest rest' : Bytes} : c.stage = .writing e rest →
    s.sessions[e]? = some x → x.closed = false → x.broken = false →
    x.push? rest = some (rest', y) → (rest' ≠ [] ∨ y.unsent ≠ []) →
    CallStep setup s i c ((s.modifySession e fun _ => y).setStage i (.writing e rest'))
  /-- The last bytes get into the connection. -/
  | complete {e : Place} {x y : Session} {rest : Bytes} : c.stage = .writing e rest →
    s.sessions[e]? = some x → x.closed = false → x.broken = false →
    x.push? rest = some ([], y) → y.unsent = [] →
    CallStep setup s i c
      ((s.modifySession e fun _ => y).endWrite i e (c.purpose.conclude .ok))
  /-- It ends the session to which its write failed. -/
  | condemn {e : Place} {f : WriteFault} : c.stage = .failing e f →
    s.registered? c.purpose.id = some e →
    CallStep setup s i c
      ((s.unregister c.purpose.id e).setStage i
        (.closing [e] (.failed (.socketIo c.purpose.id f)) false))
  /-- The session to which its write failed has been ended already. -/
  | late {e : Place} {f : WriteFault} : c.stage = .failing e f →
    s.registered? c.purpose.id ≠ some e →
    CallStep setup s i c (s.setStage i (c.purpose.conclude (.failed (.socketIo c.purpose.id f))))
  /-- It ends the session under its id. -/
  | remove {e : Place} {only : Option Epoch} {found missed : Outcome} :
    c.stage = .removing only found missed → s.registered? c.purpose.id = some e →
    only.all (s.epoch? e = some ·) = true →
    CallStep setup s i c ((s.unregister c.purpose.id e).setStage i (.closing [e] found true))
  /-- It finds no session to end. -/
  | pass {only : Option Epoch} {found missed : Outcome} : c.stage = .removing only found missed →
    (∀ e, s.registered? c.purpose.id = some e → only.all (s.epoch? e = some ·) = false) →
    CallStep setup s i c (s.setStage i (.done missed))
  /-- It ends all sessions. -/
  | clear : c.stage = .clearing →
    CallStep setup s i c
      ({ s.cancelAll s.registeredPlaces with registry := [] }.setStage i
        (.closing s.registeredPlaces (.ended s.registeredPlaces.length) true))
  /-- It shuts the write side of a session that it has ended. -/
  | close {e : Place} {es : List Place} {o : Outcome} {final : Bool} :
    c.stage = .closing (e :: es) o final →
    CallStep setup s i c ((s.modifySession e Session.close).setStage i (.closing es o final))
  /-- It has shut the write sides of all sessions that it has ended. -/
  | leave {o : Outcome} {final : Bool} : c.stage = .closing [] o final →
    CallStep setup s i c (s.setStage i (if final then .done o else c.purpose.conclude o))
  /-- It gets in line for the bus. -/
  | join : c.stage = .joining →
    CallStep setup s i c ({ s with bus := s.bus.join (.call i) }.setStage i .posting)
  /-- It leaves the line, because nobody receives any more. -/
  | refrain {m : Message} : c.stage = .posting → c.purpose = .deliver m → s.bus.closed = true →
    CallStep setup s i c
      ({ s with bus := s.bus.leave (.call i) }.setStage i (.done (.failed (.busClosed m.session))))
  /-- It posts its message. -/
  | post {m : Message} : c.stage = .posting → c.purpose = .deliver m → s.bus.closed = false →
    s.bus.mayPost (.call i) = true →
    CallStep setup s i c ({ s with bus := s.bus.post (.call i) m }.setStage i (.done .ok))

section Calls

variable {setup : Setup} {s t : Relay} {i : CallId} {c : Call} {e : Place}

private theorem callStep_of_stepWrite {rest : Bytes} (hs : c.stage = .writing e rest)
    (h : s.stepWrite i c.purpose e rest = some t) : CallStep setup s i c t := by
  -- a write looks at the close signal first, then at what is left, then at the connection
  unfold stepWrite at h
  split at h
  · cases h
  · rename_i x hx
    split at h
    · rename_i hc
      cases h
      exact .cut hs hx hc
    · rename_i hc
      rw [Bool.not_eq_true] at hc
      split at h
      · rename_i hp
        cases h
        simp only [Bool.and_eq_true, Bool.not_eq_true', List.isEmpty_eq_false_iff] at hp
        exact .accept hs hx hc hp.1 hp.2
      · split at h
        · rename_i hn
          cases h
          simp only [Bool.and_eq_true, List.isEmpty_iff] at hn
          obtain ⟨rfl, hu⟩ := hn
          exact .finish hs hx hc hu
        · rename_i hn
          have left : rest ≠ [] ∨ x.unsent ≠ [] := by
            simpa [Classical.or_iff_not_imp_left] using hn
          split at h
          · rename_i hb
            cases h
            exact .snap hs hx hc left hb
          · rename_i hb
            rw [Bool.not_eq_true] at hb
            obtain ⟨⟨rest', y⟩, hp, rfl⟩ := Option.map_eq_some_iff.mp h
            dsimp only
            split
            · rename_i hd
              simp only [Bool.and_eq_true, List.isEmpty_iff] at hd
              obtain ⟨rfl, hu⟩ := hd
              exact .complete hs hx hc hb hp hu
            · rename_i hd
              refine .push hs hx hc hb hp ?_
              simpa [Classical.or_iff_not_imp_left] using hd

private theorem callStep_of_stepPost {m : Message} (hs : c.stage = .posting)
    (hp : c.purpose = .deliver m) (h : s.stepPost i m = some t) : CallStep setup s i c t := by
  unfold stepPost at h
  split at h
  · rename_i hc
    cases h
    exact .refrain hs hp hc
  · rename_i hc
    rw [Bool.not_eq_true] at hc
    obtain ⟨hm, heq⟩ := Option.ite_none_right_eq_some.mp h
    cases heq
    exact .post hs hp hc hm

/-- Every step of a call is one of these. -/
theorem callStep_of_stepCall (hn : s.Numbered) (h : s.stepCall setup i c = some t) :
    CallStep setup s i c t := by
  rw [stepCall] at h
  cases hs : c.stage with
  | dialing | done =>
    rw [hs] at h
    cases h
  | admitting =>
    rw [hs] at h
    dsimp only at h
    cases hr : s.registered? c.purpose.id with
    | some e =>
      rw [hr] at h
      cases h
      exact .refuse hs hr
    | none =>
      rw [hr] at h
      cases h
      exact .dial hs hr
  | registering e =>
    rw [hs] at h
    cases h
    unfold stepRegister
    split
    · rename_i e' hr
      exact .reject hs hr
    · rename_i hr
      exact .register hs hr
  | starting e =>
    rw [hs] at h
    cases h
    unfold stepStart
    dsimp only
    split
    · rename_i id reads holds hp
      exact .attach hs hp
    · rename_i hp
      exact .start hs hp
  | finding =>
    rw [hs] at h
    dsimp only at h
    cases hr : s.registered? c.purpose.id with
    | some e =>
      rw [hr] at h
      cases h
      exact .find hs hr
    | none =>
      rw [hr] at h
      cases h
      exact .miss hs hr
  | encoding e =>
    rw [hs] at h
    obtain ⟨⟨m, command⟩, hm, rfl⟩ := Option.map_eq_some_iff.mp h
    dsimp only
    split
    · rename_i error he
      exact .unencodable hs hm he
    · rename_i frame he
      exact .encode hs hm he
  | asking e frame =>
    rw [hs] at h
    cases h
    exact .queue hs
  | waiting e frame =>
    rw [hs] at h
    dsimp only at h
    cases hx : s.sessions[e]? with
    | none =>
      rw [hx] at h
      cases h
    | some x =>
      rw [hx] at h
      obtain ⟨hh, heq⟩ := Option.ite_none_right_eq_some.mp h
      -- who has its turn finds out first whether the close signal has fired
      cases hc : x.closed with
      | true =>
        rw [hc] at heq
        cases heq
        exact .bounce hs hx hh hc
      | false =>
        rw [hc] at heq
        cases heq
        exact .turn hs hx hh hc
  | writing e rest =>
    rw [hs] at h
    exact callStep_of_stepWrite hs h
  | failing e f =>
    rw [hs] at h
    dsimp only at h
    cases hx : s.sessions[e]? with
    | none =>
      rw [hx] at h
      cases h
    | some x =>
      rw [hx] at h
      dsimp only at h
      rw [hn.teardown?_epoch hx] at h
      by_cases hr : s.registered? c.purpose.id = some e
      · rw [if_pos hr] at h
        cases h
        exact .condemn hs hr
      · rw [if_neg hr] at h
        cases h
        exact .late hs hr
  | removing only found missed =>
    rw [hs] at h
    dsimp only at h
    split at h
    · rename_i e t' ht
      obtain ⟨hr, hall, rfl⟩ := teardown?_eq_some_iff.mp ht
      cases h
      exact .remove hs hr hall
    · rename_i ht
      cases h
      exact .pass hs (teardown?_eq_none_iff.mp ht)
  | clearing =>
    rw [hs] at h
    cases h
    exact .clear hs
  | closing es o final =>
    rw [hs] at h
    cases h
    cases es with
    | nil => exact .leave hs
    | cons e es => exact .close hs
  | joining =>
    rw [hs] at h
    cases h
    exact .join hs
  | posting =>
    rw [hs] at h
    dsimp only at h
    split at h
    · rename_i m hp
      exact callStep_of_stepPost hs hp h
    · cases h

end Calls

/-! ### All moves -/

/-- What may happen next, with all that holds then. -/
inductive MoveStep (setup : Setup) (s : Relay) : Move → Relay → Prop where
  /-- A reader moves. -/
  | reader {e : Place} {x : Session} {t : Relay} : s.sessions[e]? = some x →
    ReaderStep setup s e x t → MoveStep setup s (.act (.reader e)) t
  /-- A call moves. -/
  | call {i : CallId} {c : Call} {t : Relay} : s.calls[i]? = some c →
    CallStep setup s i c t → MoveStep setup s (.act (.call i)) t
  /-- A call is started. -/
  | start {p : Purpose} : s.mayStart p = true → MoveStep setup s (.start p) (s.start p)
  /-- A connection is opened and handed over. -/
  | attach {id : SessionId} {capacity : Nat} {reads holds : Bool} :
    MoveStep setup s (.attach id capacity reads holds) (s.attach id capacity reads holds)
  /-- A call that dials gets no connection. -/
  | refused {i : CallId} {p : Purpose} {reason : String} : s.calls[i]? = some ⟨p, .dialing⟩ →
    MoveStep setup s (.dialed i (.error reason))
      (s.setStage i (.done (.failed (.connectionEstablishment p.id setup.address reason))))
  /-- A call that dials gets a connection. -/
  | connected {i : CallId} {p : Purpose} {capacity : Nat} : s.calls[i]? = some ⟨p, .dialing⟩ →
    MoveStep setup s (.dialed i (.ok capacity))
      ((s.setStage i (.registering s.sessions.length)).openSession p.id capacity)
  /-- A connection for a call that does not dial changes nothing. -/
  | undialed {i : CallId} {answer : Except String Nat} : MoveStep setup s (.dialed i answer) s
  /-- The broker puts bytes into a connection. -/
  | brokerPut {e : Place} {x : Session} {bs : Bytes} : s.sessions[e]? = some x →
    x.inputEnded = false → bs.length ≤ x.toRelay.room →
    MoveStep setup s (.brokerPut e bs) (s.brokerPut e bs)
  /-- The broker takes bytes out of a connection. -/
  | brokerTake {e : Place} {n : Nat} : MoveStep setup s (.brokerTake e n) (s.brokerTake e n)
  /-- The broker drops its end of a connection. -/
  | brokerDrop {e : Place} : MoveStep setup s (.brokerDrop e) (s.brokerDrop e)
  /-- Fetching from a connection fails from now on. -/
  | breakInput {e : Place} : MoveStep setup s (.breakInput e) (s.breakInput e)
  /-- A message is received from the bus. -/
  | receive {m : Message} {queue : List Message} : s.bus.queue = m :: queue →
    MoveStep setup s .receive
      { s with bus := { s.bus with received := m :: s.bus.received, queue := queue } }
  /-- The receiver of the bus goes. -/
  | dropBus : MoveStep setup s .dropBus s.dropBus
  /-- A session is held no longer. -/
  | letGo {e : Place} : MoveStep setup s (.letGo e) (s.letGo e)
  /-- The entry of an id is removed. -/
  | forget {id : SessionId} : MoveStep setup s (.forget id) (s.forget id)

/-- Every move is one of these. -/
theorem moveStep_of_move {setup : Setup} {s t : Relay} {m : Move} (hn : s.Numbered)
    (h : s.move? setup m = some t) : MoveStep setup s m t := by
  cases m with
  | act a =>
    cases a with
    | reader e =>
      obtain ⟨x, hx, hstep⟩ := Option.bind_eq_some_iff.mp h
      exact .reader hx (readerStep_of_stepReader hn hx hstep)
    | call i =>
      obtain ⟨c, hc, hstep⟩ := Option.bind_eq_some_iff.mp h
      exact .call hc (callStep_of_stepCall hn hstep)
  | start p =>
    obtain ⟨hp, heq⟩ := Option.ite_none_right_eq_some.mp h
    cases heq
    exact .start hp
  | attach id capacity reads holds =>
    cases h
    exact .attach
  | dialed i answer =>
    cases h
    unfold dialed
    split
    · rename_i p hc
      cases answer with
      | error reason => exact .refused hc
      | ok capacity => exact .connected hc
    · exact .undialed
  | brokerPut e bs =>
    obtain ⟨hp, heq⟩ := Option.ite_none_right_eq_some.mp h
    cases heq
    rw [mayPut, Bool.and_eq_true] at hp
    obtain ⟨x, hx, hb⟩ := (Option.any_eq_true _ _).mp hp.2
    simp only [Bool.and_eq_true, Bool.not_eq_true', decide_eq_true_eq] at hb
    exact .brokerPut hx hb.1 hb.2
  | brokerTake e n =>
    cases h
    exact .brokerTake
  | brokerDrop e =>
    cases h
    exact .brokerDrop
  | breakInput e =>
    cases h
    exact .breakInput
  | receive =>
    obtain ⟨⟨m, t⟩, hr, heq⟩ := Option.map_eq_some_iff.mp h
    cases heq
    -- the message is on the record of the relay and on that of the bus
    obtain ⟨⟨m', b⟩, hb, heq⟩ := Option.map_eq_some_iff.mp hr
    cases heq
    unfold Bus.receive at hb
    split at hb
    · cases hb
    · rename_i hq
      cases hb
      exact .receive hq
  | dropBus =>
    cases h
    exact .dropBus
  | letGo e =>
    cases h
    exact .letGo
  | forget id =>
    cases h
    exact .forget

end StompRelay.Relay
