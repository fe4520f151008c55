import StompRelay.Proofs.Isolation.Account
import StompRelay.Proofs.Delivery.Line
import StompRelay.Proofs.Rest
import StompRelay.Proofs.Wire.Integrity
/-!
# Sessions that retire

When sessions of a relay at rest are ended, all that uses them winds up. Readers that heed the close
signal stop, giving up the messages that they wait with; writes fail, and the calls that made them
end. Nothing else happens: the bus stays as full as it was, so nobody else gets to move. So the
relay comes to rest again in one state only, whoever moves when.

## Main definitions

* `Relay.retire` — the state in which the relay comes to rest after sessions were ended
* `Relay.Retiring` — the states on the way there

## Main results

* `Relay.Retiring.path` — the steps of the relay do not leave the way
* `Relay.Retiring.eq_of_quiet` — where nobody can move, its end has been reached
* `Relay.Retiring.endSessions` — more sessions may be ended on the way
-/

namespace StompRelay

/-- Whether a reader looks at the close signal. -/
def Reader.heeds : Reader → Bool
  | .reading _ _ | .delivering _ _ => true
  | _ => false

/-- A session after it was ended and all that used it has wound up. -/
def Session.retired (x : Session) : Session :=
  { x.close with
    writers := []
    reader := if x.reader.heeds then .finished else x.reader }

/-- How a call ends whose write is cut short by the close signal. -/
def Purpose.cutShort (p : Purpose) : Outcome :=
  if p.writesRaw then .broken .closed else .failed (.socketIo p.id .closed)

theorem Purpose.cutShort_of_sends (p : Purpose) (hsends : p.sends?.isSome = true) :
    p.cutShort = .failed (.socketIo p.id .closed) := by
  cases p <;> first | rfl | cases hsends

namespace Relay

/-- Whether a place in the line is given up because one of some sessions is ended. -/
def givesUp (s : Relay) (es : List Place) : Ticket → Bool
  | .reader e => es.contains e && s.sessions[e]?.any fun x => x.reader.heeds
  | .call _ => false

/-- The state in which a relay at rest comes to rest again after some of its sessions were ended. -/
def retire (s : Relay) (es : List Place) : Relay where
  sessions := s.sessions.mapIdx fun e x => if es.contains e then x.retired else x
  registry := s.registry.filter fun entry => !es.contains entry.2
  bus := { s.bus with line := s.bus.line.filter fun ticket => !s.givesUp es ticket }
  calls := s.calls.map fun c =>
    if es.any fun e => c.stage.writesTo e then { c with stage := .done c.purpose.cutShort } else c
  nextEpoch := s.nextEpoch

/-- More calls at the end of the list. -/
def withCalls (s : Relay) (cs : List Call) : Relay := { s with calls := s.calls ++ cs }

/-- The state right after a call has ended sessions. -/
def endSessions (s : Relay) (es : List Place) (c : Call) : Relay where
  sessions := s.sessions.mapIdx fun e x => if es.contains e then x.close else x
  registry := s.registry.filter fun entry => !es.contains entry.2
  bus := s.bus
  calls := s.calls ++ [c]
  nextEpoch := s.nextEpoch

theorem givesUp_iff {s : Relay} {es : List Place} {ticket : Ticket} :
    s.givesUp es ticket = true ↔ ∃ e ∈ es, ticket = .reader e
      ∧ ∃ x : Session, s.sessions[e]? = some x ∧ x.reader.heeds = true := by
  cases ticket <;> simp [givesUp, Option.any_eq_true]

theorem givesUp_mono {s : Relay} {es es' : List Place} {ticket : Ticket}
    (hes : ∀ e ∈ es, e ∈ es') (hgives : s.givesUp es ticket = true) :
    s.givesUp es' ticket = true := by
  obtain ⟨e, he, hrest⟩ := givesUp_iff.mp hgives
  exact givesUp_iff.mpr ⟨e, hes e he, hrest⟩

/-- It does not matter in which order sessions are ended. -/
theorem retire_congr {s : Relay} {es es' : List Place} (hes : ∀ e, e ∈ es ↔ e ∈ es') :
    s.retire es = s.retire es' := by
  have hcontains (e : Place) : es.contains e = es'.contains e := by
    rw [Bool.eq_iff_iff, List.contains_iff_mem, List.contains_iff_mem, hes]
  have hany (p : Place → Bool) : es.any p = es'.any p := by
    rw [Bool.eq_iff_iff, List.any_eq_true, List.any_eq_true]
    simp only [hes]
  have hgives (ticket : Ticket) : s.givesUp es ticket = s.givesUp es' ticket := by
    cases ticket with
    | reader e => rw [givesUp, givesUp, hcontains]
    | call i => rfl
  simp only [retire, hcontains, hany, hgives]

/-- The state of a session that was ended, which was `x` before. -/
structure EndedSession (x y : Session) : Prop where
  eq : y = { x.close with writers := y.writers, reader := y.reader }
  reader : y.reader = x.reader ∨ x.reader.heeds = true ∧ (y.reader = .ending ∨ y.reader = .finished)

/-- The stages of a call, which was `c` before some sessions were ended. -/
inductive EndedCall (es : List Place) (c : Call) : Stage → Prop where
  /-- It has not moved. -/
  | still : EndedCall es c c.stage
  /-- Its write was cut short, and it is about to end the session. -/
  | failing {e : Place} : e ∈ es → c.stage.writesTo e = true → c.purpose.sends?.isSome = true →
    EndedCall es c (.failing e .closed)
  /-- Its write was cut short, and it is about to end the session as it would have anyway. -/
  | removing {e : Place} : e ∈ es → c.stage.writesTo e = true → c.purpose.sends?.isSome = true →
    EndedCall es c (.removing none c.purpose.cutShort c.purpose.cutShort)
  /-- Its write was cut short, and it has ended. -/
  | done {e : Place} : e ∈ es → c.stage.writesTo e = true →
    EndedCall es c (.done c.purpose.cutShort)

/-- The states on the way from `s`, where sessions `es` were ended, to the end of all that uses
them; calls `cs` have come since, and have ended. -/
structure Retiring (s : Relay) (es : List Place) (cs : List Call) (t : Relay) : Prop where
  lived : ∀ e ∈ es, e ∈ s.registeredPlaces
  registry : t.registry = s.registry.filter fun entry => !es.contains entry.2
  length : t.sessions.length = s.sessions.length
  spared : ∀ e ∉ es, t.sessions[e]? = s.sessions[e]?
  ended : ∀ e ∈ es, ∀ x y : Session, s.sessions[e]? = some x → t.sessions[e]? = some y →
    EndedSession x y
  bus : ∃ keeps : Ticket → Bool, t.bus = { s.bus with line := s.bus.line.filter keeps }
    ∧ ∀ ticket, keeps ticket = false → s.givesUp es ticket = true
  calls : ∀ (i : CallId) (c : Call), s.calls[i]? = some c → ∃ d, t.calls[i]? = some d
    ∧ d.purpose = c.purpose ∧ EndedCall es c d.stage
  count : t.calls.length = s.calls.length + cs.length
  new : ∀ i, t.calls[s.calls.length + i]? = cs[i]?
  done : ∀ c ∈ cs, ∃ o, c.stage = .done o
  next : t.nextEpoch = s.nextEpoch

variable {setup : Setup} {busCapacity : Nat} {s t u : Relay} {h k : History} {e : Place}
  {es es' : List Place} {i : CallId} {c d : Call} {cs : List Call} {x y : Session}

/-! ### Readers at rest -/

/-- How a reader that cannot move is: nobody is there to move, or it waits for bytes or for room on
the bus. -/
inductive RestingReader (s : Relay) (x : Session) : Reader → Prop where
  | unstarted : RestingReader s x .unstarted
  | absent : RestingReader s x .absent
  | finished : RestingReader s x .finished
  | reading {frame : Assembly} : x.closed = false → x.toRelay.waiting = [] → x.inputEnded = false →
    RestingReader s x (.reading [] frame)
  | delivering {m : Message} {chunk : Bytes} : x.closed = false → s.bus.closed = false →
    RestingReader s x (.delivering m chunk)
  | notifying {m : Message} : s.bus.closed = false → RestingReader s x (.notifying m)

theorem Quiet.restingReader (quiet : s.Quiet setup) (hx : s.sessions[e]? = some x) :
    RestingReader s x x.reader := by
  have hstep : s.step? setup (.reader e) = none := quiet (.reader e)
  have refused {b : Bool} {t : Relay} {o : Option Relay}
      (hnone : (if b = true then some t else o) = none) : b = false := by
    cases b with
    | true => cases hnone
    | false => rfl
  rw [step?, hx, Option.bind_some, stepReader] at hstep
  cases hr : x.reader with
  | unstarted => exact .unstarted
  | absent => exact .absent
  | finished => exact .finished
  | reading chunk frame =>
    rw [hr] at hstep
    have hopen := refused hstep
    simp only [hopen, Bool.false_eq_true, if_false] at hstep
    cases chunk with
    | cons b chunk => cases hstep
    | nil =>
      dsimp only [fetch] at hstep
      split at hstep
      · rename_i hwaiting
        have hwell := refused hstep
        rw [hwell, if_neg Bool.false_ne_true] at hstep
        exact .reading hopen (List.isEmpty_iff.mp hwaiting)
          (Bool.or_eq_false_iff.mpr ⟨hwell, refused hstep⟩)
      · cases hstep
  | delivering m chunk =>
    rw [hr] at hstep
    obtain ⟨hopen, hbus⟩ := Bool.or_eq_false_iff.mp (refused hstep)
    exact .delivering hopen hbus
  | notifying m =>
    rw [hr] at hstep
    exact .notifying (refused hstep)
  | ending =>
    rw [hr] at hstep
    dsimp only at hstep
    split at hstep <;> cases hstep
  | shutting =>
    rw [hr] at hstep
    cases hstep

/-- A reader that rests does so as long as its session is as it was and it may not post. -/
theorem RestingReader.not_step (hrests : RestingReader s x x.reader)
    (hclosed : t.bus.closed = s.bus.closed) (hpost : t.bus.mayPost (.reader e) = false) :
    ¬ReaderStep setup t e x u := by
  intro step
  -- what a reader at rest lacks, a close signal or bytes or room on the bus, it lacks later as well
  cases step with
  | unregister hr | quit hr | shut hr | read hr | overflow hr | reject hr | skip hr | offer hr =>
    rw [hr] at hrests
    cases hrests
  | stop hr hc =>
    rw [hr] at hrests
    cases hrests with
    | reading hopen => exact Bool.false_ne_true (hopen.symm.trans hc)
  | fetch hr _ hne =>
    rw [hr] at hrests
    cases hrests with
    | reading _ hnil => exact hne hnil
  | lose hr _ _ _ hgone =>
    rw [hr] at hrests
    cases hrests with
    | reading _ _ hthere => simp [Session.inputEnded, hgone] at hthere
  | fail hr _ _ hfailed =>
    rw [hr] at hrests
    cases hrests with
    | reading _ _ hthere => simp [Session.inputEnded, hfailed] at hthere
  | abandon hr hc =>
    rw [hr] at hrests
    cases hrests with
    | delivering hopen hbus => simp [hopen, hclosed, hbus] at hc
  | hush hr hc =>
    rw [hr] at hrests
    cases hrests with
    | notifying hbus => simp [hclosed, hbus] at hc
  | post _ _ _ hmay | announce _ _ hmay => exact Bool.false_ne_true (hpost.symm.trans hmay)

/-! ### Calls at rest -/

/-- A call that writes, or waits to, depends on nothing but its session. -/
theorem stepCall_eq_none_congr (hwrites : c.stage.writesTo e = true)
    (hx : t.sessions[e]? = s.sessions[e]?) (hstep : s.stepCall setup i c = none) :
    t.stepCall setup i c = none := by
  rw [stepCall] at hstep ⊢
  cases hst : c.stage with
  | waiting e' frame =>
    obtain rfl : e' = e := by simpa [hst, Stage.writesTo] using hwrites
    rw [hst] at hstep
    dsimp only at hstep ⊢
    rw [hx]
    cases hs : s.sessions[e']? with
    | none => rfl
    | some x =>
      rw [hs] at hstep
      dsimp only at hstep ⊢
      split_ifs at hstep ⊢
      rfl
  | writing e' rest =>
    obtain rfl : e' = e := by simpa [hst, Stage.writesTo] using hwrites
    rw [hst] at hstep
    dsimp only [stepWrite] at hstep ⊢
    rw [hx]
    cases hs : s.sessions[e']? with
    | none => rfl
    | some x =>
      rw [hs] at hstep
      dsimp only at hstep ⊢
      split_ifs at hstep ⊢
      exact Option.map_eq_none_iff.mpr (Option.map_eq_none_iff.mp hstep)
  | _ => simp [hst, Stage.writesTo] at hwrites

/-- A call that rests does so as long as the session that it writes to is as it was and it may not
post. -/
theorem Quiet.stepCall_eq_none (quiet : s.Quiet setup) (run : Run setup busCapacity h s)
    (hc : s.calls[i]? = some c) (hclosed : t.bus.closed = s.bus.closed)
    (hpost : t.bus.mayPost (.call i) = false)
    (hspared : ∀ e, c.stage.writesTo e = true → t.sessions[e]? = s.sessions[e]?) :
    t.stepCall setup i c = none := by
  have hrests := quiet.rests run hc
  have hnone : s.stepCall setup i c = none := by
    have hstep := quiet (.call i)
    rwa [step?, hc] at hstep
  cases hst : c.stage with
  | waiting e | writing e =>
    have hwrites : c.stage.writesTo e = true := by simp [hst, Stage.writesTo]
    exact stepCall_eq_none_congr hwrites (hspared e hwrites) hnone
  | posting =>
    obtain ⟨msg, hp⟩ := purpose_of_posting run hc hst
    have hmem : Ticket.call i ∈ s.bus.line :=
      ((line_of_run run).calls i).mpr (hst ▸ stage?_eq_of_getElem? hc)
    have hopen : t.bus.closed = false := by
      rw [hclosed]
      exact ((quiet.line_eq_nil_or_full run).resolve_left (List.ne_nil_of_mem hmem)).1
    rw [stepCall, hst, hp]
    simp [stepPost, hopen, hpost]
  | dialing | done =>
    rw [stepCall, hst]
  | _ =>
    rw [hst] at hrests
    cases hrests

/-! ### Steps on the way -/

namespace EndedSession

theorem closed (hy : EndedSession x y) : y.closed = true := by
  rw [hy.eq]
  exact x.closed_close

/-- Nothing has moved yet. -/
theorem of_close (x : Session) : EndedSession x x.close where
  eq := rfl
  reader := .inl x.reader_close

theorem leave (hy : EndedSession x y) (i : CallId) : EndedSession x (y.leave i) where
  eq := by
    conv => lhs; rw [hy.eq]
    rfl
  reader := hy.reader

theorem setReader (hy : EndedSession x y) (hheeds : x.reader.heeds = true) {r : Reader}
    (hr : r = .ending ∨ r = .finished) : EndedSession x { y with reader := r } where
  eq := by
    conv => lhs; rw [hy.eq]
  reader := .inr ⟨hheeds, hr⟩

end EndedSession

theorem EndedCall.mono {stage : Stage} (hes : ∀ e ∈ es, e ∈ es') (hend : EndedCall es c stage) :
    EndedCall es' c stage := by
  cases hend with
  | still => exact .still
  | failing he hwrites hsends => exact .failing (hes _ he) hwrites hsends
  | removing he hwrites hsends => exact .removing (hes _ he) hwrites hsends
  | done he hwrites => exact .done (hes _ he) hwrites

namespace Retiring

theorem exists_before (hw : Retiring s es cs t) (he : e ∈ es) (hy : t.sessions[e]? = some y) :
    ∃ x, s.sessions[e]? = some x ∧ EndedSession x y := by
  obtain ⟨hlt, -⟩ := List.getElem?_eq_some_iff.mp hy
  rw [hw.length] at hlt
  exact ⟨_, List.getElem?_eq_getElem hlt, hw.ended e he _ y (List.getElem?_eq_getElem hlt) hy⟩

/-- No session gets another number, and no more are opened. -/
theorem numbered (hw : Retiring s es cs t) (run : Run setup busCapacity h s) : t.Numbered := by
  have hepochs : t.epochs = s.epochs := by
    refine List.ext_getElem? fun e => ?_
    rw [← epoch?_eq_getElem?, ← epoch?_eq_getElem?, epoch?, epoch?]
    by_cases he : e ∈ es
    · cases hy : t.sessions[e]? with
      | none =>
        rw [List.getElem?_eq_none_iff, hw.length] at hy
        rw [List.getElem?_eq_none_iff.mpr hy]
      | some y =>
        obtain ⟨x, hx, hend⟩ := hw.exists_before he hy
        rw [hx, hend.eq]
        exact congrArg some x.epoch_close
    · rw [hw.spared e he]
  have hn := numbered_of_run run
  exact ⟨hepochs ▸ hn.nodup, hepochs ▸ hw.next ▸ hn.lt⟩

/-- A session that was ended is not found. -/
theorem registered?_ne (hw : Retiring s es cs t) (he : e ∈ es) (id : SessionId) :
    t.registered? id ≠ some e := by
  intro hr
  have hmem := mem_registry_of_registered? hr
  rw [hw.registry, List.mem_filter] at hmem
  simp [he] at hmem

/-- Nobody gets to post. -/
theorem mayPost_eq_false (hw : Retiring s es cs t) (run : Run setup busCapacity h s)
    (quiet : s.Quiet setup) (ticket : Ticket) : t.bus.mayPost ticket = false := by
  obtain ⟨keeps, hbus, -⟩ := hw.bus
  -- places in line are given up on the way, but nothing is taken from the bus
  rw [hbus, Bus.mayPost]
  rcases quiet.line_eq_nil_or_full run with hnil | ⟨-, hfull⟩
  · simp [hnil]
  · simp [Nat.not_lt.mpr hfull]

theorem bus_closed (hw : Retiring s es cs t) : t.bus.closed = s.bus.closed := by
  obtain ⟨keeps, hbus, -⟩ := hw.bus
  rw [hbus]

theorem modifySession {f : Session → Session} (hw : Retiring s es cs t) (he : e ∈ es)
    (hf : ∀ x y, s.sessions[e]? = some x → EndedSession x y → EndedSession x (f y)) :
    Retiring s es cs (t.modifySession e f) :=
  { hw with
    length := by rw [length_modifySession, hw.length]
    spared := fun e' he' => by
      have hne : e ≠ e' := fun heq => he' (heq ▸ he)
      rw [getElem?_modifySession_of_ne hne, hw.spared e' he']
    ended := fun e' he' x z hx hz => by
      rw [getElem?_modifySession] at hz
      by_cases heq : e = e'
      · subst heq
        rw [if_pos rfl] at hz
        obtain ⟨y, hy, rfl⟩ := Option.map_eq_some_iff.mp hz
        exact hf x y hx (hw.ended e he x y hx hy)
      · rw [if_neg heq] at hz
        exact hw.ended e' he' x z hx hz }

theorem setStage {stage : Stage} (hw : Retiring s es cs t) (hc : s.calls[i]? = some c)
    (hstage : EndedCall es c stage) : Retiring s es cs (t.setStage i stage) :=
  { hw with
    calls := fun j b hb => by
      obtain ⟨d, hd, hpurpose, hend⟩ := hw.calls j b hb
      rw [getElem?_setStage, hd]
      by_cases hij : i = j
      · subst hij
        obtain rfl := Option.some.inj (hb.symm.trans hc)
        exact ⟨{ d with stage := stage }, by simp, hpurpose, hstage⟩
      · exact ⟨d, by rw [if_neg hij], hpurpose, hend⟩
    count := by rw [Relay.setStage, List.length_modify, hw.count]
    new := fun j => by
      obtain ⟨hlt, -⟩ := List.getElem?_eq_some_iff.mp hc
      rw [getElem?_setStage, if_neg (Nat.ne_of_lt (Nat.lt_add_right j hlt)), hw.new] }

theorem leaveBus (hw : Retiring s es cs t) (hgives : s.givesUp es (.reader e) = true) :
    Retiring s es cs { t with bus := t.bus.leave (.reader e) } :=
  { hw with
    bus := by
      obtain ⟨keeps, hbus, hkeeps⟩ := hw.bus
      refine ⟨fun ticket => decide (ticket ≠ .reader e) && keeps ticket, ?_, ?_⟩
      · rw [hbus]
        simp only [Bus.leave, List.filter_filter]
      · intro ticket hticket
        rw [Bool.and_eq_false_iff] at hticket
        rcases hticket with hself | hother
        · obtain rfl : ticket = .reader e := by simpa using hself
          exact hgives
        · exact hkeeps ticket hother }

/-- The reader of a session that was ended stops, or waits with its last message. -/
theorem reader_step (hw : Retiring s es cs t) (run : Run setup busCapacity h s)
    (quiet : s.Quiet setup) (hy : t.sessions[e]? = some y) (step : ReaderStep setup t e y u) :
    Retiring s es cs u := by
  have hpost := hw.mayPost_eq_false run quiet (.reader e)
  by_cases he : e ∈ es
  case neg =>
    rw [hw.spared e he] at hy
    exact absurd step ((quiet.restingReader hy).not_step hw.bus_closed hpost)
  obtain ⟨x, hx, hend⟩ := hw.exists_before he hy
  have hrests := quiet.restingReader hx
  -- a reader that still looks at the close signal has not moved since
  have moved {r : Reader} (hheeds : x.reader.heeds = true) (hr : r = .ending ∨ r = .finished) :
      Retiring s es cs (t.setReader e r) :=
    hw.modifySession he fun x' z hx' hz => by
      obtain rfl := Option.some.inj (hx'.symm.trans hx)
      exact hz.setReader hheeds hr
  have heeds {r : Reader} (hr : y.reader = r) (hheeds : r.heeds = true) :
      x.reader.heeds = true := by
    rcases hend.reader with hsame | ⟨hheeds, -⟩
    · rw [← hsame, hr, hheeds]
    · exact hheeds
  cases step with
  | stop hr => exact moved (heeds hr rfl) (.inl rfl)
  | abandon hr =>
    have hheeds := heeds hr rfl
    exact (moved hheeds (.inl rfl)).leaveBus (givesUp_iff.mpr ⟨e, he, rfl, x, hx, hheeds⟩)
  | quit hr =>
    rcases hend.reader with hsame | ⟨hheeds, -⟩
    · rw [← hsame, hr] at hrests
      cases hrests
    · exact moved hheeds (.inr rfl)
  | unregister _ hr => exact absurd hr (hw.registered?_ne he _)
  | shut hr =>
    rcases hend.reader with hsame | ⟨-, hstop | hstop⟩
    · rw [← hsame, hr] at hrests
      cases hrests
    · cases hr.symm.trans hstop
    · cases hr.symm.trans hstop
  | hush hr hc =>
    rcases hend.reader with hsame | ⟨-, hstop | hstop⟩
    · rw [← hsame, hr] at hrests
      cases hrests with
      | notifying hbus => simp [hw.bus_closed, hbus] at hc
    · cases hr.symm.trans hstop
    · cases hr.symm.trans hstop
  | read _ hc | overflow _ hc | reject _ hc | skip _ hc | offer _ hc | fetch _ hc | lose _ hc
  | fail _ hc | post _ hc =>
    exact absurd hend.closed (by simp [hc])
  | announce _ _ hmay => exact absurd hmay (by simp [hpost])

/-- The write of a call to a session that was ended is cut short. -/
theorem endedCall_afterBreak (run : Run setup busCapacity h s) (he : e ∈ es)
    (hc : s.calls[i]? = some c) (hwrites : c.stage.writesTo e = true) :
    EndedCall es c (c.purpose.afterBreak e .closed) := by
  have hv := visits_of_run run hc
  have hsends : (c.purpose.sends?.isSome || c.purpose.writesRaw) = true := by
    cases hst : c.stage with
    | waiting | writing =>
      rw [hst] at hv
      exact hv
    | _ => simp [hst, Stage.writesTo] at hwrites
  cases hp : c.purpose with
  | write e' frame =>
    have hcut : c.purpose.cutShort = .broken .closed := by rw [hp]; rfl
    have hdone := EndedCall.done he hwrites
    rw [hcut] at hdone
    exact hdone
  | forward | login | logout => exact .failing he hwrites (by rw [hp]; rfl)
  | _ =>
    rw [hp] at hsends
    cases hsends

/-- A call whose write was cut short ends with that, or ends the session first as it would have
anyway. -/
theorem endedCall_conclude (he : e ∈ es) (hwrites : c.stage.writesTo e = true)
    (hsends : c.purpose.sends?.isSome = true) :
    EndedCall es c (c.purpose.conclude (.failed (.socketIo c.purpose.id .closed))) := by
  have hcut : c.purpose.cutShort = .failed (.socketIo c.purpose.id .closed) :=
    c.purpose.cutShort_of_sends hsends
  rw [← hcut]
  have hconclude : c.purpose.conclude c.purpose.cutShort = .done c.purpose.cutShort
      ∨ c.purpose.conclude c.purpose.cutShort
        = .removing none c.purpose.cutShort c.purpose.cutShort := by
    cases c.purpose with
    | logout => exact .inr rfl
    | _ => exact .inl rfl
  rcases hconclude with hdone | hremoving
  · rw [hdone]
    exact .done he hwrites
  · rw [hremoving]
    exact .removing he hwrites hsends

/-- Under the id of a call whose write was cut short no session is left. -/
theorem registered?_eq_none (hw : Retiring s es cs t) (run : Run setup busCapacity h s)
    (he : e ∈ es) (hc : s.calls[i]? = some c) (hwrites : c.stage.writesTo e = true)
    (hsends : c.purpose.sends?.isSome = true) : t.registered? c.purpose.id = none := by
  have hcen := census_of_run run
  have hkeeps : c.stage.keeps e = true := by
    cases hst : c.stage with
    | waiting e' frame | writing e' frame =>
      obtain rfl : e' = e := by simpa [hst, Stage.writesTo] using hwrites
      simp [Stage.keeps]
    | _ => simp [hst, Stage.writesTo] at hwrites
  obtain ⟨message, hmessage⟩ := Option.isSome_iff_exists.mp hsends
  have howner := owner_of_run run hc (Purpose.session?_of_sends hmessage) hkeeps
  obtain ⟨x, hx, hid⟩ := owner?_eq_some_iff.mp howner
  have hbefore : s.registered? c.purpose.id = some e :=
    hid ▸ (hcen.registered?_iff hx).mpr (hw.lived e he)
  rw [Option.eq_none_iff_forall_ne_some]
  intro e' hr
  -- an entry that is left was there before, and an id has one entry
  have hmem := mem_registry_of_registered? hr
  rw [hw.registry, List.mem_filter] at hmem
  have hsame := (registered?_eq_some_iff hcen.ids).mpr hmem.1
  obtain rfl := Option.some.inj (hsame.symm.trans hbefore)
  exact hw.registered?_ne he _ hr

/-- A call whose write was cut short finds no session to end. -/
theorem teardown?_eq_none (hw : Retiring s es cs t) (run : Run setup busCapacity h s)
    (he : e ∈ es) (hc : s.calls[i]? = some c) (hwrites : c.stage.writesTo e = true)
    (hsends : c.purpose.sends?.isSome = true) {only : Option Epoch} :
    t.teardown? c.purpose.id only = none := by
  rw [teardown?, hw.registered?_eq_none run he hc hwrites hsends]

/-- A call that writes to a session that was ended, or waits to, finds the close signal fired. -/
theorem eq_of_stepCall (hw : Retiring s es cs t) (he : e ∈ es) (hwrites : c.stage.writesTo e = true)
    (hstep : t.stepCall setup i c = some u) :
    u = t.endWrite i e (c.purpose.afterBreak e .closed) := by
  rw [stepCall] at hstep
  cases hst : c.stage with
  | waiting e' frame =>
    obtain rfl : e' = e := by simpa [hst, Stage.writesTo] using hwrites
    rw [hst] at hstep
    dsimp only at hstep
    cases hy : t.sessions[e']? with
    | none =>
      rw [hy] at hstep
      cases hstep
    | some y =>
      obtain ⟨x, -, hend⟩ := hw.exists_before he hy
      simp only [hy, hend.closed, if_true] at hstep
      obtain ⟨-, heq⟩ := Option.ite_none_right_eq_some.mp hstep
      exact (Option.some.inj heq).symm
  | writing e' rest =>
    obtain rfl : e' = e := by simpa [hst, Stage.writesTo] using hwrites
    rw [hst] at hstep
    dsimp only [stepWrite] at hstep
    cases hy : t.sessions[e']? with
    | none =>
      rw [hy] at hstep
      cases hstep
    | some y =>
      obtain ⟨x, -, hend⟩ := hw.exists_before he hy
      simp only [hy, hend.closed, if_true] at hstep
      exact (Option.some.inj hstep).symm
  | _ => simp [hst, Stage.writesTo] at hwrites

/-- A call that has not moved since moves only if its write is cut short. -/
theorem call_step_of_still (hw : Retiring s es cs t) (run : Run setup busCapacity h s)
    (quiet : s.Quiet setup) (hc : s.calls[i]? = some c) (hstep : t.stepCall setup i c = some u) :
    Retiring s es cs u := by
  -- a call that uses none of the sessions is stuck as it was
  by_cases hspared : ∀ e, c.stage.writesTo e = true → e ∉ es
  · have hnone := quiet.stepCall_eq_none run hc hw.bus_closed
      (hw.mayPost_eq_false run quiet (.call i)) fun e hwrites => hw.spared e (hspared e hwrites)
    cases hnone.symm.trans hstep
  push Not at hspared
  obtain ⟨e, hwrites, he⟩ := hspared
  obtain rfl := hw.eq_of_stepCall he hwrites hstep
  exact (hw.modifySession he fun x y _ hy => hy.leave i).setStage hc
    (endedCall_afterBreak run he hc hwrites)

/-- A step of a call. -/
theorem call_step (hw : Retiring s es cs t) (run : Run setup busCapacity h s)
    (quiet : s.Quiet setup) (hd : t.calls[i]? = some d) (hstep : t.stepCall setup i d = some u) :
    Retiring s es cs u := by
  cases hc : s.calls[i]? with
  | none =>
    -- a call that has come since has ended
    obtain ⟨j, rfl⟩ := Nat.exists_eq_add_of_le (List.getElem?_eq_none_iff.mp hc)
    rw [hw.new] at hd
    obtain ⟨o, ho⟩ := hw.done d (List.mem_of_getElem? hd)
    rw [stepCall, ho] at hstep
    cases hstep
  | some c =>
    obtain ⟨d', hd', hpurpose, hend⟩ := hw.calls i c hc
    obtain rfl := Option.some.inj (hd'.symm.trans hd)
    obtain ⟨p, stage⟩ := d'
    dsimp only at hpurpose hend
    subst hpurpose
    cases hend with
    | still => exact hw.call_step_of_still run quiet hc hstep
    | @failing e he hwrites hsends =>
      rw [stepCall] at hstep
      dsimp only at hstep
      split at hstep
      · cases hstep
      · rw [hw.teardown?_eq_none run he hc hwrites hsends] at hstep
        cases hstep
        exact hw.setStage hc (endedCall_conclude he hwrites hsends)
    | removing he hwrites hsends =>
      rw [stepCall] at hstep
      dsimp only at hstep
      rw [hw.teardown?_eq_none run he hc hwrites hsends] at hstep
      cases hstep
      exact hw.setStage hc (.done he hwrites)
    | done =>
      rw [stepCall] at hstep
      cases hstep

theorem step (hw : Retiring s es cs t) (run : Run setup busCapacity h s)
    (quiet : s.Quiet setup) {a : Actor} (hstep : t.step? setup a = some u) :
    Retiring s es cs u := by
  cases a with
  | reader e =>
    obtain ⟨y, hy, hstep⟩ := Option.bind_eq_some_iff.mp hstep
    exact hw.reader_step run quiet hy (readerStep_of_stepReader (hw.numbered run) hy hstep)
  | call i =>
    obtain ⟨d, hd, hstep⟩ := Option.bind_eq_some_iff.mp hstep
    exact hw.call_step run quiet hd hstep

/-- The steps of the relay do not leave the way. -/
theorem path (hw : Retiring s es cs t) (run : Run setup busCapacity h s) (quiet : s.Quiet setup)
    (path : Path setup t k u) (hown : Own k) : Retiring s es cs u := by
  induction path with
  | nil => exact hw
  | snoc _ hm ih =>
    obtain ⟨a, rfl⟩ := hown _ (List.mem_append_right _ List.mem_cons_self)
    exact (ih fun τ hτ => hown τ (List.mem_append_left _ hτ)).step run quiet hm

/-! ### The start of the way -/

theorem refl (s : Relay) : Retiring s [] [] s where
  lived e he := by cases he
  registry := by simp
  length := rfl
  spared e _ := rfl
  ended e he := by cases he
  bus := ⟨fun _ => true, by simp, fun ticket hticket => by cases hticket⟩
  calls i c hc := ⟨c, hc, rfl, .still⟩
  count := rfl
  new i := by simp
  done c hc := by cases hc
  next := rfl

/-- More sessions may be ended on the way. -/
theorem endSessions (hw : Retiring s es cs t) (hlived : ∀ e ∈ es', e ∈ s.registeredPlaces ∧ e ∉ es)
    {o : Outcome} (hdone : c.stage = .done o) :
    Retiring s (es ++ es') (cs ++ [c]) (t.endSessions es' c) where
  lived e he := by
    rcases List.mem_append.mp he with he | he
    · exact hw.lived e he
    · exact (hlived e he).1
  registry := by
    change List.filter _ t.registry = _
    rw [hw.registry, List.filter_filter]
    refine List.filter_congr fun entry _ => ?_
    simp [Bool.and_comm]
  length := by rw [Relay.endSessions, List.length_mapIdx, hw.length]
  spared e he := by
    rw [List.mem_append, not_or] at he
    rw [Relay.endSessions, List.getElem?_mapIdx, hw.spared e he.1]
    simp [he.2]
  ended e he x y hx hy := by
    rw [Relay.endSessions, List.getElem?_mapIdx] at hy
    obtain ⟨z, hz, rfl⟩ := Option.map_eq_some_iff.mp hy
    by_cases he' : e ∈ es'
    · -- a session that is ended only now was spared so far
      have hsame := hw.spared e (hlived e he').2
      obtain rfl := Option.some.inj (hz.symm.trans (hsame.trans hx))
      simp only [List.contains_eq_mem, he', decide_true, if_true]
      exact .of_close z
    · simp only [List.contains_eq_mem, he', decide_false, Bool.false_eq_true, if_false]
      exact hw.ended e ((List.mem_append.mp he).resolve_right he') x z hx hz
  bus := by
    obtain ⟨keeps, hbus, hkeeps⟩ := hw.bus
    exact ⟨keeps, hbus, fun ticket hticket =>
      givesUp_mono (fun e he => List.mem_append_left es' he) (hkeeps ticket hticket)⟩
  calls i b hb := by
    obtain ⟨d, hd, hpurpose, hend⟩ := hw.calls i b hb
    obtain ⟨hlt, -⟩ := List.getElem?_eq_some_iff.mp hd
    refine ⟨d, ?_, hpurpose, hend.mono fun e he => List.mem_append_left es' he⟩
    rw [Relay.endSessions, List.getElem?_append_left hlt, hd]
  count := by
    rw [Relay.endSessions, List.length_append, List.length_append, hw.count, Nat.add_assoc]
  new i := by
    rw [Relay.endSessions, List.getElem?_append, List.getElem?_append, hw.count, hw.new]
    simp only [Nat.add_lt_add_iff_left, Nat.add_sub_add_left]
  done b hb := by
    rcases List.mem_append.mp hb with hb | hb
    · exact hw.done b hb
    · obtain rfl := List.mem_singleton.mp hb
      exact ⟨o, hdone⟩
  next := hw.next

/-! ### The end of the way -/

/-- When nobody can move, the readers that heed the close signal have finished. -/
theorem reader_of_quiet (hend : EndedSession x y) (quiet : t.Quiet setup)
    (hy : t.sessions[e]? = some y) :
    y.reader = if x.reader.heeds then .finished else x.reader := by
  have hrests := quiet.restingReader hy
  rcases hend.reader with hsame | ⟨hheeds, hr | hr⟩
  · rw [hsame] at hrests ⊢
    rw [eq_comm, ite_eq_right_iff]
    intro hheeds
    have hclosed := hend.closed
    cases hr : x.reader with
    | reading =>
      rw [hr] at hrests
      cases hrests with
      | reading hopen => exact absurd hclosed (by simp [hopen])
    | delivering =>
      rw [hr] at hrests
      cases hrests with
      | delivering hopen => exact absurd hclosed (by simp [hopen])
    | _ => simp [hr, Reader.heeds] at hheeds
  · rw [hr] at hrests
    cases hrests
  · rw [hr, if_pos hheeds]

theorem session_of_quiet (hend : EndedSession x y) (run : Run setup busCapacity h t)
    (quiet : t.Quiet setup) (hy : t.sessions[e]? = some y) : y = x.retired := by
  have hqueued := ((wired_of_run run e).2 y hy).1
  rw [hend.eq, reader_of_quiet hend quiet hy,
    quiet.writers_eq_nil hy hqueued (.inl hend.closed)]
  rfl

theorem sessions_of_quiet (hw : Retiring s es cs t) (run : Run setup busCapacity h t)
    (quiet : t.Quiet setup) : t.sessions = (s.retire es).sessions := by
  refine List.ext_getElem? fun e => ?_
  rw [retire, List.getElem?_mapIdx]
  by_cases he : e ∈ es
  · cases hy : t.sessions[e]? with
    | none =>
      rw [List.getElem?_eq_none_iff, hw.length] at hy
      rw [List.getElem?_eq_none_iff.mpr hy]
      rfl
    | some y =>
      obtain ⟨x, hx, hend⟩ := hw.exists_before he hy
      rw [session_of_quiet hend run quiet hy, hx]
      simp [he]
  · rw [hw.spared e he]
    simp [he]

theorem bus_of_quiet (hw : Retiring s es cs t) (run : Run setup busCapacity h t)
    (quiet : t.Quiet setup) : t.bus = (s.retire es).bus := by
  obtain ⟨keeps, hbus, hkeeps⟩ := hw.bus
  have hline : s.bus.line.filter keeps
      = s.bus.line.filter fun ticket => !s.givesUp es ticket := by
    refine List.filter_congr fun ticket hticket => ?_
    cases hgives : s.givesUp es ticket with
    | false =>
      cases hkeep : keeps ticket with
      | true => rfl
      | false => exact absurd (hkeeps ticket hkeep) (by simp [hgives])
    | true =>
      obtain ⟨e, he, rfl, x, hx, hheeds⟩ := givesUp_iff.mp hgives
      refine Bool.eq_false_iff.mpr fun hkeep => ?_
      -- who is still in line waits, but the reader has finished
      have hmem : Ticket.reader e ∈ t.bus.line := by
        rw [hbus]
        exact List.mem_filter.mpr ⟨hticket, hkeep⟩
      obtain ⟨y, hy, hwaits⟩ := ((line_of_run run).readers e).mp hmem
      rw [reader_of_quiet (hw.ended e he x y hx hy) quiet hy, if_pos hheeds] at hwaits
      cases hwaits
  rw [hbus, hline, retire]

/-- When nobody can move, nobody writes to a session that was ended. -/
theorem writesTo_of_quiet (hw : Retiring s es cs t) (run : Run setup busCapacity h s)
    (run' : Run setup busCapacity k t) (quiet : t.Quiet setup) (he : e ∈ es)
    (hd : t.calls[i]? = some d) : d.stage.writesTo e = false := by
  obtain ⟨⟨id, _⟩, hmem, rfl⟩ := List.mem_map.mp (hw.lived e he)
  obtain ⟨x, hx, -⟩ := (census_of_run run).owned id _ hmem
  obtain ⟨hlt, -⟩ := List.getElem?_eq_some_iff.mp hx
  obtain ⟨y, hy⟩ : ∃ y, t.sessions[_]? = some y :=
    ⟨_, List.getElem?_eq_getElem (hw.length ▸ hlt)⟩
  -- who heads the line of a session whose close signal has fired can move
  have hend := hw.ended _ he x y hx hy
  have hheads := quiet.heads_eq_false hy ((wired_of_run run' _).2 y hy).1 (.inl hend.closed)
    (stage?_eq_of_getElem? hd)
  refine Bool.eq_false_iff.mpr fun hwrites => ?_
  exact Bool.false_ne_true (hheads.symm.trans (Stage.heads_of_writesTo hwrites))

theorem call_of_quiet (hw : Retiring s es cs t) (run : Run setup busCapacity h s)
    (run' : Run setup busCapacity k t) (quiet : t.Quiet setup) (hc : s.calls[i]? = some c) :
    t.calls[i]? = some (if es.any fun e => c.stage.writesTo e then
      { c with stage := .done c.purpose.cutShort } else c) := by
  obtain ⟨⟨p, stage⟩, hd, rfl, hend⟩ := hw.calls i c hc
  have hrests := quiet.rests run' hd
  rw [hd, Option.some.injEq]
  dsimp only at hend hrests
  cases hend with
  | still =>
    have hnone : (es.any fun e => c.stage.writesTo e) = false :=
      List.any_eq_false.mpr fun e he => by simp [hw.writesTo_of_quiet run run' quiet he hd]
    rw [hnone]
    rfl
  | done he hwrites => rw [if_pos (List.any_eq_true.mpr ⟨_, he, hwrites⟩)]
  | failing | removing => cases hrests

theorem calls_of_quiet (hw : Retiring s es cs t) (run : Run setup busCapacity h s)
    (run' : Run setup busCapacity k t) (quiet : t.Quiet setup) :
    t.calls = (s.retire es).calls ++ cs := by
  refine List.ext_getElem? fun i => ?_
  have hlength : (s.retire es).calls.length = s.calls.length := List.length_map _
  cases hc : s.calls[i]? with
  | some c =>
    obtain ⟨hlt, -⟩ := List.getElem?_eq_some_iff.mp hc
    rw [List.getElem?_append_left (hlength ▸ hlt), retire, List.getElem?_map, hc,
      hw.call_of_quiet run run' quiet hc]
    rfl
  | none =>
    obtain ⟨j, rfl⟩ := Nat.exists_eq_add_of_le (List.getElem?_eq_none_iff.mp hc)
    rw [hw.new, List.getElem?_append_right (by omega), hlength, Nat.add_sub_cancel_left]

/-- Where nobody can move, the end of the way has been reached. -/
theorem eq_of_quiet (hw : Retiring s es cs t) (run : Run setup busCapacity h s)
    (run' : Run setup busCapacity k t) (quiet : t.Quiet setup) :
    t = (s.retire es).withCalls cs := by
  have hsessions := hw.sessions_of_quiet run' quiet
  have hregistry : t.registry = (s.retire es).registry := hw.registry
  have hbus := hw.bus_of_quiet run' quiet
  have hcalls := hw.calls_of_quiet run run' quiet
  have hnext : t.nextEpoch = (s.retire es).nextEpoch := hw.next
  obtain ⟨sessions, registry, bus, calls, nextEpoch⟩ := t
  dsimp only at hsessions hregistry hbus hcalls hnext
  rw [hsessions, hregistry, hbus, hcalls, hnext, withCalls]

end Retiring

end Relay

end StompRelay
