import StompRelay.Proofs.Delivery.Bus
import StompRelay.Proofs.Reading.Exit
/-!
# What a reader has posted

At every moment, what the reader of a session has put on the bus is what it has read from the
stream so far, and a notice after the end at most.

## Main definitions

* `Relay.Exhausted` — a stream of which nothing more is read
* `Relay.Stopped`, `Relay.Progress` — where a reader is with its stream, and what it has posted

## Main results

* `Relay.Progress.step` — every step takes a reader from one such place to another
* `Relay.progress_of_run` — in every run, every reader is at such a place
-/

namespace StompRelay.Relay

variable {setup : Setup} {busCapacity limit : Nat} {s t : Relay} {h : History} {m : Move}
  {e : Place} {x y : Session} {ms : List Message} {text : String} {msg : Message}
  {chunk : Bytes} {frame : Assembly}

/-- The stream of a session has these messages and is not read any more, for the reason in the
text. -/
def Exhausted (limit : Nat) (x : Session) (ms : List Message) (text : String) : Prop :=
  scan limit x.id (.empty limit) x.toRelay.sent = (ms, .stopped text)
    ∨ x.inputEnded = true ∧ text = lostConnection
      ∧ ∃ frame, scan limit x.id (.empty limit) x.toRelay.sent = (ms, .going frame)

/-- What a reader that has stopped has posted: what it had read when it was cut short, or all of
the stream, and then the notice, unless nobody received it any more. -/
inductive Stopped (limit : Nat) (h : History) (s : Relay) (e : Place) (x : Session) : Prop where
  | cut {exit : Exit} : exits e h = [exit] → exit.text? limit x.id = none →
    postedBy (.reader e) h <+: (scan limit x.id (.empty limit) x.toRelay.sent).1 →
    Stopped limit h s e x
  | hushed {exit : Exit} {text : String} : exits e h = [exit] →
    exit.text? limit x.id = some text → Exhausted limit x (postedBy (.reader e) h) text →
    s.bus.closed = true → Stopped limit h s e x
  | told {exit : Exit} {text : String} {ms : List Message} : exits e h = [exit] →
    exit.text? limit x.id = some text → Exhausted limit x ms text →
    postedBy (.reader e) h = ms ++ [.notice x.id text] → Stopped limit h s e x

/-- Where the reader of session `e`, which is `x`, is with its stream. -/
inductive Progress (limit : Nat) (h : History) (s : Relay) (e : Place) (x : Session) : Prop where
  | idle : (x.reader = .unstarted ∨ x.reader = .absent ∨ x.reader = .finished) → ¬Started e h →
    x.toRelay.taken = [] → postedBy (.reader e) h = [] → exits e h = [] → Progress limit h s e x
  | reading {chunk bs : Bytes} {frame : Assembly} : x.reader = .reading chunk frame →
    x.toRelay.taken.reverse = bs ++ chunk →
    scan limit x.id (.empty limit) bs = (postedBy (.reader e) h, .going frame) →
    exits e h = [] → Progress limit h s e x
  | delivering {m : Message} {chunk bs : Bytes} : x.reader = .delivering m chunk →
    x.toRelay.taken.reverse = bs ++ chunk →
    scan limit x.id (.empty limit) bs
      = (postedBy (.reader e) h ++ [m], .going (.empty limit)) →
    exits e h = [] → Progress limit h s e x
  | notifying {exit : Exit} {text : String} : x.reader = .notifying (.notice x.id text) →
    exits e h = [exit] → exit.text? limit x.id = some text →
    Exhausted limit x (postedBy (.reader e) h) text → Progress limit h s e x
  | stopped : (x.reader = .ending ∨ x.reader = .shutting ∨ x.reader = .finished) →
    Stopped limit h s e x → Progress limit h s e x

/-! ### Reading back where a reader is -/

namespace Progress

theorem of_reading (hp : Progress limit h s e x) (hr : x.reader = .reading chunk frame) :
    exits e h = [] ∧ ∃ bs, x.toRelay.taken.reverse = bs ++ chunk
      ∧ scan limit x.id (.empty limit) bs = (postedBy (.reader e) h, .going frame) := by
  cases hp with
  | reading hr' htaken hscan hexits =>
    rw [hr] at hr'
    cases hr'
    exact ⟨hexits, _, htaken, hscan⟩
  | idle hr' => simp [hr] at hr'
  | delivering hr' | notifying hr' => simp [hr] at hr'
  | stopped hr' => simp [hr] at hr'

theorem of_delivering (hp : Progress limit h s e x) (hr : x.reader = .delivering msg chunk) :
    exits e h = [] ∧ ∃ bs, x.toRelay.taken.reverse = bs ++ chunk
      ∧ scan limit x.id (.empty limit) bs
        = (postedBy (.reader e) h ++ [msg], .going (.empty limit)) := by
  cases hp with
  | delivering hr' htaken hscan hexits =>
    rw [hr] at hr'
    cases hr'
    exact ⟨hexits, _, htaken, hscan⟩
  | idle hr' => simp [hr] at hr'
  | reading hr' | notifying hr' => simp [hr] at hr'
  | stopped hr' => simp [hr] at hr'

theorem of_notifying (hp : Progress limit h s e x) (hr : x.reader = .notifying msg) :
    ∃ exit text, msg = .notice x.id text ∧ exits e h = [exit]
      ∧ exit.text? limit x.id = some text ∧ Exhausted limit x (postedBy (.reader e) h) text := by
  cases hp with
  | notifying hr' hexits htext hex =>
    rw [hr] at hr'
    cases hr'
    exact ⟨_, _, rfl, hexits, htext, hex⟩
  | idle hr' => simp [hr] at hr'
  | reading hr' | delivering hr' => simp [hr] at hr'
  | stopped hr' => simp [hr] at hr'

theorem of_stopped (hp : Progress limit h s e x)
    (hr : x.reader = .ending ∨ x.reader = .shutting) : Stopped limit h s e x := by
  cases hp with
  | stopped _ hs => exact hs
  | idle hr' => rcases hr with hr | hr <;> simp [hr] at hr'
  | reading hr' | delivering hr' | notifying hr' => rcases hr with hr | hr <;> simp [hr] at hr'

end Progress

/-! ### Steps of others -/

/-- A stream that is not read any more stays so. -/
theorem Exhausted.same (hex : Exhausted limit x ms text)
    (same : x.SameInput y) : Exhausted limit y ms text := by
  obtain ⟨bs, hsent, hbs⟩ := same.sent
  rcases hex with hstop | ⟨hended, rfl, frame, hgo⟩
  · refine .inl ?_
    rw [same.id, hsent]
    exact scan_append_of_stopped hstop
  · -- after the end of the stream nothing more is sent
    have hnil : bs = [] := by
      by_contra hne
      exact Bool.false_ne_true ((hbs hne).symm.trans hended)
    refine .inr ⟨same.ended hended, rfl, frame, ?_⟩
    rw [same.id, hsent, hnil, List.append_nil]
    exact hgo

/-- What was a part of the messages of a stream stays one. -/
theorem scan_prefix_same (hpre : ms <+: (scan limit x.id (.empty limit) x.toRelay.sent).1)
    (same : x.SameInput y) : ms <+: (scan limit y.id (.empty limit) y.toRelay.sent).1 := by
  obtain ⟨bs, hsent, -⟩ := same.sent
  rw [same.id, hsent]
  exact hpre.trans (scan_prefix_append rfl bs)

/-- A reader that has stopped keeps what it has posted while others move. -/
theorem Stopped.same (hs : Stopped limit h s e x) (same : x.SameInput y)
    (hbus : s.bus.closed = true → t.bus.closed = true) {k : History}
    (hposted : postedBy (.reader e) k = postedBy (.reader e) h) (hexits : exits e k = exits e h) :
    Stopped limit k t e y := by
  cases hs with
  | cut hexits' htext hpre =>
    refine .cut (hexits.trans hexits') (same.id ▸ htext) ?_
    rw [hposted]
    exact scan_prefix_same hpre same
  | hushed hexits' htext hex hclosed =>
    refine .hushed (hexits.trans hexits') (same.id ▸ htext) ?_ (hbus hclosed)
    rw [hposted]
    exact hex.same same
  | told hexits' htext hex hposted' =>
    refine .told (hexits.trans hexits') (same.id ▸ htext) (hex.same same) ?_
    rw [hposted, hposted', same.id]

/-- A reader stays where it is while others move. -/
theorem Progress.rest (hp : Progress limit h s e x) (hm : m ≠ .act (.reader e))
    (hy : t.sessions[e]? = some y) (same : x.SameInput y)
    (hbus : s.bus.closed = true → t.bus.closed = true) :
    Progress limit (h ++ [⟨s, m, t⟩]) t e y := by
  have hposted : postedBy (.reader e) (h ++ [⟨s, m, t⟩]) = postedBy (.reader e) h :=
    postedBy_snoc_of_ne hm
  have hexits : exits e (h ++ [⟨s, m, t⟩]) = exits e h := exits_snoc_of_ne hm
  cases hp with
  | idle hr hstarted htaken hnone hnone' =>
    rw [← same.reader] at hr
    refine .idle hr ?_ (same.taken.trans htaken) (hposted.trans hnone) (hexits.trans hnone')
    rw [started_snoc]
    rintro (hs | ⟨z, hz, hreads⟩)
    · exact hstarted hs
    · rw [hy, Option.some.injEq] at hz
      subst hz
      rcases hr with hr | hr | hr <;> simp [hr, Reader.reads] at hreads
  | reading hr htaken hscan hnone =>
    refine .reading (same.reader.trans hr) (by rw [same.taken, htaken]) ?_ (hexits.trans hnone)
    rw [same.id, hposted]
    exact hscan
  | delivering hr htaken hscan hnone =>
    refine .delivering (same.reader.trans hr) (by rw [same.taken, htaken]) ?_ (hexits.trans hnone)
    rw [same.id, hposted]
    exact hscan
  | notifying hr hexits' htext hex =>
    refine .notifying (same.reader.trans (same.id ▸ hr)) (hexits.trans hexits')
      (same.id ▸ htext) ?_
    rw [hposted]
    exact hex.same same
  | stopped hr hs =>
    rw [← same.reader] at hr
    exact .stopped hr (hs.same same hbus hposted hexits)

/-! ### The reader's own steps -/

section Own

variable (hx : s.sessions[e]? = some x)
include hx

/-- Before a reader stops in a step it has not stopped. -/
theorem exits_own {exit : Exit} (hnone : exits e h = []) (hexit : x.exit? s.bus = some exit) :
    exits e (h ++ [⟨s, .act (.reader e), t⟩]) = [exit] := by
  rw [exits_snoc_own hx, hnone, hexit]
  rfl

theorem exits_own_none (hexit : x.exit? s.bus = none) :
    exits e (h ++ [⟨s, .act (.reader e), t⟩]) = exits e h := by
  rw [exits_snoc_own hx, hexit]
  simp

omit hx in
theorem posted_own_none (hbus : t.bus.posted = s.bus.posted) :
    postedBy (.reader e) (h ++ [⟨s, .act (.reader e), t⟩]) = postedBy (.reader e) h := by
  have hbus' : t.bus.posted = s.bus.posted ++ [] := by rw [hbus, List.append_nil]
  rw [postedBy_snoc hbus', List.append_nil]

/-- A reader that reads on has put nothing on the bus. -/
theorem Progress.reading_own {bs : Bytes}
    (hr : y.reader = .reading chunk frame) (htaken : y.toRelay.taken.reverse = bs ++ chunk)
    (hscan : scan limit y.id (.empty limit) bs = (postedBy (.reader e) h, .going frame))
    (hnone : exits e h = []) (hexit : x.exit? s.bus = none)
    (hbus : t.bus.posted = s.bus.posted) :
    Progress limit (h ++ [⟨s, .act (.reader e), t⟩]) t e y := by
  refine .reading hr htaken ?_ ((exits_own_none hx hexit).trans hnone)
  rw [posted_own_none hbus]
  exact hscan

/-- A reader that is cut short has put a part of what it has read on the bus. -/
theorem Stopped.cut_own {exit : Exit} (hnone : exits e h = [])
    (hexit : x.exit? s.bus = some exit) (htext : exit.text? limit y.id = none)
    (hbus : t.bus.posted = s.bus.posted)
    (hpre : postedBy (.reader e) h <+: (scan limit y.id (.empty limit) y.toRelay.sent).1) :
    Stopped limit (h ++ [⟨s, .act (.reader e), t⟩]) t e y := by
  refine .cut (exits_own hx hnone hexit) htext ?_
  rw [posted_own_none hbus]
  exact hpre

/-- A reader that has come to the end of its stream has put all of it on the bus. -/
theorem Progress.notifying_own {exit : Exit} (hr : y.reader = .notifying (.notice y.id text))
    (hnone : exits e h = []) (hexit : x.exit? s.bus = some exit)
    (htext : exit.text? limit y.id = some text) (hbus : t.bus.posted = s.bus.posted)
    (hex : Exhausted limit y (postedBy (.reader e) h) text) :
    Progress limit (h ++ [⟨s, .act (.reader e), t⟩]) t e y := by
  refine .notifying hr (exits_own hx hnone hexit) htext ?_
  rw [posted_own_none hbus]
  exact hex

/-- A reader that has stopped puts nothing more on the bus. -/
theorem Stopped.own (hs : Stopped limit h s e x) (hid : y.id = x.id)
    (hsent : y.toRelay = x.toRelay) (hended : y.inputEnded = x.inputEnded)
    (hexit : x.exit? s.bus = none) (hbus : t.bus = s.bus) :
    Stopped limit (h ++ [⟨s, .act (.reader e), t⟩]) t e y := by
  have hposted := posted_own_none (e := e) (h := h) (congrArg Bus.posted hbus)
  have hexits := exits_own_none (h := h) (t := t) hx hexit
  cases hs with
  | cut hexits' htext hpre =>
    refine .cut (hexits.trans hexits') (hid ▸ htext) ?_
    rw [hposted, hid, hsent]
    exact hpre
  | hushed hexits' htext hex hclosed =>
    refine .hushed (hexits.trans hexits') (hid ▸ htext) ?_ (hbus ▸ hclosed)
    rw [Exhausted, hposted, hid, hsent, hended]
    exact hex
  | @told exit text ms hexits' htext hex hposted' =>
    have hex' : Exhausted limit y ms text := by
      rw [Exhausted, hid, hsent, hended]
      exact hex
    exact .told (hexits.trans hexits') (hid ▸ htext) hex' (by rw [hposted, hposted', hid])

/-- A step of a reader takes it from one place to another. -/
theorem Progress.own (hp : Progress setup.maxFrameBytes h s e x)
    (step : ReaderStep setup s e x t) (hy : t.sessions[e]? = some y) :
    Progress setup.maxFrameBytes (h ++ [⟨s, .act (.reader e), t⟩]) t e y := by
  -- what was read is the start of what was sent; so is what was read with the next byte
  have sent_eq {bs chunk : Bytes} (htaken : x.toRelay.taken.reverse = bs ++ chunk) :
      x.toRelay.sent = bs ++ (chunk ++ x.toRelay.waiting) := by
    rw [Pipe.sent, htaken, List.append_assoc]
  have stopped_at {bs chunk : Bytes} {b : UInt8}
      (htaken : x.toRelay.taken.reverse = bs ++ b :: chunk) :
      x.toRelay.sent = bs ++ [b] ++ (chunk ++ x.toRelay.waiting) := by
    rw [sent_eq htaken]
    simp
  -- a reader that finds nothing more to fetch has read all of the stream
  have ended {frame : Assembly} (hr : x.reader = .reading [] frame)
      (hwaiting : x.toRelay.waiting = []) (hended : x.inputEnded = true) :
      Exhausted setup.maxFrameBytes x (postedBy (.reader e) h) lostConnection := by
    obtain ⟨-, bs, htaken, hscan⟩ := hp.of_reading hr
    refine .inr ⟨hended, rfl, frame, ?_⟩
    rw [sent_eq htaken, hwaiting]
    simpa using hscan
  cases step with
  | stop hr hclosed =>
    obtain rfl := eq_of_modifySession hx hy
    obtain ⟨hnone, bs, htaken, hscan⟩ := hp.of_reading hr
    have hexit : x.exit? s.bus = some .closed := by simp [Session.exit?, hr, hclosed]
    refine .stopped (.inl rfl) (.cut_own hx hnone hexit rfl rfl ?_)
    exact sent_eq htaken ▸ scan_prefix_append hscan _
  | @read b chunk frame frame' hr hopen hfeed =>
    obtain rfl := eq_of_modifySession hx hy
    obtain ⟨hnone, bs, htaken, hscan⟩ := hp.of_reading hr
    have htaken' : x.toRelay.taken.reverse = (bs ++ [b]) ++ chunk := by simpa using htaken
    refine .reading_own hx rfl htaken' (scan_more hscan hfeed) hnone ?_ rfl
    simp [Session.exit?, hr, hopen, hfeed]
  | @overflow b chunk frame hr hopen hfeed =>
    obtain rfl := eq_of_modifySession hx hy
    obtain ⟨hnone, bs, htaken, hscan⟩ := hp.of_reading hr
    have hexit : x.exit? s.bus = some .tooLarge := by simp [Session.exit?, hr, hopen, hfeed]
    refine .notifying_own hx rfl hnone hexit rfl rfl (.inl ?_)
    rw [stopped_at htaken]
    exact scan_append_of_stopped (scan_tooLarge hscan hfeed)
  | @reject b chunk content frame f hr hopen hfeed hdecode =>
    obtain rfl := eq_of_modifySession hx hy
    obtain ⟨hnone, bs, htaken, hscan⟩ := hp.of_reading hr
    have hexit : x.exit? s.bus = some (.malformed f) := by
      simp [Session.exit?, hr, hopen, hfeed, hdecode]
    have htext : (Exit.malformed f).text? setup.maxFrameBytes x.id
        = some (malformedFrame x.id f) := congrArg some (malformedFrame_eq x.id f).symm
    refine .notifying_own hx rfl hnone hexit htext rfl (.inl ?_)
    rw [stopped_at htaken]
    exact scan_append_of_stopped (scan_malformed hscan hfeed hdecode)
  | @skip b chunk content frame hr hopen hfeed hdecode =>
    obtain rfl := eq_of_modifySession hx hy
    obtain ⟨hnone, bs, htaken, hscan⟩ := hp.of_reading hr
    have htaken' : x.toRelay.taken.reverse = (bs ++ [b]) ++ chunk := by simpa using htaken
    refine .reading_own hx rfl htaken' (scan_blank hscan hfeed hdecode) hnone ?_ rfl
    simp [Session.exit?, hr, hopen, hfeed, hdecode]
  | @offer b chunk content frame m hr hopen hfeed hdecode =>
    obtain rfl := eq_of_modifySession hx hy
    obtain ⟨hnone, bs, htaken, hscan⟩ := hp.of_reading hr
    have hexit : x.exit? s.bus = none := by
      simp [Session.exit?, hr, hopen, hfeed, hdecode]
    have htaken' : x.toRelay.taken.reverse = (bs ++ [b]) ++ chunk := by simpa using htaken
    refine .delivering rfl htaken' ?_ ((exits_own_none hx hexit).trans hnone)
    rw [posted_own_none (s := s) (t := s.joinBus e _) rfl]
    exact scan_message hscan hfeed hdecode
  | @fetch frame hr hopen hwaiting =>
    obtain rfl := eq_of_modifySession hx hy
    obtain ⟨hnone, bs, htaken, hscan⟩ := hp.of_reading hr
    have htaken' : (x.toRelay.take Session.bufferSize).2.taken.reverse
        = bs ++ (x.toRelay.take Session.bufferSize).1 := by
      rw [List.append_nil] at htaken
      simp [Pipe.take, htaken]
    refine .reading_own hx rfl htaken' hscan hnone ?_ rfl
    simp [Session.exit?, hr, hopen, hwaiting]
  | @lose frame hr hopen hwaiting hwell hgone =>
    obtain rfl := eq_of_modifySession hx hy
    have hexit : x.exit? s.bus = some .peerClosed := by
      simp [Session.exit?, hr, hopen, hwaiting, hwell, hgone]
    exact .notifying_own hx rfl (hp.of_reading hr).1 hexit rfl rfl
      (ended hr hwaiting (by simp [Session.inputEnded, hgone]))
  | @fail frame hr hopen hwaiting hfailed =>
    obtain rfl := eq_of_modifySession hx hy
    have hexit : x.exit? s.bus = some .failed := by
      simp [Session.exit?, hr, hopen, hwaiting, hfailed]
    exact .notifying_own hx rfl (hp.of_reading hr).1 hexit rfl rfl
      (ended hr hwaiting (by simp [Session.inputEnded, hfailed]))
  | @abandon m chunk hr hcut =>
    obtain rfl := eq_of_modifySession hx hy
    obtain ⟨hnone, bs, htaken, hscan⟩ := hp.of_delivering hr
    -- the message was read last, so what was posted before it is a part of the stream
    obtain ⟨exit, hexit, htext⟩ : ∃ exit, x.exit? s.bus = some exit
        ∧ exit.text? setup.maxFrameBytes x.id = none := by
      cases hclosed : x.closed with
      | true => exact ⟨.closed, by simp [Session.exit?, hr, hclosed], rfl⟩
      | false =>
        have hbus : s.bus.closed = true := by simpa [hclosed] using hcut
        exact ⟨.busClosed, by simp [Session.exit?, hr, hclosed, hbus], rfl⟩
    refine .stopped (.inl rfl) (.cut_own hx hnone hexit htext rfl ?_)
    exact sent_eq htaken ▸ (List.prefix_append _ _).trans (scan_prefix_append hscan _)
  | @post m chunk hr hopen hbus =>
    obtain rfl := eq_of_modifySession hx hy
    obtain ⟨hnone, bs, htaken, hscan⟩ := hp.of_delivering hr
    have hexit : x.exit? s.bus = none := by simp [Session.exit?, hr, hopen, hbus]
    refine .reading rfl htaken ?_ ((exits_own_none hx hexit).trans hnone)
    rw [postedBy_snoc (Bus.posted_post _ _ _)]
    exact hscan
  | @hush m hr hbus =>
    obtain rfl := eq_of_modifySession hx hy
    obtain ⟨exit, text, rfl, hexits, htext, hex⟩ := hp.of_notifying hr
    have hexit : x.exit? s.bus = none := by simp [Session.exit?, hr]
    refine .stopped (.inl rfl) (.hushed ((exits_own_none hx hexit).trans hexits) htext ?_ hbus)
    rw [posted_own_none (s := s) (t := s.leaveBus e _) rfl]
    exact hex
  | @announce m hr hbus =>
    obtain rfl := eq_of_modifySession hx hy
    obtain ⟨exit, text, rfl, hexits, htext, hex⟩ := hp.of_notifying hr
    have hexit : x.exit? s.bus = none := by simp [Session.exit?, hr]
    refine .stopped (.inl rfl) (.told ((exits_own_none hx hexit).trans hexits) htext hex ?_)
    rw [postedBy_snoc (Bus.posted_post _ _ _)]
  | unregister hr =>
    obtain rfl := eq_of_unregister hx hy
    exact .stopped (.inr (.inl rfl))
      ((hp.of_stopped (.inl hr)).own hx rfl rfl rfl (by simp [Session.exit?, hr]) rfl)
  | quit hr =>
    obtain rfl := eq_of_modifySession hx hy
    exact .stopped (.inr (.inr rfl))
      ((hp.of_stopped (.inl hr)).own hx rfl rfl rfl (by simp [Session.exit?, hr]) rfl)
  | shut hr =>
    obtain rfl := eq_of_modifySession hx hy
    have same : x.SameInput x.close := .close x
    exact .stopped (.inr (.inr rfl)) ((hp.of_stopped (.inr hr)).own hx same.id
      (Session.toRelay_close x) (Session.inputEnded_close x) (by simp [Session.exit?, hr]) rfl)

end Own

/-! ### Runs -/

/-- A session that waits for its reader has had nothing read from it. -/
theorem Progress.of_unstarted (hp : Progress limit h s e x) (hr : x.reader = .unstarted) :
    ¬Started e h ∧ x.toRelay.taken = [] ∧ postedBy (.reader e) h = [] ∧ exits e h = [] := by
  cases hp with
  | idle _ hstarted htaken hposted hexits => exact ⟨hstarted, htaken, hposted, hexits⟩
  | reading hr' | delivering hr' | notifying hr' => simp [hr] at hr'
  | stopped hr' => simp [hr] at hr'

/-- Every step takes a reader from one place to another. -/
theorem Progress.step (hp : Progress setup.maxFrameBytes h s e x) (ho : s.Opening)
    (hx : s.sessions[e]? = some x) (hy : t.sessions[e]? = some y) (step : MoveStep setup s m t)
    (input : InputStep setup e s t x y m) :
    Progress setup.maxFrameBytes (h ++ [⟨s, m, t⟩]) t e y := by
  -- a reader that is never started has read nothing and never will
  have idle {i : CallId} (hr : x.reader = .unstarted)
      (hy' : y.reader = .absent ∨ y.reader = .finished)
      (htaken : y.toRelay.taken = x.toRelay.taken) :
      Progress setup.maxFrameBytes (h ++ [⟨s, .act (.call i), t⟩]) t e y := by
    obtain ⟨hstarted, htaken', hposted, hexits⟩ := hp.of_unstarted hr
    refine .idle (.inr hy') ?_ (htaken.trans htaken')
      ((postedBy_snoc_of_ne (by simp)).trans hposted)
      ((exits_snoc_of_ne (by simp)).trans hexits)
    rw [started_snoc]
    rintro (hs | ⟨z, hz, hreads⟩)
    · exact hstarted hs
    · rw [hy, Option.some.injEq] at hz
      subst hz
      rcases hy' with hy' | hy' <;> simp [hy', Reader.reads] at hreads
  cases input with
  | rest hm same => exact hp.rest hm hy same step.busStep.closed
  | own own => exact hp.own hx own hy
  | drop hc hst _ hy' =>
    exact idle (ho.eq_unstarted hx hc (by simp [hst, Stage.opens])) (by simp [hy']) (by rw [hy'])
  | @start i c reader held hc hst _ hreader hy' =>
    have hr : x.reader = .unstarted :=
      ho.eq_unstarted hx hc (by simp [hst, Stage.opens])
    rcases hreader with rfl | rfl
    · exact idle hr (by simp [hy']) (by rw [hy'])
    · obtain ⟨-, htaken, hposted, hexits⟩ := hp.of_unstarted hr
      have hposted' : postedBy (.reader e) (h ++ [⟨s, .act (.call i), t⟩]) = [] :=
        (postedBy_snoc_of_ne (by simp)).trans hposted
      have htaken' : y.toRelay.taken.reverse = [] ++ [] := by simp [hy', htaken]
      refine .reading (by rw [hy']) htaken' ?_ ((exits_snoc_of_ne (by simp)).trans hexits)
      rw [hposted']
      rfl

/-- To a session that is not there nothing has happened. -/
structure Untouched (h : History) (e : Place) : Prop where
  posted : postedBy (.reader e) h = []
  exits : exits e h = []
  started : ¬Started e h

theorem Untouched.step (hu : Untouched h e) (hs : s.sessions[e]? = none)
    (ht : ∀ y : Session, t.sessions[e]? = some y → y.reader.reads = false)
    (step : MoveStep setup s m t) : Untouched (h ++ [⟨s, m, t⟩]) e := by
  have hm : m ≠ .act (.reader e) := step.ne_reader hs
  refine ⟨(postedBy_snoc_of_ne hm).trans hu.posted, (exits_snoc_of_ne hm).trans hu.exits, ?_⟩
  rw [started_snoc]
  rintro (hstarted | ⟨y, hy, hr⟩)
  · exact hu.started hstarted
  · exact Bool.false_ne_true ((ht y hy).symm.trans hr)

/-- In every run, every reader is at one of these places. -/
theorem progress_of_run (run : Run setup busCapacity h s) (e : Place) :
    (s.sessions[e]? = none → Untouched h e)
      ∧ ∀ x, s.sessions[e]? = some x → Progress setup.maxFrameBytes h s e x := by
  refine session_of_run (Q := fun h => Untouched h e)
    (P := fun h s x => Progress setup.maxFrameBytes h s e x) ⟨rfl, rfl, Bool.false_ne_true⟩
    ?_ ?_ run
  · intro h s t m run step hx hu
    have hnew : ∀ y : Session, t.sessions[e]? = some y → y.reader = .unstarted := by
      intro y hy
      obtain ⟨id, capacity, rfl⟩ := step.session_new hx hy
      rfl
    have hu' := hu.step hx (fun y hy => by rw [hnew y hy]; rfl) step
    refine ⟨hu', ?_⟩
    intro y hy
    obtain ⟨id, capacity, rfl⟩ := step.session_new hx hy
    exact .idle (.inl rfl) hu'.started rfl hu'.posted hu'.exits
  · intro h s t m x run step hx hp
    obtain ⟨y, hy, input⟩ := step.inputStep hx
    exact ⟨y, hy, hp.step (opening_of_run run) hx hy step input⟩

end StompRelay.Relay
