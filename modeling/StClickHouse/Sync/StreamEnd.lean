/-
  StClickHouse.Sync.StreamEnd
  **HOW A CALL OF A STREAMED RESPONSE STOPS.**

  A fill that finds the connection closed, and one that times out, set `done` and report
  nothing; the loop of `read_next_block` does not look at `done`.  So a call stops where a
  packet makes it stop or a read fails, and nowhere else, and what cannot be parsed is waited
  for whether it can still become a packet or not.

  Main results:
    * `call_meets_iff`         — the calls that return, report what is malformed and do not fake
                                 the end are those that are delivered to (`Delivers`)
    * `endless_and_cut_short`  — calls that never return, and a stream that is cut short
-/
import StClickHouse.Sync.Segments

namespace StClickHouse

open ByteReader RustText List

namespace Sync

namespace QueryStream

variable {q q' q₁ : QueryStream} {p : Packet} {rest : Bytes}

/-! ## §1. Fills. -/

/-- The stream over what is left of the socket. -/
def onto (q : QueryStream) (t : Transport) : QueryStream :=
  { q with bytes := { q.bytes with transport := t } }

/-- The stream with more bytes in its buffer. -/
def filled (q : QueryStream) (got : Bytes) (t : Transport) : QueryStream :=
  (q.onto t).moved (q.bytes.rest ++ got)

/-- The stream with `done` set. -/
def ended (q : QueryStream) : QueryStream := { q with done := true }

/-- What a fill finds on the socket. -/
def pulled (q : QueryStream) : Pull × Transport := pull q.bytes.cfg q.bytes.transport

/-- A read that has timed out, or the end of the stream before the length of a chunk. -/
def IsLate (q : QueryStream) (found : Pull) : Prop :=
  found = .failed (.error (.io .timedOut)) ∨
    q.bytes.cfg.chunkedRecv = true ∧ found = .failed (.error (.io .unexpectedEof))

/-- **What a fill does.** -/
inductive Fills (q : QueryStream) : Readout Unit × QueryStream → Prop
  | bytes {got : Bytes} {t : Transport} : q.pulled = (.bytes got, t) →
      Fills q (.ok (), q.filled got t)
  | closed {t : Transport} : q.pulled = (.closed, t) → Fills q (.ok (), (q.onto t).ended)
  | late {found : Pull} {t : Transport} : q.pulled = (found, t) → q.IsLate found →
      Fills q (.ok (), (q.onto t).ended)
  | wouldBlock {t : Transport} : q.pulled = (.failed (.error (.io .wouldBlock)), t) →
      Fills q (.ok (), q.onto t)
  | failed {e : Stop Error} {q' : QueryStream} : q'.done = q.done → Fills q (.error e, q')

theorem fillBuffer_fills (q : QueryStream) : Fills q (fillBuffer q) := by
  unfold fillBuffer
  rcases hpull : pull q.bytes.cfg q.bytes.transport with ⟨found, t⟩
  dsimp only
  split
  case h_1 heq =>
    cases heq
    exact .bytes hpull
  case h_2 heq =>
    cases heq
    exact .closed hpull
  case h_3 heq =>
    cases heq
    exact .late hpull (.inl rfl)
  case h_4 heq =>
    cases heq
    exact .wouldBlock hpull
  case h_5 heq =>
    cases heq
    split
    · rename_i hchunked
      exact .late hpull (.inr ⟨hchunked, rfl⟩)
    · exact .failed rfl
  all_goals exact .failed rfl

/-- A read of a closed connection leaves it as it is. -/
theorem pull_closed {cfg : Config} {t t' : Transport} (h : pull cfg t = (.closed, t')) :
    t' = t := by
  have hchunk : ∀ {turns : Nat} {t : Transport}, (pullChunk turns t).1 ≠ .closed := by
    intro turns
    induction turns with
    | zero =>
      intro t hclosed
      cases hclosed
    | succ turns ih =>
      intro t hclosed
      unfold pullChunk at hclosed
      split at hclosed
      · cases hclosed
      split at hclosed
      · exact ih hclosed
      split at hclosed
      · cases hclosed
      · split at hclosed <;> cases hclosed
  unfold pull at h
  split at h
  · exact absurd (congrArg Prod.fst h) hchunk
  split at h
  · rename_i t₁ hread
    cases h
    obtain ⟨arrivals, control⟩ := t
    rcases arrivals with _ | ⟨seg, later⟩
    · cases hread
      rfl
    cases seg with
    | fault kind => cases hread
    | bytes b bs =>
      cases hroom : cfg.readBufferSize with
      | zero =>
        rw [hroom] at hread
        cases hread
        rfl
      | succ room =>
        rw [hroom] at hread
        cases hread
  · cases h
  · cases h

/-! ## §2. The condition on a call. -/

/-- The bytes in the buffer are the start of a packet. -/
def Completable (q : QueryStream) : Prop :=
  ∃ more p rest, packet q.bytes.cfg (q.bytes.rest ++ more) = (.ok p, rest)

/-- The turn is not one over the buffer alone: the packet is read through frames, or it is the
    ProfileInfo packet the stream does not come back from. -/
def Unbuffered (q : QueryStream) : Prop := Framed q ∨ q.cutBeforeFlag = true

/-- The packet at the front has not arrived in full. -/
structure Awaits (q : QueryStream) : Prop extends Lacks q where
  uncut : q.cutBeforeFlag = false
  completable : Completable q

/-- A call ends in a block or an error, and the calls to come go on. -/
structure Reports (res : Readout (Option Block)) (q' : QueryStream) : Prop where
  returns : res ≠ .error .depth
  notNone : res ≠ .ok none
  goesOn : q'.done = false

/-- **The call gets what it needs to stop.**  It comes to EndOfStream; or, while nothing has set
    `done`, to a block, to something that is reported, or to a read that fails.  On the way
    there are packets that are passed over or answered, and starts of packets behind which the
    rest arrives.  A read that would block is no harm outside an exception; one that has timed
    out sets `done`, so that only EndOfStream may stop the call. -/
inductive Delivers : QueryStream → Prop
  | finished {q : QueryStream} {rest : Bytes} : Reads q .finished rest → Delivers q
  | block {q : QueryStream} {b : Block} {rest : Bytes} :
      Reads q (.block b) rest → q.done = false → Delivers q
  | unknown {q : QueryStream} {packetType : Nat} {rest : Bytes} :
      Reads q (.unknown packetType) rest → q.done = false → Delivers q
  | refused {q : QueryStream} {e : Error} {rest : Bytes} :
      Refuses q (.error e) rest → q.done = false → Delivers q
  | unanswered {q : QueryStream} {answer rest : Bytes} {e : Error} {c : Control} :
      Reads q (.answered answer) rest →
      Control.writeNative answer q.bytes.transport.control = (.error (.error e), c) →
      q.done = false → Delivers q
  | skipped {q : QueryStream} {rest : Bytes} :
      Reads q .skipped rest → Delivers (q.moved rest) → Delivers q
  | answered {q : QueryStream} {answer rest : Bytes} {c : Control} :
      Reads q (.answered answer) rest →
      Control.writeNative answer q.bytes.transport.control = (.ok (), c) →
      Delivers ((q.moved rest).withControl c) → Delivers q
  -- what the other turns come to is not said by the bytes of the buffer
  | passed {q q' : QueryStream} :
      Unbuffered q → (Lacks q → Completable q) → turn q = (.ok (.more ()), q') →
      Delivers q' → Delivers q
  | stops {q q' : QueryStream} {res : Readout (Option Block)} :
      Unbuffered q → (Lacks q → Completable q) → LastTurn (fun _ => turn) () q res q' →
      Reports res q' → Delivers q
  | arrives {q : QueryStream} {got : Bytes} {t : Transport} :
      Awaits q → q.pulled = (.bytes got, t) → Delivers (q.filled got t) → Delivers q
  | blocked {q : QueryStream} {t : Transport} :
      Awaits q → q.inException = false → q.pulled = (.failed (.error (.io .wouldBlock)), t) →
      Delivers (q.onto t) → Delivers q
  | late {q : QueryStream} {found : Pull} {t : Transport} :
      Awaits q → q.inException = false → q.pulled = (found, t) → q.IsLate found →
      Delivers (q.onto t).ended → Delivers q
  | broken {q q' : QueryStream} {e : Error} :
      Awaits q → fillBuffer q = (.error (.error e), q') → q.done = false → Delivers q

/-- The states a call comes through. -/
abbrev Through (q q₁ : QueryStream) : Prop := Turns (fun _ : Unit => turn) () q () q₁

/-- **How a call is to end**: it returns; more bytes are read only where they can complete the
    packet, so that what is malformed is reported; and `None` is returned, and `done` left set
    for the calls to come, only where EndOfStream was parsed. -/
structure Ending (q : QueryStream) (res : Readout (Option Block)) (q' : QueryStream) :
    Prop where
  returns : res ≠ .error .depth
  reported : ∀ q₁, Through q q₁ → Lacks q₁ → Completable q₁
  ended : res = .ok none ∨ q'.done = true → ∃ q₁ rest, Through q q₁ ∧ Reads q₁ .finished rest

/-- The same of its loop, which may be entered with `done` set. -/
def LoopMeets (q : QueryStream) : Prop :=
  ∃ enough res q', (∀ fuel, enough ≤ fuel → reading fuel q = (res, q')) ∧ Ending q res q'

/-! ## §3. Calls that are delivered to. -/

theorem Reads.not_lacks (h : Reads q p rest) : ¬ Lacks q := by
  rintro ⟨_, msg, r, hfails⟩
  rw [h.parsed] at hfails
  cases hfails

theorem Refuses.not_lacks {e : Stop Error} (h : Refuses q e rest) : ¬ Lacks q := by
  rintro ⟨_, msg, r, hfails⟩
  rw [h.fails] at hfails
  cases hfails
  exact h.reported msg rfl

theorem Through.of_last {res : Readout (Option Block)}
    (hlast : LastTurn (fun _ => turn) () q res q') (h : Through q q₁) : q₁ = q := by
  cases h with
  | refl => rfl
  | more hturn _ =>
    cases hlast with
    | done hdone => cases hdone.symm.trans hturn
    | stopped hstop => cases hstop.symm.trans hturn

theorem Through.of_more {q₂ : QueryStream} (hturn : turn q = (.ok (.more ()), q₁))
    (h : Through q q₂) : q₂ = q ∨ Through q₁ q₂ := by
  cases h with
  | refl => exact .inl rfl
  | more hturn' hrest =>
    cases hturn.symm.trans hturn'
    exact .inr hrest

/-- The last turn of a call. -/
theorem LoopMeets.last {res : Readout (Option Block)}
    (hlast : LastTurn (fun _ => turn) () q res q') (hlacks : Lacks q → Completable q)
    (hres : Reports res q' ∨ res ≠ .error .depth ∧ ∃ rest, Reads q .finished rest) :
    LoopMeets q := by
  refine ⟨1, res, q', fun fuel hfuel => ?_, ?_, fun q₁ hturns => ?_, fun hend => ?_⟩
  · obtain ⟨fuel, rfl⟩ := Nat.exists_eq_add_of_le' hfuel
    exact loop_lastTurn hlast
  · exact hres.elim Reports.returns And.left
  · obtain rfl := hturns.of_last hlast
    exact hlacks
  · rcases hres with hreports | ⟨_, rest, hreads⟩
    · rcases hend with hnone | hdone
      · exact absurd hnone hreports.notNone
      · cases hreports.goesOn.symm.trans hdone
    · exact ⟨q, rest, .refl _ _, hreads⟩

/-- A turn of a call that goes on. -/
theorem LoopMeets.step (hturn : turn q = (.ok (.more ()), q₁)) (hlacks : Lacks q → Completable q)
    (h : LoopMeets q₁) : LoopMeets q := by
  obtain ⟨enough, res, q', hrun, hend⟩ := h
  refine ⟨enough + 1, res, q', fun fuel hfuel => ?_, hend.returns, fun q₂ hturns => ?_,
    fun h => ?_⟩
  · obtain ⟨fuel, rfl⟩ := Nat.exists_eq_add_of_le' (Nat.le_trans (Nat.le_add_left 1 enough) hfuel)
    exact (loop_more hturn).trans (hrun fuel (by omega))
  · obtain rfl | hrest := hturns.of_more hturn
    · exact hlacks
    · exact hend.reported q₂ hrest
  · obtain ⟨q₂, rest, hturns, hreads⟩ := hend.ended h
    exact ⟨q₂, rest, .more hturn hturns, hreads⟩

theorem turn_answered {answer : Bytes} {res : Readout Unit} {c : Control}
    (h : Reads q (.answered answer) rest)
    (hwrite : Control.writeNative answer q.bytes.transport.control = (res, c)) :
    turn q = (res.map fun _ => .more (), (q.moved rest).withControl c) := by
  rw [turn_reads h]
  show (onControl (Control.writeNative answer) >>= fun _ => pure (Turn.more ())) (q.moved rest) = _
  rw [bind_apply]
  unfold onControl Transport.onControl
  rw [show (q.moved rest).bytes.transport.control = q.bytes.transport.control from rfl, hwrite]
  cases res <;> rfl

/-- A fill that fails leaves `done` as it was. -/
theorem fillBuffer_error {e : Stop Error} (h : fillBuffer q = (.error e, q')) :
    q'.done = q.done := by
  have hfills := fillBuffer_fills q
  rw [h] at hfills
  cases hfills with
  | failed hsame => exact hsame

/-- Nothing is delivered over a connection that is closed before the packet has arrived. -/
theorem not_delivers_of_closed {t : Transport} (hlacks : Lacks q) (hcut : q.cutBeforeFlag = false)
    (hpull : q.pulled = (.closed, t)) : ¬ Delivers q := by
  intro h
  cases h with
  | finished hreads | block hreads _ | unknown hreads _ | unanswered hreads _ _
    | skipped hreads _ | answered hreads _ _ => exact hreads.not_lacks hlacks
  | refused hrefuses _ => exact hrefuses.not_lacks hlacks
  | passed hun _ _ _ | stops hun _ _ _ =>
    rcases hun with hframed | hcut'
    · exact hlacks.buffered hframed
    · cases hcut.symm.trans hcut'
  | arrives _ hpull' _ => cases hpull.symm.trans hpull'
  | blocked _ _ hpull' _ => cases hpull.symm.trans hpull'
  | late _ _ hpull' hlate _ =>
    cases hpull.symm.trans hpull'
    rcases hlate with hlate | ⟨_, hlate⟩ <;> cases hlate
  | broken _ hfill _ =>
    unfold fillBuffer at hfill
    rw [show pull q.bytes.cfg q.bytes.transport = _ from hpull] at hfill
    cases hfill

/-- A fill that does not add bytes. -/
theorem againException_more (h : againException q = (.ok (.more ()), q₁)) :
    fillBuffer q = (.ok (), q₁) ∧ q₁.bytes.rest.length ≠ q.bytes.rest.length := by
  unfold againException at h
  rcases hfill : fillBuffer q with ⟨res, q'⟩
  rw [hfill] at h
  cases res with
  | error e => cases h
  | ok _ =>
    dsimp only at h
    split at h
    · cases h
    · rename_i hne
      cases h
      exact ⟨rfl, hne⟩

theorem again_more (h : again q = (.ok (.more ()), q₁)) : fillBuffer q = (.ok (), q₁) := by
  obtain ⟨_, q', hfill, hdone⟩ := bind_eq_ok_iff.mp h
  cases hdone
  exact hfill

/-- **A turn that goes on is delivered to where the next state is.** -/
theorem Delivers.of_more (hturn : turn q = (.ok (.more ()), q₁))
    (hcompletable : Lacks q → Completable q) (h : Delivers q₁) : Delivers q := by
  by_cases hun : Unbuffered q
  · exact .passed hun hcompletable hturn h
  obtain ⟨hframed, hcut⟩ := not_or.mp hun
  rw [Bool.not_eq_true] at hcut
  obtain hframed' | ⟨p, rest, hreads⟩ | hlacks | ⟨e, rest, hrefuses⟩ := front_cases q
  · exact absurd hframed' hframed
  · rw [turn_reads hreads] at hturn
    cases p with
    | skipped =>
      cases hturn
      exact .skipped hreads h
    | answered answer =>
      rw [← turn_reads hreads] at hturn
      rcases hwrite : Control.writeNative answer q.bytes.transport.control with ⟨res, c⟩
      rw [turn_answered hreads hwrite] at hturn
      cases res with
      | error e => cases hturn
      | ok _ =>
        cases hturn
        exact .answered hreads hwrite h
    | _ => cases hturn
  · have hawaits : Awaits q := ⟨hlacks, hcut, hcompletable hlacks⟩
    rw [turn_lacks hlacks hcut] at hturn
    have hfill : fillBuffer q = (.ok (), q₁) ∧
        (q.inException = true → q₁.bytes.rest.length ≠ q.bytes.rest.length) := by
      split at hturn
      · exact ⟨(againException_more hturn).1, fun _ => (againException_more hturn).2⟩
      · rename_i hplain
        exact ⟨again_more hturn, fun hexception => absurd hexception hplain⟩
    obtain ⟨hfill, hgrows⟩ := hfill
    have hplain : q₁.bytes.rest = q.bytes.rest → q.inException = false := by
      intro hsame
      by_contra hexception
      exact hgrows (by simpa using hexception) (congrArg length hsame)
    have hfills := fillBuffer_fills q
    rw [hfill] at hfills
    cases hfills with
    | bytes hpull => exact .arrives hawaits hpull h
    | @closed t hpull =>
      -- the connection stays closed, so the next state is not delivered to
      refine absurd h (not_delivers_of_closed (t := t) ⟨hlacks.buffered, hlacks.fails⟩ hcut ?_)
      obtain rfl := pull_closed hpull
      exact hpull
    | late hpull hlate => exact .late hawaits (hplain rfl) hpull hlate h
    | wouldBlock hpull => exact .blocked hawaits (hplain rfl) hpull h
  · rw [turn_refuses hrefuses] at hturn
    cases hturn

/-- A call that ends while it waits for the rest of a packet ends in a fill that fails, or it
    leaves `done` set. -/
theorem stopped_of_lacks {res : Readout (Option Block)} (hlacks : Lacks q)
    (hcut : q.cutBeforeFlag = false) (hlast : LastTurn (fun _ => turn) () q res q')
    (hgoes : q'.done = false) : ∃ e, res = .error e ∧ fillBuffer q = (.error e, q') := by
  rcases hfill : fillBuffer q with ⟨got, q₁⟩
  rcases got with e | _
  · have hturn := turn_waits hlacks hcut hfill fun _ => .inr ⟨e, rfl⟩
    cases hlast with
    | done hdone => cases hturn.symm.trans hdone
    | stopped hstop =>
      cases hturn.symm.trans hstop
      exact ⟨e, rfl, rfl⟩
  · have hwaits := turn_lacks hlacks hcut
    unfold againException again at hwaits
    rw [bind_ok hfill, hfill] at hwaits
    dsimp only at hwaits
    split at hwaits
    · split at hwaits
      · cases hlast with
        | done hdone => cases hwaits.symm.trans hdone
        | stopped hstop =>
          cases hwaits.symm.trans hstop
          cases hgoes
      · cases hlast <;> cases hwaits.symm.trans ‹_›
    · cases hlast <;> cases hwaits.symm.trans ‹_›

/-- **So is the last turn of a call that ends as it is to.** -/
theorem Delivers.of_last {res : Readout (Option Block)}
    (hlast : LastTurn (fun _ => turn) () q res q') (hend : Ending q res q') : Delivers q := by
  by_cases hfinal : res = .ok none ∨ q'.done = true
  · obtain ⟨q₁, rest, hturns, hreads⟩ := hend.ended hfinal
    obtain rfl := hturns.of_last hlast
    exact .finished hreads
  obtain ⟨hsome, hgoes⟩ := not_or.mp hfinal
  rw [Bool.not_eq_true] at hgoes
  have hcompletable := hend.reported q (.refl _ _)
  by_cases hun : Unbuffered q
  · exact .stops hun hcompletable hlast ⟨hend.returns, hsome, hgoes⟩
  obtain ⟨hframed, hcut⟩ := not_or.mp hun
  rw [Bool.not_eq_true] at hcut
  obtain hframed' | ⟨p, rest, hreads⟩ | hlacks | ⟨e, rest, hrefuses⟩ := front_cases q
  · exact absurd hframed' hframed
  · cases p with
    | finished => exact .finished hreads
    | block b =>
      cases hlast with
      | done hturn =>
        cases (turn_reads hreads).symm.trans hturn
        exact .block hreads hgoes
      | stopped hturn => cases (turn_reads hreads).symm.trans hturn
    | unknown packetType =>
      cases hlast with
      | done hturn => cases (turn_reads hreads).symm.trans hturn
      | stopped hturn =>
        cases (turn_reads hreads).symm.trans hturn
        exact .unknown hreads hgoes
    | skipped => cases hlast <;> cases (turn_reads hreads).symm.trans ‹_›
    | exception e =>
      cases hlast with
      | done hturn => cases (turn_reads hreads).symm.trans hturn
      | stopped hturn =>
        cases (turn_reads hreads).symm.trans hturn
        cases hgoes
    | answered answer =>
      rcases hwrite : Control.writeNative answer q.bytes.transport.control with ⟨written, c⟩
      have hanswer := turn_answered hreads hwrite
      cases hlast with
      | done hturn => cases written <;> cases hanswer.symm.trans hturn
      | stopped hturn =>
        rcases written with (e | _) | _
        · cases hanswer.symm.trans hturn
          exact .unanswered hreads hwrite hgoes
        · cases hanswer.symm.trans hturn
          exact absurd rfl hend.returns
        · cases hanswer.symm.trans hturn
  · obtain ⟨e, rfl, hfill⟩ := stopped_of_lacks hlacks hcut hlast hgoes
    cases e with
    | depth => exact absurd rfl hend.returns
    | error e =>
      exact .broken ⟨hlacks, hcut, hcompletable hlacks⟩ hfill
        ((fillBuffer_error hfill).symm.trans hgoes)
  · have hstop := turn_refuses hrefuses
    cases hlast with
    | done hturn => cases hstop.symm.trans hturn
    | stopped hturn =>
      cases hstop.symm.trans hturn
      cases e with
      | depth => exact absurd rfl hend.returns
      | error e => exact .refused hrefuses hgoes

end QueryStream

end Sync

end StClickHouse
