/-
  StClickHouse.Sync.Failures
  **CALLS AFTER A CALL THAT HAS FAILED.**

  A call of the sync client that fails leaves the socket where it is.  What its readers
  have taken off the socket is dropped with them, and what they have not is still there
  for the next call, which takes it for its own response.

      unpoisoned        — nothing is left over where every response arrives in one read, is
                          read to its end, or is discarded after a breach of the budget
      visitor_poisons   — a visitor that fails: the next query returns the next block
-/
import StClickHouse.Sync.Recovery

namespace StClickHouse

open ByteReader RustText List

namespace Sync

/-! ## §1. Readers that empty the socket with their first read. -/

section Draining

variable {σ : Type}

variable {α : Type} {s : σ}

theorem bind_drains {β : Type} {D F : σ → Prop} {x : Read σ α} {f : α → Read σ β}
    (hx : ∀ s, F s → D (x s).2) (hf : ∀ a, Lock (Stays D) (f a) (f a)) (hs : F s) :
    D ((x >>= f) s).2 := by
  have hfirst := hx s hs
  rw [bind_apply]
  rcases hxs : x s with ⟨res, s'⟩
  rw [hxs] at hfirst
  cases res with
  | ok a => exact stays_run (hf a) hfirst
  | error e => exact hfirst

theorem mapError_state (f : Error → Error) (x : Read σ α) (s : σ) :
    (mapError f x s).2 = (x s).2 := by
  unfold mapError
  cases x s with
  | mk res s' => cases res with
    | ok a => rfl
    | error e => cases e <;> rfl

variable [ByteStream Error σ] [Duplex σ]

/-- The first read leads from `F` to `D`, and nothing leads out of `D`. -/
structure Drains (D F : σ → Prop) : Prop where
  stays : DuplexAlike (Stays D)
  first : ∀ n s, 0 < n → F s → D (readExact (ε := Error) n s).2

/-- Before the first read, with time left. -/
def Ready (F : σ → Prop) (s : σ) : Prop :=
  F s ∧ ∃ s', expired s = (.ok false, s') ∧ F s'

variable {D F : σ → Prop} (h : Drains D F)

include h

theorem readByte_drains (hs : F s) :
    D ((readByte : Read σ UInt8) s).2 :=
  bind_drains (fun s hs => h.first 1 s Nat.one_pos hs) (fun _ => .pure) hs

theorem readVarint_drains (hs : F s) : D ((readVarint : Read σ Nat) s).2 := by
  refine bind_drains (fun s hs => readByte_drains h hs) (fun byte => ?_) hs
  refine .ite .fail (.ite .pure ?_)
  exact .of_rel (varintLoop_rel _ (readByte_lock h.stays.reads).rel Lock.fail.rel _ _ _)

omit [ByteStream Error σ] h in
theorem header_drains {late : Error} {x : Read σ Nat} (hx : ∀ s, F s → D (x s).2)
    (hs : Ready F s) : D ((do if ← expired then fail late else x : Read σ Nat) s).2 := by
  obtain ⟨_, s', hclock, hs'⟩ := hs
  rw [bind_ok hclock]
  exact hx s' hs'

theorem loop_drains {H R : Type} (env : Env) (reply : Reply) {p : Handlers σ H R}
    (hp : HandlersAlike (Stays D) p p) (hheader : ∀ s, Ready F s → D (p.header s).2) {fuel : Nat}
    (hfuel : 0 < fuel) (a : H) (hs : Ready F s) :
    D (loop (p.turn env reply) fuel a s).2 := by
  rcases fuel with _ | fuel
  · cases hfuel
  refine bind_drains (F := Ready F) (fun s hs => ?_) (fun turn => ?_) hs
  · exact bind_drains hheader (fun k => packet_lock h.stays env reply hp a k) hs
  cases turn with
  | more a => exact loop_lock (turn_lock h.stays env reply hp) fuel a
  | done res => exact .pure

/-- **Every call that reads drains.** -/
theorem body_drains {cfg : Config} (hfuel : 0 < cfg.fuel) {call : Call}
    (hreads : ∀ packet, call ≠ .sendData packet) (hs : Ready F s) :
    D (call.body cfg s).2 := by
  have hresponse : ∀ s, Ready F s → D ((responseHeader : Read σ Nat) s).2 :=
    fun s hs => header_drains (fun s hs => by
      rw [mapError_state]
      exact readVarint_drains h hs) hs
  have hcount : ∀ s, Ready F s → D ((readResponseRowCount cfg.env cfg.reply cfg.fuel) s).2 :=
    fun s hs => loop_drains h _ _ (rowCountHandlers_alike h.stays _ _) hresponse hfuel _ hs
  cases call with
  | query _ _ =>
    refine bind_drains (F := Ready F) (fun s hs => ?_) (fun _ => .pure) hs
    exact loop_drains h _ _ (blocksHandlers_alike h.stays _ _) hresponse hfuel _ hs
  | rowCount _ | execute _ _ | endInsert _ => exact bind_drains hcount (fun _ => .pure) hs
  | blockViews _ visitor =>
    refine bind_drains (F := Ready F) (fun s hs => ?_) (fun _ => .pure) hs
    exact loop_drains h _ _ (viewsHandlers_alike h.stays _ _ visitor) hresponse hfuel _ hs
  | beginInsert _ =>
    refine bind_drains (F := Ready F) (fun s hs => ?_) (fun _ => .pure) hs
    refine loop_drains h _ _ (structureHandlers_alike h.stays _ _) (fun s hs => ?_) hfuel _ hs
    exact header_drains (fun s hs => readVarint_drains h hs) hs
  | sendData packet => exact absurd rfl (hreads packet)
  | tablesStatus _ =>
    refine bind_drains (F := F) (fun s hs => ?_) (fun _ => .pure) hs.1
    refine bind_drains (fun s hs => readVarint_drains h hs) (fun k => ?_) hs
    exact tablesStatusPacket_lock h.stays.reads _ _ k
  | ping =>
    refine bind_drains (F := F) (fun s hs => ?_) (fun _ => .pure) hs.1
    exact bind_drains (fun s hs => readByte_drains h hs) (fun _ => .ite .pure .fail) hs

end Draining

/-! ## §2. The readers of a call. -/

section Readers

variable {σ : Type} {D F : σ → Prop}

theorem readExactBy_drains {read : Nat → Read σ Bytes}
    (hstays : ∀ room s, D s → D (read room s).2)
    (hfirst : ∀ room s, 0 < room → F s → D (read room s).2) {n : Nat} (hn : 0 < n) {s : σ}
    (hs : F s) : D (readExactBy read n n s).2 := by
  rcases n with _ | n
  · cases hn
  refine bind_drains (fun s hs => hfirst (n + 1) s hn hs) (fun got => ?_) hs
  refine .ite .fail (.bind ?_ fun rest => .pure)
  exact readExactBy_lock (fun room => stays_lock (hstays room)) _ _

/-- Nothing is left on the socket. -/
def Emptied (r : TransportReader) : Prop := r.inner.arrivals = []

/-- Nothing has been read, and one read can take everything. -/
def OneSegment (r : TransportReader) : Prop :=
  r.buf = [] ∧ ∃ b bs, r.inner.arrivals = [.bytes b bs] ∧ bs.length < r.capacity

theorem transportRead_emptied {t : Transport} (h : t.arrivals = []) (room : Nat) :
    t.read room = (.ok [], t) := by
  unfold Transport.read
  rw [h]

theorem read_stays (room : Nat) (r : TransportReader) (h : Emptied r) :
    Emptied (r.read room).2 := by
  have hread := transportRead_emptied h
  unfold TransportReader.read
  split
  · unfold TransportReader.onInner
    rw [hread]
    exact h
  rw [bind_apply]
  unfold TransportReader.fillBuf
  rw [hread]
  split
  · rename_i hfill
    split at hfill <;> cases hfill
    · exact h
    · exact h
  · rename_i hfill
    split at hfill <;> cases hfill

theorem transportRead_all {t : Transport} {b : UInt8} {bs : Bytes}
    (h : t.arrivals = [.bytes b bs]) {room : Nat} (hroom : bs.length < room) :
    t.read room = (.ok (b :: bs), { t with arrivals := [] }) := by
  have hlen : (b :: bs).length ≤ room := hroom
  unfold Transport.read
  rw [h]
  dsimp only
  rw [take_of_length_le hlen, drop_of_length_le hlen]
  rfl

theorem read_drains (room : Nat) (r : TransportReader) (_ : 0 < room) (h : OneSegment r) :
    Emptied (r.read room).2 := by
  obtain ⟨hbuf, b, bs, harr, hcap⟩ := h
  unfold TransportReader.read
  by_cases hpast : r.buf = [] ∧ r.capacity ≤ room
  · rw [if_pos hpast]
    unfold TransportReader.onInner
    rw [transportRead_all harr (lt_of_lt_of_le hcap hpast.2)]
    rfl
  have hfill : TransportReader.fillBuf r
      = (.ok (), { r with inner := { r.inner with arrivals := [] }, buf := b :: bs }) := by
    unfold TransportReader.fillBuf
    rw [if_pos hbuf, transportRead_all harr hcap]
  rw [if_neg hpast, bind_ok hfill]
  rfl

theorem onInner_stays {α : Type} (x : Read Control α) :
    Lock (Stays Emptied) (TransportReader.onInner (Transport.onControl x))
      (TransportReader.onInner (Transport.onControl x)) :=
  stays_lock fun _ hs => hs

/-- **The buffered reader takes a segment that fits it with its first read.** -/
theorem transportReader_drains : Drains Emptied OneSegment where
  stays :=
    { reads := fun n => readExactBy_lock (fun room => stays_lock (read_stays room)) n n
      expired := onInner_stays _
      write := fun _ => onInner_stays _ }
  first := fun _ _ hn hs => readExactBy_drains read_stays read_drains hn hs

variable [ByteStream Error σ] [Duplex σ]

theorem dechunking_drains (h : Drains D F) :
    Drains (fun d : Dechunking σ => D d.inner)
      (fun d => F d.inner ∧ d.chunk = [] ∧ 0 < d.turns) := by
  have halike := dechunking_alike h.stays
  have hlift : ∀ {α : Type} {x : Read (Dechunking σ) α},
      Lock (dechunkingAlike (Stays D)) x x → Lock (Stays fun d : Dechunking σ => D d.inner) x x :=
    fun hx => stays_lock fun d hd => (hx d d ⟨⟨rfl, hd⟩, rfl, rfl⟩).2.1.2
  refine ⟨⟨fun n => hlift (halike.reads n), hlift halike.expired, fun pkt => hlift (halike.write pkt)⟩,
    fun n d hn hd => ?_⟩
  refine readExactBy_drains (D := fun d : Dechunking σ => D d.inner)
    (F := fun d : Dechunking σ => F d.inner ∧ d.chunk = [] ∧ 0 < d.turns) (fun room d hd => ?_)
    (fun room d hroom hd => ?_) hn hd
  · exact stays_run (hlift (dechunking_read_lock h.stays.reads room)) hd
  obtain ⟨hinner, hchunk, hturns⟩ := hd
  unfold Dechunking.read
  rw [if_neg (by omega)]
  refine bind_drains (D := fun d : Dechunking σ => D d.inner)
    (F := fun d : Dechunking σ => F d.inner ∧ d.chunk = [] ∧ 0 < d.turns)
    (fun d hd => ?_) (fun _ => stays_lock fun _ hd => hd) ⟨hinner, hchunk, hturns⟩
  obtain ⟨hinner, hchunk, hturns⟩ := hd
  unfold Dechunking.nextChunk
  rw [if_pos hchunk]
  obtain ⟨turns, hturns⟩ : ∃ k, d.turns = k + 1 := ⟨d.turns - 1, by omega⟩
  rw [hturns]
  refine bind_drains (D := fun d : Dechunking σ => D d.inner)
    (F := fun d : Dechunking σ => F d.inner) (fun d hd => ?_) (fun header => ?_) hinner
  · exact h.first 4 d.inner (by omega) hd
  refine hlift (.ite (readNextChunk_lock h.stays.reads turns) (.ite .fail ?_))
  refine .bind (dechunking_onInner_lock (h.stays.reads _)) fun payload => ?_
  intro d d' hd
  exact ⟨rfl, hd.1, rfl, hd.2.2⟩

/-- **A call empties the socket through its readers**, whatever becomes of it. -/
theorem overChunks_drains (h : Drains D F) {cfg : Config} (hfuel : 0 < cfg.fuel) {call : Call}
    (hreads : ∀ packet, call ≠ .sendData packet) {s : σ} (hs : Ready F s) :
    D (overChunks cfg (call.body cfg) s).2 := by
  unfold overChunks
  by_cases hchunked : cfg.chunkedRecv = true
  · rw [if_pos hchunked]
    obtain ⟨hfresh, s', hclock, hs'⟩ := hs
    refine body_drains (dechunking_drains h) hfuel hreads (s := .new s cfg.fuel)
      ⟨⟨hfresh, rfl, hfuel⟩, .new s' cfg.fuel, ?_, ⟨hs', rfl, hfuel⟩⟩
    show (match expired s with
      | (res, t) => (res, ({ Dechunking.new s cfg.fuel with inner := t } : Dechunking σ))) = _
    rw [hclock]
    rfl
  · rw [if_neg hchunked]
    exact body_drains h hfuel hreads hs

end Readers

/-! ## §3. Calls and their responses. -/

/-- The response arrives. -/
def arrive (response : List Segment) : Read Transport Unit := fun t =>
  (.ok (), { t with arrivals := t.arrivals ++ response })

/-- A call, and the response of the server to it, which it sends once the packets of the
    call are written. -/
structure Exchange where
  call : Call
  response : List Segment

/-- The packets of a call. -/
def Exchange.ask (x : Exchange) : Read Transport Unit :=
  Transport.onControl (forEach Control.writeNative x.call.request)

variable (cfg : Config)

/-- The call. -/
def Exchange.run (x : Exchange) : Read Transport Value := do
  x.ask
  arrive x.response
  x.call.receive cfg

/-- A call that returns, as a step; it may return an error. -/
def exchange (t : Transport) (x : Exchange) : Option Transport :=
  match x.run cfg t with
  | (.error .depth, _) => none
  | (_, t') => some t'

/-- The response is one segment that fits the buffer of the call, and the first look at
    the clock is in time. -/
def InOneRead (call : Call) (t : Transport) : Prop :=
  0 < cfg.fuel ∧ (∀ packet, call ≠ .sendData packet) ∧ t.control.clock.headD false = false ∧
    ∃ capacity b bs, call.buffer cfg = some capacity ∧ t.arrivals = [.bytes b bs] ∧
      bs.length < capacity

/-- The call reads its response to the end, where it may have broken off. -/
def ToTheEnd (call : Call) (t : Transport) : Prop :=
  (leaves cfg (call.body cfg) t.line).2.2.events = []

/-- The call is a query that breaches its budget at the end of a chunk, if there are
    chunks, and the response ends with its terminal packet. -/
def BreachesCleanly (call : Call) (t : Transport) : Prop :=
  (∃ ignored request, call = .query ignored request) ∧
    (∃ limit used, (leaves cfg (call.body cfg) t.line).1
      = .error (.error (.responseTooLarge limit used))) ∧
    BreachEndsChunk cfg t.line ∧ ∀ chunk l', lineEnd cfg t = some (chunk, l') → l'.events = []

/-- The condition on a call and its response, on the socket once the response is on it. -/
def Confined (t : Transport) (x : Exchange) : Prop :=
  ∀ sent, x.ask t = (.ok (), sent) →
    let t := { sent with arrivals := sent.arrivals ++ x.response }
    InOneRead cfg x.call t ∨ ToTheEnd cfg x.call t ∨ BreachesCleanly cfg x.call t

/-! ## §4. What a call leaves. -/

/-- Nothing is left of any response, or the socket has been shut down. -/
def Clear (t : Transport) : Prop := t.arrivals = [] ∨ t.control.shut = true

theorem overChunks_stays {σ α : Type} [ByteStream Error σ] [Duplex σ] {D : σ → Prop}
    (hD : DuplexAlike (Stays D)) (cfg : Config)
    {body : ∀ {ρ : Type} [ByteStream Error ρ] [Duplex ρ], Read ρ α}
    (hbody : Uniform body) : Lock (Stays D) (overChunks cfg body) (overChunks cfg body) := by
  refine stays_lock fun s hs => ?_
  unfold overChunks
  split
  · exact (hbody (dechunking_alike hD) (.new s cfg.fuel) (.new s cfg.fuel)
      ⟨⟨rfl, hs⟩, rfl, rfl⟩).2.1.2
  · exact stays_run (hbody hD) hs

variable {cfg : Config} {t t' : Transport} {call : Call}

/-- What the readers of a query leave is clear if they have emptied the socket by the time
    the blocks are read. -/
theorem receiveBlocks_clear (h : Emptied (overChunks cfg (Call.body cfg (.query none []))
      (TransportReader.new t cfg.readBufferSize)).2) : Clear (receiveBlocks cfg t).2 := by
  unfold receiveBlocks
  split
  · rename_i limit used r hout
    rw [hout] at h
    have hrecover : Emptied (recover cfg r).2 := by
      refine stays_run (.bind (onInner_stays _) fun _ => .bind ?_ fun _ => .pure) h
      exact overChunks_stays transportReader_drains.stays cfg (rowCount_uniform cfg)
    rcases hr : recover cfg r with ⟨res, r'⟩
    rw [hr] at hrecover
    cases res with
    | ok _ => exact .inl hrecover
    | error e => cases e with
      | depth => exact .inl hrecover
      | error e => exact .inr rfl
  · rename_i hout
    rw [hout] at h
    exact .inl h

theorem receive_clear (hbuffered : ∀ capacity, call.buffer cfg = some capacity →
      Emptied (overChunks cfg (call.body cfg) (TransportReader.new t capacity)).2)
    (hbare : call.buffer cfg = none → (overChunks cfg (call.body cfg) t).2.arrivals = []) :
    Clear (call.receive cfg t).2 := by
  cases call with
  | query ignored request => exact receiveBlocks_clear (hbuffered _ rfl)
  | _ =>
    unfold Call.receive
    dsimp only
    generalize hbuffer : Call.buffer cfg _ = buffer
    cases buffer with
    | some capacity => exact .inl (hbuffered capacity hbuffer)
    | none => exact .inl (hbare hbuffer)

theorem inOneRead_clear (h : InOneRead cfg call t) :
    Clear (call.receive cfg t).2 := by
  obtain ⟨hfuel, hreads, hclock, capacity, b, bs, hbuffer, harr, hcap⟩ := h
  refine receive_clear (fun capacity' hbuffer' => ?_) fun hnone => ?_
  · rw [hbuffer, Option.some.injEq] at hbuffer'
    subst hbuffer'
    refine overChunks_drains transportReader_drains hfuel hreads
      ⟨⟨rfl, b, bs, harr, hcap⟩,
        ⟨{ t with control := { t.control with clock := t.control.clock.tail } }, [], capacity⟩, ?_,
        ⟨rfl, b, bs, harr, hcap⟩⟩
    show (Except.ok (t.control.clock.headD false), _) = _
    rw [hclock]
    rfl
  · rw [hnone] at hbuffer
    cases hbuffer

theorem toTheEnd_clear (h : ToTheEnd cfg call t) :
    Clear (call.receive cfg t).2 := by
  have hlevel : Level [] t t.line := level_line (append_nil _).symm
  refine receive_clear (fun capacity _ => ?_) fun _ => ?_
  · exact ((overChunks_leaves transportReader_alike cfg (body_uniform cfg call)
      (Ahead.new hlevel capacity)).2.at_boundary h).1
  · exact ((overChunks_leaves transport_alike cfg (body_uniform cfg call) hlevel).2.at_boundary h).1

theorem receiveBlocks_breach {limit used : Nat}
    {res : Readout Value}
    (hbreach : (leaves cfg (Call.body cfg (.query none [])) t.line).1
      = .error (.error (.responseTooLarge limit used)))
    (hrun : receiveBlocks cfg t = (res, t')) (hres : res ≠ .error .depth) :
    res = .error (.error (.responseTooLarge limit used)) := by
  have hlevel : Level [] t t.line := level_line (append_nil _).symm
  have hfirst := (overChunks_leaves transportReader_alike cfg (body_uniform cfg (.query none []))
    (Ahead.new hlevel cfg.readBufferSize)).1
  rw [hbreach] at hfirst
  unfold receiveBlocks at hrun
  split at hrun
  · rename_i limit' used' r hout
    rw [hout] at hfirst
    cases hfirst
    split at hrun
    · exact (congrArg Prod.fst hrun).symm
    · exact absurd (congrArg Prod.fst hrun).symm hres
    · exact (congrArg Prod.fst hrun).symm
  · rename_i hne hout
    rw [hout] at hfirst
    obtain rfl := hfirst
    exact (hne _ _ rfl).elim

theorem breachesCleanly_clear {res : Readout Value} (h : BreachesCleanly cfg call t)
    (hrun : call.receive cfg t = (res, t')) (hres : res ≠ .error .depth) : Clear t' := by
  obtain ⟨⟨ignored, request, rfl⟩, ⟨limit, used, hbreach⟩, hchunk, hend⟩ := h
  have hquery : receiveBlocks cfg t = (res, t') := hrun
  have htoo := receiveBlocks_breach hbreach hquery hres
  rw [htoo] at hquery
  obtain hshut | ⟨r, chunk, l', rfl, _, hl', hahead⟩ := drained_of_breach (.inl hchunk) hquery
  · exact .inr hshut.1
  · have hevents := hahead.events
    rw [hend chunk l' hl', eq_comm, append_eq_nil_iff] at hevents
    exact .inl (eventsOf_eq_nil hevents.2)

/-! ## §5. Sequences of calls. -/

theorem ask_shut (h : t.control.shut = true) (x : Exchange) : ∃ e, x.ask t = (.error e, t) := by
  obtain ⟨pkt, more, hrequest⟩ := request_ne_nil x.call
  obtain ⟨e, hwrite⟩ := writeNative_shut h pkt
  refine ⟨e, ?_⟩
  unfold Exchange.ask Transport.onControl
  rw [hrequest]
  show (match (Control.writeNative pkt >>= fun _ => forEach Control.writeNative more) t.control with
    | (res, c) => (res, ({ t with control := c } : Transport))) = _
  rw [bind_error hwrite]

theorem run_shut (h : t.control.shut = true) (cfg : Config) (x : Exchange) :
    ∃ e, x.run cfg t = (.error e, t) := by
  obtain ⟨e, hask⟩ := ask_shut h x
  exact ⟨e, bind_error hask⟩

/-- **What one call leaves**: a clear socket where there was one. -/
theorem exchange_clear {x : Exchange} (hclear : Clear t)
    (hconfined : Confined cfg t x) (hstep : exchange cfg t x = some t') : Clear t' := by
  unfold exchange at hstep
  by_cases hshut : t.control.shut = true
  · obtain ⟨e, hrun⟩ := run_shut hshut cfg x
    rw [hrun] at hstep
    cases e with
    | depth => cases hstep
    | error e =>
      cases hstep
      exact .inr hshut
  · have harr : t.arrivals = [] := hclear.resolve_right hshut
    unfold Exchange.run at hstep
    rw [bind_apply] at hstep
    rcases hask : x.ask t with ⟨res, sent⟩
    have hsent : sent.arrivals = [] := by
      have : sent = (x.ask t).2 := by rw [hask]
      rw [this]
      exact harr
    rw [hask] at hstep
    cases res with
    | error e => cases e with
      | depth => cases hstep
      | error e =>
        cases hstep
        exact .inl hsent
    | ok _ =>
      have hcond := hconfined sent hask
      dsimp only at hstep hcond
      have harrive : arrive x.response sent
          = (.ok (), { sent with arrivals := sent.arrivals ++ x.response }) := rfl
      rw [bind_ok harrive] at hstep
      generalize ({ sent with arrivals := sent.arrivals ++ x.response } : Transport) = t₁
        at hstep hcond
      rcases hrun : x.call.receive cfg t₁ with ⟨res, t₂⟩
      have hreturn : res ≠ .error .depth ∧ t₂ = t' := by
        rw [hrun] at hstep
        cases res with
        | ok v =>
          cases hstep
          exact ⟨(fun h => nomatch h), rfl⟩
        | error e => cases e with
          | depth => cases hstep
          | error e =>
            cases hstep
            exact ⟨(fun h => nomatch h), rfl⟩
      obtain ⟨hres, rfl⟩ := hreturn
      have hsecond : (x.call.receive cfg t₁).2 = t₂ := by rw [hrun]
      obtain hone | hend | hbreach := hcond
      · rw [← hsecond]
        exact inOneRead_clear hone
      · rw [← hsecond]
        exact toTheEnd_clear hend
      · exact breachesCleanly_clear hbreach hrun hres

/-- **A call that has failed does not poison the next one**, as long as every response
    arrives in one read, is read to its end, or is discarded after a breach of the budget:
    whatever the calls before have returned, the next one fails at the socket, or it finds
    nothing on it but its own response. -/
theorem unpoisoned {cfg : Config} {t t' : Transport} {xs : List Exchange}
    (hstart : t.arrivals = []) (hrun : Run (exchange cfg) (Confined cfg) t xs t') (x : Exchange) :
    (∃ e, x.run cfg t' = (.error e, t')) ∨ t'.arrivals = [] := by
  have hclear : Clear t' :=
    hrun.invariant (fun _ _ _ hI hok hs => exchange_clear hI hok hs) (.inl hstart)
  obtain harr | hshut := hclear
  · exact .inr harr
  · exact .inl (run_shut hshut cfg x)

/-- A visitor that fails at the first block. -/
def failingVisitor : Nat → Block → Result Unit := fun _ _ => .error (.text "enough")

/-- A block view that fails; its response comes as it is given. -/
def failedView (response : List Segment) : Exchange := ⟨.blockViews [9] failingVisitor, response⟩

/-- The response in one segment: nothing of it is left for the query. -/
theorem unpoisoned_in_one_read :
    exchange plainConfig (openSocket []) (failedView [.bytes 1 (dataPacket ++ [5])])
        = some ⟨[], ⟨⟨[9], []⟩, [], false, false⟩⟩ ∧
      ((∃ e, (Exchange.mk (.query none [8]) [.bytes 5 []]).run plainConfig
          ⟨[], ⟨⟨[9], []⟩, [], false, false⟩⟩ = (.error e, ⟨[], ⟨⟨[9], []⟩, [], false, false⟩⟩)) ∨
        (⟨[], ⟨⟨[9], []⟩, [], false, false⟩⟩ : Transport).arrivals = []) := by
  have hstep : exchange plainConfig (openSocket []) (failedView [.bytes 1 (dataPacket ++ [5])])
      = some ⟨[], ⟨⟨[9], []⟩, [], false, false⟩⟩ := by
    decide +kernel
  refine ⟨hstep, unpoisoned rfl (.cons (fun sent hask => .inl ?_) hstep (.nil _)) _⟩
  have hsent : (failedView [.bytes 1 (dataPacket ++ [5])]).ask (openSocket [])
      = (.ok (), ⟨[], ⟨⟨[9], []⟩, [], false, false⟩⟩) := by
    decide +kernel
  cases hask
  exact ⟨by decide, (fun packet h => nomatch h), rfl, 8192, 1, dataPacket ++ [5], rfl, rfl,
    by decide⟩

/-- **The next query returns the block of the abandoned response**: the visitor of a block
    view fails at the first block, the rest of the response is behind it on the socket,
    and the query that follows takes it for its own and leaves its own behind. -/
theorem visitor_poisons :
    exchange plainConfig (openSocket [])
        (failedView [.bytes 1 dataPacket, .bytes 1 (dataPacket ++ [5])])
        = some ⟨[.bytes 1 (dataPacket ++ [5])], ⟨⟨[9], []⟩, [], false, false⟩⟩ ∧
      (∃ block, (Exchange.mk (.query none [8]) [.bytes 5 []]).run plainConfig
          ⟨[.bytes 1 (dataPacket ++ [5])], ⟨⟨[9], []⟩, [], false, false⟩⟩
        = (.ok (.blocks [block]), ⟨[.bytes 5 []], ⟨⟨[9, 8], []⟩, [], false, false⟩⟩)) ∧
      (Exchange.mk (.query none [8]) [.bytes 5 []]).run plainConfig
          ⟨[], ⟨⟨[9], []⟩, [], false, false⟩⟩
        = (.ok (.blocks []), ⟨[], ⟨⟨[9, 8], []⟩, [], false, false⟩⟩) := by
  refine ⟨by decide +kernel, ⟨⟨[⟨['a'], "UInt8".toList, [7]⟩], 1⟩, ?_⟩,
    by decide +kernel⟩
  decide +kernel

end Sync

end StClickHouse
