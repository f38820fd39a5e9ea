/-
  StClickHouse.Sync.Recovery
  **THE RECOVERY OF A QUERY FROM A BREACH OF ITS BUDGET.**

  When a block breaches the response budget, the query sends Cancel and discards the rest
  of the response through the buffered reader it has been using.  Over a chunked transport
  it builds a second chunked reader for that, and what the first one has not served of its
  chunk is gone: the discarding starts inside the response, wherever the next chunk starts.
  What the buffered reader has read ahead of the terminal packet is gone with it as well.

  Main results:
    * `query_recovers`    — where the breach falls on the end of a chunk, or Cancel cannot be
                            written: the connection is clean or dead exactly if the reader has
                            read nothing ahead of the terminal packet but empty chunks
    * `drained_of_breach` — what the recovery does there, on the socket and on the line
    * `drained_astray`    — where it does not: the discarding ends inside the response
-/
import StClickHouse.Sync.Client

namespace StClickHouse

open ByteReader RustText List

namespace Sync

/-! ## §1. Empty chunks. -/

/-- The line behind the empty chunks that come next; a chunked reader passes over them. -/
def skipEmptyChunks : List Event → List Event
  | a :: b :: c :: d :: events =>
    if [a, b, c, d] = replicate 4 (.byte 0) then skipEmptyChunks events
    else a :: b :: c :: d :: events
  | events => events

theorem skipEmptyChunks_replicate (k : Nat) :
    skipEmptyChunks (replicate (4 * k) (.byte 0)) = [] := by
  induction k with
  | zero => rfl
  | succ k ih =>
    show skipEmptyChunks (.byte 0 :: .byte 0 :: .byte 0 :: .byte 0 :: replicate (4 * k) (.byte 0))
      = []
    rw [skipEmptyChunks]
    exact (if_pos rfl).trans ih

theorem skipEmptyChunks_eq (events : List Event) :
    ∃ k, events = replicate (4 * k) (.byte 0) ++ skipEmptyChunks events := by
  fun_induction skipEmptyChunks events with
  | case1 a b c d events hzero ih =>
    obtain ⟨k, hk⟩ := ih
    refine ⟨k + 1, ?_⟩
    calc a :: b :: c :: d :: events = [a, b, c, d] ++ events := rfl
      _ = replicate 4 (.byte 0) ++ (replicate (4 * k) (.byte 0) ++ skipEmptyChunks events) := by
        rw [hzero, ← hk]
      _ = _ := by rw [← append_assoc, replicate_append_replicate, Nat.mul_succ, Nat.add_comm 4]
  | case2 => exact ⟨0, rfl⟩
  | case3 => exact ⟨0, rfl⟩

theorem skipEmptyChunks_append {events : List Event} (rest : List Event) :
    skipEmptyChunks events = [] → skipEmptyChunks (events ++ rest) = skipEmptyChunks rest := by
  fun_induction skipEmptyChunks events with
  | case1 a b c d events hzero ih =>
    intro h
    show skipEmptyChunks (a :: b :: c :: d :: (events ++ rest)) = _
    rw [skipEmptyChunks, if_pos hzero]
    exact ih h
  | case2 => nofun
  | case3 =>
    rintro rfl
    rfl

/-- Bytes in front of a line make no difference exactly if they are empty chunks. -/
theorem skipEmptyChunks_append_iff (events rest : List Event) :
    skipEmptyChunks (events ++ rest) = skipEmptyChunks rest ↔ skipEmptyChunks events = [] := by
  refine ⟨fun h => ?_, skipEmptyChunks_append rest⟩
  obtain ⟨k, hk⟩ := skipEmptyChunks_eq (events ++ rest)
  obtain ⟨m, hm⟩ := skipEmptyChunks_eq rest
  -- both are zeros in front of the same line, so the bytes are the zeros the one has more
  have hzeros : events ++ replicate (4 * m) (.byte 0) = replicate (4 * k) (.byte 0) := by
    refine @append_cancel_right _ _ (skipEmptyChunks rest) _ ?_
    rw [append_assoc, ← hm, ← h]
    exact hk
  have hlength := congrArg List.length hzeros
  rw [length_append, length_replicate, length_replicate] at hlength
  have hall : events = replicate events.length (.byte 0) := by
    refine eq_replicate_iff.mpr ⟨rfl, fun e he => ?_⟩
    exact eq_of_mem_replicate (hzeros ▸ mem_append_left _ he)
  rw [hall, show events.length = 4 * (k - m) from by omega]
  exact skipEmptyChunks_replicate _

/-- The line as the next call reads it. -/
def asRead (cfg : Config) (events : List Event) : List Event :=
  if cfg.chunkedRecv then skipEmptyChunks events else events

theorem asRead_append_iff (cfg : Config) (events rest : List Event) :
    asRead cfg (events ++ rest) = asRead cfg rest ↔ asRead cfg events = [] := by
  unfold asRead
  split
  · exact skipEmptyChunks_append_iff events rest
  · rw [eq_comm]
    exact self_eq_append_left

/-! ## §2. Where the response ends. -/

section ResponseEnd

variable {σ : Type} [ByteStream Error σ] [Duplex σ]

/-- What is left behind the response of a query that breaches the budget, if it is read up to
    the breach and discarded from there through the same readers, up to and with the terminal
    packet: the rest of the last chunk, and the stream. -/
def responseEnd (cancel : Read σ Unit) (cfg : Config) (s : σ) : Option (Bytes × σ) :=
  if cfg.chunkedRecv then
    match Call.body cfg (.query none []) (Dechunking.new s cfg.fuel) with
    | (.error (.error (.responseTooLarge _ _)), d) =>
      match (do
        Dechunking.onInner cancel
        readResponseRowCount cfg.env cfg.reply cfg.fuel) { d with turns := cfg.fuel } with
      | (.ok _, d) => some (d.chunk, d.inner)
      | _ => none
    | _ => none
  else
    match Call.body cfg (.query none []) s with
    | (.error (.error (.responseTooLarge _ _)), s) =>
      match (do
        cancel
        readResponseRowCount cfg.env cfg.reply cfg.fuel) s with
      | (.ok _, s) => some ([], s)
      | _ => none
    | _ => none

/-- The discarding behind a breach at the end of a chunk. -/
def discardRest (cancel : Read σ Unit) (cfg : Config) (s : σ) :
    Readout Nat × Bytes × σ :=
  match cancel s with
  | (.ok (), s) => leaves cfg (readResponseRowCount cfg.env cfg.reply cfg.fuel) s
  | (.error e, s) => (.error e, [], s)

variable {cancel : Read σ Unit} {cfg : Config} {s s₁ : σ} {limit used : Nat}

/-- Where the breach leaves nothing of a chunk, a second chunked reader goes on where the
    first one has stopped. -/
theorem responseEnd_of_breach
    (hbreach : leaves cfg (Call.body cfg (.query none [])) s
      = (.error (.error (.responseTooLarge limit used)), [], s₁)) :
    responseEnd cancel cfg s = match discardRest cancel cfg s₁ with
      | (.ok _, chunk, s₂) => some (chunk, s₂)
      | _ => none := by
  unfold responseEnd discardRest
  by_cases hchunked : cfg.chunkedRecv = true
  · rw [leaves_chunked hchunked] at hbreach
    rw [if_pos hchunked]
    rcases hd : Call.body cfg (.query none []) (Dechunking.new s cfg.fuel) with ⟨res, d⟩
    rw [hd] at hbreach
    obtain ⟨inner, chunk, turns⟩ := d
    obtain ⟨rfl, rfl, rfl⟩ := hbreach
    dsimp only
    rw [bind_apply]
    unfold Dechunking.onInner
    cases cancel inner with
    | mk res' s' => cases res' with
      | error e => rfl
      | ok _ =>
        dsimp only
        rw [leaves_chunked hchunked]
        show (match readResponseRowCount cfg.env cfg.reply cfg.fuel
          (Dechunking.new s' cfg.fuel) with
          | (.ok _, d) => some (d.chunk, d.inner)
          | _ => none) = _
        cases readResponseRowCount cfg.env cfg.reply cfg.fuel (Dechunking.new s' cfg.fuel) with
        | mk res'' d => cases res'' <;> rfl
  · rw [leaves_plain hchunked] at hbreach
    rw [if_neg hchunked]
    rcases hd : Call.body cfg (.query none []) s with ⟨res, s'⟩
    rw [hd] at hbreach
    obtain ⟨rfl, rfl⟩ := hbreach
    dsimp only
    rw [bind_apply]
    cases cancel s' with
    | mk res' s₂ => cases res' with
      | error e => rfl
      | ok _ =>
        dsimp only
        rw [leaves_plain hchunked]
        cases readResponseRowCount cfg.env cfg.reply cfg.fuel s₂ with
        | mk res'' s₃ => cases res'' <;> rfl

/-- Where Cancel cannot be written, nothing is discarded. -/
theorem responseEnd_of_cancel {chunk : Bytes} {e : Stop Error} {s₂ : σ}
    (hbreach : leaves cfg (Call.body cfg (.query none [])) s
      = (.error (.error (.responseTooLarge limit used)), chunk, s₁))
    (hcancel : cancel s₁ = (.error e, s₂)) : responseEnd cancel cfg s = none := by
  unfold responseEnd
  by_cases hchunked : cfg.chunkedRecv = true
  · rw [leaves_chunked hchunked] at hbreach
    rw [if_pos hchunked]
    rcases hd : Call.body cfg (.query none []) (Dechunking.new s cfg.fuel) with ⟨res, d⟩
    rw [hd] at hbreach
    obtain ⟨inner, chunk', turns⟩ := d
    obtain ⟨rfl, rfl, rfl⟩ := hbreach
    dsimp only
    rw [bind_apply]
    unfold Dechunking.onInner
    dsimp only
    rw [hcancel]
  · rw [leaves_plain hchunked] at hbreach
    rw [if_neg hchunked]
    rcases hd : Call.body cfg (.query none []) s with ⟨res, s'⟩
    rw [hd] at hbreach
    obtain ⟨rfl, rfl⟩ := hbreach
    dsimp only
    rw [bind_error hcancel]

theorem discardRest_alike {τ : Type} [ByteStream Error τ] [Duplex τ] {R : σ → τ → Prop}
    (hR : DuplexAlike R) {cancel' : Read τ Unit} (hcancel : Lock R cancel cancel')
    (cfg : Config) {s' : τ} (h : R s s') :
    (discardRest cancel cfg s).1 = (discardRest cancel' cfg s').1 ∧
      (discardRest cancel cfg s).2.1 = (discardRest cancel' cfg s').2.1 ∧
      R (discardRest cancel cfg s).2.2 (discardRest cancel' cfg s').2.2 := by
  unfold discardRest
  rcases hx : cancel s with ⟨res, s₁⟩
  obtain ⟨t₁, hy, hrel⟩ := hcancel.run h hx
  rw [hy]
  cases res with
  | error e => exact ⟨rfl, rfl, hrel⟩
  | ok _ => exact leaves_alike hR cfg (rowCount_uniform cfg) hrel

end ResponseEnd

/-- `write_cancel_packet` through the buffered reader. -/
def readerCancel : Read TransportReader Unit :=
  TransportReader.onInner (Transport.onControl Control.writeCancel)

/-- The end of the response on the line. -/
def lineEnd (cfg : Config) (t : Transport) : Option (Bytes × Line) :=
  responseEnd (Line.onControl Control.writeCancel) cfg t.line

/-- The end of the response in the buffered reader of the query. -/
def readerEnd (cfg : Config) (t : Transport) : Option (Bytes × TransportReader) :=
  responseEnd readerCancel cfg (.new t cfg.readBufferSize)

/-- The breach falls on the end of a chunk, if there are chunks. -/
def BreachEndsChunk (cfg : Config) (l : Line) : Prop :=
  (leaves cfg (Call.body cfg (.query none [])) l).2.1 = []

/-- Cancel cannot be written. -/
def CancelFails (cfg : Config) (l : Line) : Prop :=
  ∃ e l', Line.onControl Control.writeCancel
    (leaves cfg (Call.body cfg (.query none [])) l).2.2 = (.error e, l')

/-- **A clean or a dead connection**: it has been shut down, or everything through the
    terminal packet has been taken off the socket and nothing behind it, empty chunks apart. -/
def Recovered (cfg : Config) (t t' : Transport) : Prop :=
  t'.control.shut = true ∨
    ∃ l', lineEnd cfg t = some ([], l') ∧ asRead cfg t'.line.events = asRead cfg l'.events

/-- **Nothing is read ahead of the terminal packet**, where the response has one: it ends its
    chunk, and the buffered reader has nothing behind it but empty chunks. -/
def EndsClean (cfg : Config) (t : Transport) : Prop :=
  ∀ chunk r, readerEnd cfg t = some (chunk, r) →
    chunk = [] ∧ asRead cfg (r.buf.map .byte) = []

/-! ## §3. Sockets that are not shut down. -/

section Open

/-- The socket has not been shut down. -/
def Control.Open (c : Control) : Prop := c.shut = false

theorem write_open (parts : List Bytes) :
    Lock (Stays Control.Open) (Control.write parts) (Control.write parts) := by
  refine stays_lock fun c hc => ?_
  unfold Control.write
  rw [if_neg (by rw [hc]; decide)]
  rcases c.outlet.writeParts false parts with ⟨out, o⟩
  cases out <;> exact hc

theorem writePacket_open (pkt : Bytes) :
    Lock (Stays Control.Open) (Control.writePacket pkt) (Control.writePacket pkt) := by
  refine stays_lock fun c hc => ?_
  unfold Control.writePacket
  split
  · exact stays_run (write_open _) hc
  · exact hc

theorem writeNative_open (pkt : Bytes) :
    Lock (Stays Control.Open) (Control.writeNative pkt) (Control.writeNative pkt) :=
  .bind (writePacket_open pkt) fun _ => write_open _

theorem writeCancel_open :
    Lock (Stays Control.Open) Control.writeCancel Control.writeCancel := by
  refine stays_lock fun c hc => ?_
  unfold Control.writeCancel
  split
  · exact stays_run (writePacket_open _) hc
  · exact stays_run (writeNative_open _) hc

theorem writeNative_shut {c : Control} (h : c.shut = true) (pkt : Bytes) :
    ∃ e, Control.writeNative pkt c = (.error e, c) := by
  have hwrite : ∀ parts, Control.write parts c = (.error (.error (.io .other)), c) := fun parts =>
    if_pos h
  cases hparts : packetParts c.chunkedSend pkt with
  | ok parts =>
    have hpacket : Control.writePacket pkt c = (.error (.error (.io .other)), c) := by
      unfold Control.writePacket
      rw [hparts]
      exact hwrite parts
    exact ⟨_, bind_error hpacket⟩
  | error e =>
    have hpacket : Control.writePacket pkt c = (.error (.error e), c) := by
      unfold Control.writePacket
      rw [hparts]
    exact ⟨_, bind_error hpacket⟩

theorem request_ne_nil (call : Call) : ∃ pkt more, call.request = pkt :: more := by
  cases call with
  | query ignored request | execute ignored request => cases ignored <;> exact ⟨_, _, rfl⟩
  | _ => exact ⟨_, _, rfl⟩

/-- A socket that takes the packets of a call is not shut down. -/
theorem open_of_sent {call : Call} {t sent : Transport}
    (h : Transport.onControl (forEach Control.writeNative call.request) t = (.ok (), sent)) :
    sent.control.Open := by
  unfold Transport.onControl at h
  rcases hwrite : forEach Control.writeNative call.request t.control with ⟨res, c⟩
  rw [hwrite] at h
  cases h
  have hopen : t.control.Open := by
    by_contra hshut
    obtain ⟨pkt, more, hrequest⟩ := request_ne_nil call
    obtain ⟨e, hfails⟩ := writeNative_shut (Bool.not_eq_false _ ▸ hshut) pkt
    rw [hrequest] at hwrite
    cases (bind_error hfails).symm.trans hwrite
  have hkept := stays_run (Lock.forEach (fun pkt => writeNative_open pkt) call.request) hopen
  rw [hwrite] at hkept
  exact hkept

/-- The line of a socket that has not been shut down. -/
def Line.Open (l : Line) : Prop := l.control.Open

theorem line_onControl_open {α : Type} {x : Read Control α}
    (h : Lock (Stays Control.Open) x x) :
    Lock (Stays Line.Open) (Line.onControl x) (Line.onControl x) :=
  stays_lock fun _ hl => stays_run h hl

/-- Nothing a call does shuts the socket down. -/
theorem line_open : DuplexAlike (Stays Line.Open) where
  reads n := stays_lock fun l hl => by
    show Line.Open (Line.read n l).2
    unfold Line.read
    split <;> exact hl
  expired := line_onControl_open (stays_lock fun _ hc => hc)
  write pkt := line_onControl_open (writeNative_open pkt)

end Open

/-! ## §4. The recovery. -/

variable {cfg : Config} {t t' : Transport} {limit used : Nat}

theorem recover_eq (cfg : Config) (r : TransportReader) :
    recover cfg r = ((discardRest readerCancel cfg r).1.map fun _ => (),
      (discardRest readerCancel cfg r).2.2) := by
  unfold recover discardRest
  rw [bind_apply, show TransportReader.onInner (Transport.onControl Control.writeCancel)
    = readerCancel from rfl]
  rcases readerCancel r with ⟨res, r₁⟩
  rcases res with e | _
  · rfl
  dsimp only
  rw [bind_apply, overChunks_eq]
  generalize leaves cfg (readResponseRowCount cfg.env cfg.reply cfg.fuel) r₁ = out
  obtain ⟨res, chunk, r₂⟩ := out
  cases res <;> rfl

/-- What a query that breaches its budget does. -/
theorem receiveBlocks_cases
    (hquery : receiveBlocks cfg t = (.error (.error (.responseTooLarge limit used)), t')) :
    ∃ chunk r, leaves cfg (Call.body cfg (.query none [])) (TransportReader.new t cfg.readBufferSize)
        = (.error (.error (.responseTooLarge limit used)), chunk, r) ∧
      ((∃ e r', recover cfg r = (.error (.error e), r') ∧ t' = r'.inner.shutdown) ∨
        ∃ r', recover cfg r = (.ok (), r') ∧ t' = r'.inner) := by
  unfold receiveBlocks at hquery
  rw [overChunks_eq] at hquery
  generalize leaves cfg (Call.body cfg (.query none []))
    (TransportReader.new t cfg.readBufferSize) = out at hquery ⊢
  obtain ⟨res, chunk, r⟩ := out
  dsimp only at hquery
  split at hquery
  · rename_i limit' used' r₁ hout
    cases hout
    rcases hr : recover cfg r with ⟨res, r'⟩
    rw [hr] at hquery
    rcases res with (e | _) | _
    · cases hquery
      exact ⟨chunk, r, rfl, .inl ⟨e, r', hr, rfl⟩⟩
    · cases hquery
    · cases hquery
      exact ⟨chunk, r, rfl, .inr ⟨r', hr, rfl⟩⟩
  · rename_i hne hout
    cases hout
    cases hquery
    exact (hne _ _ rfl).elim

/-- **What the recovery does**, on the socket and on the line: it fails, and the socket is shut
    down, or both end behind the terminal packet. -/
theorem drained_of_breach (hchunk : BreachEndsChunk cfg t.line ∨ CancelFails cfg t.line)
    (hquery : receiveBlocks cfg t = (.error (.error (.responseTooLarge limit used)), t')) :
    (t'.control.shut = true ∧ readerEnd cfg t = none) ∨
      ∃ r chunk l', t' = r.inner ∧ readerEnd cfg t = some (chunk, r) ∧
        lineEnd cfg t = some (chunk, l') ∧ Ahead [] r l' := by
  obtain ⟨chunk, r, hleaves, hrecover⟩ := receiveBlocks_cases hquery
  -- the same on the line, up to the breach and behind it
  obtain ⟨hres, hsame, hrel⟩ := leaves_alike transportReader_alike cfg
    (body_uniform cfg (.query none []))
    (Ahead.new (level_line (append_nil _).symm) cfg.readBufferSize : Ahead [] _ t.line)
  rw [hleaves] at hres hsame hrel
  have hline : leaves cfg (Call.body cfg (.query none [])) t.line
      = (.error (.error (.responseTooLarge limit used)), chunk,
        (leaves cfg (Call.body cfg (.query none [])) t.line).2.2) :=
    Prod.ext hres.symm (Prod.ext hsame.symm rfl)
  have hcancel : Lock (Ahead []) readerCancel (Line.onControl Control.writeCancel) :=
    ahead_control_lock _
  obtain ⟨hres', hsame', hrel'⟩ := discardRest_alike transportReader_alike hcancel cfg hrel
  rw [recover_eq] at hrecover
  rcases hchunk with hends | ⟨e, l', hfails⟩
  · obtain rfl : chunk = [] := hsame.trans hends
    have hreader : readerEnd cfg t = _ := responseEnd_of_breach hleaves
    have hlineEnd : lineEnd cfg t = _ := responseEnd_of_breach hline
    generalize discardRest readerCancel cfg r = out at *
    generalize discardRest (Line.onControl Control.writeCancel) cfg _ = out' at *
    obtain ⟨res, chunk, r'⟩ := out
    obtain ⟨res', chunk', l'⟩ := out'
    obtain rfl : res = res' := hres'
    obtain rfl : chunk = chunk' := hsame'
    rcases hrecover with ⟨e, r₂, hout, rfl⟩ | ⟨r₂, hout, rfl⟩
    · cases res with
      | error e' => exact .inl ⟨rfl, hreader⟩
      | ok rows => cases hout
    · cases res with
      | error e' => cases hout
      | ok rows =>
        cases hout
        exact .inr ⟨r', chunk, l', rfl, hreader, hlineEnd, hrel'⟩
  · -- Cancel is not written: nothing is discarded, and no second chunked reader is made
    rcases hx : readerCancel r with ⟨res, r₁⟩
    obtain ⟨l₁, hy, _⟩ := hcancel.run hrel hx
    rw [hfails] at hy
    cases hy
    have hdiscard : discardRest readerCancel cfg r = (.error e, [], r₁) := by
      unfold discardRest
      rw [hx]
    rw [hdiscard] at hrecover
    rcases hrecover with ⟨e', r₂, hout, rfl⟩ | ⟨r₂, hout, rfl⟩
    · exact .inl ⟨rfl, responseEnd_of_cancel hleaves hx⟩
    · cases hout

/-- The end of the response on the line of an open socket is open. -/
theorem lineEnd_open (hopen : t.control.Open) {chunk : Bytes} {l' : Line}
    (h : lineEnd cfg t = some (chunk, l')) : l'.Open := by
  have hcancel : Lock (Stays Line.Open) (Line.onControl Control.writeCancel) _ :=
    line_onControl_open writeCancel_open
  have hchunked := dechunking_alike line_open
  unfold lineEnd responseEnd at h
  split at h
  · split at h
    · rename_i limit used d hd
      have hfirst : Line.Open
          (Call.body cfg (.query none []) (Dechunking.new t.line cfg.fuel)).2.inner :=
        (body_uniform cfg (.query none []) hchunked (.new t.line cfg.fuel) _
          ⟨⟨rfl, hopen⟩, rfl, rfl⟩).2.1.2
      rw [hd] at hfirst
      have hrest := (Lock.bind (dechunking_onInner_lock hcancel)
        (fun _ => rowCount_uniform cfg hchunked) { d with turns := cfg.fuel } _
        ⟨⟨rfl, hfirst⟩, rfl, rfl⟩).2.1.2
      split at h
      · rename_i rows d' hd'
        cases h
        rw [hd'] at hrest
        exact hrest
      · cases h
    · cases h
  · split at h
    · rename_i limit used l hl
      have hfirst : (Call.body cfg (.query none []) t.line).2.Open :=
        stays_run (body_uniform cfg (.query none []) line_open) hopen
      rw [hl] at hfirst
      have hrest := stays_run (Lock.bind hcancel fun _ => rowCount_uniform cfg line_open) hfirst
      split at h
      · rename_i rows l'' hl''
        cases h
        rw [hl''] at hrest
        exact hrest
      · cases h
    · cases h

/-- **Budget recovery leaves a clean or a dead connection**, where the breach falls on the end
    of a chunk, or there are none, or Cancel cannot be written, exactly if nothing is read
    ahead of the terminal packet; `sent` is the socket once the query is on its way. -/
theorem query_recovers {sent : Transport} {ignored : Option Bytes} {request : Bytes}
    (hsent : Transport.onControl
      (forEach Control.writeNative (Call.query ignored request).request) t = (.ok (), sent))
    (hchunk : BreachEndsChunk cfg sent.line ∨ CancelFails cfg sent.line)
    (hquery : (Call.query ignored request).run cfg t
      = (.error (.error (.responseTooLarge limit used)), t')) :
    Recovered cfg sent t' ↔ EndsClean cfg sent := by
  unfold Call.run at hquery
  rw [bind_ok hsent] at hquery
  rcases drained_of_breach hchunk hquery with ⟨hshut, hnone⟩ | ⟨r, chunk, l', rfl, hreader, hline, hahead⟩
  · refine iff_of_true (.inl hshut) fun chunk r hsome => ?_
    rw [hnone] at hsome
    cases hsome
  have hopen : r.inner.control.Open := by
    have hl' := lineEnd_open (open_of_sent hsent) hline
    unfold Line.Open at hl'
    rwa [hahead.control] at hl'
  -- what the reader has read ahead stands between the line and the socket
  have hevents : asRead cfg r.inner.line.events = asRead cfg l'.events
      ↔ asRead cfg (r.buf.map .byte) = [] := by
    rw [hahead.events, eq_comm]
    exact asRead_append_iff cfg _ _
  constructor
  · rintro (hshut | ⟨l'', hl'', hsame⟩) chunk' r' hsome
    · rw [hopen] at hshut
      cases hshut
    rw [hline] at hl''
    rw [hreader] at hsome
    cases hl''
    cases hsome
    exact ⟨rfl, hevents.mp hsame⟩
  · intro hclean
    obtain ⟨rfl, hbuf⟩ := hclean chunk r hreader
    exact .inr ⟨l', hline, hevents.mpr hbuf⟩

/-- A Data packet with one row of one UInt8 column. -/
def dataPacket : Bytes := [0, 0, 1, 1, 1, 97, 5, 85, 73, 110, 116, 56, 0, 7]

/-- A connection with a budget of nothing. -/
def tightConfig (chunkedRecv : Bool) : Config :=
  ⟨⟨copyCodec, 4⟩, 8, ⟨0, false⟩, chunkedRecv, 8192, 0⟩

/-- A response of two chunks, each with the empty chunk that ends it, in two segments: a block,
    and a Progress packet and EndOfStream. -/
def twoChunks : List Segment :=
  [.bytes 15 ([0, 0, 0, 1] ++ dataPacket ++ [0, 0, 0, 0]),
    .bytes 5 [0, 0, 0, 3, 1, 1, 5, 5, 0, 0, 0, 0]]

/-- The breach ends the first chunk, and the last empty chunk is read ahead: the connection is
    clean. -/
theorem query_recovers_twoChunks :
    (Call.query none [9]).run (tightConfig true) (openSocket twoChunks)
        = (.error (.error (.responseTooLarge 0 1)), ⟨[], ⟨⟨[9, 3], []⟩, [], false, false⟩⟩) ∧
      Recovered (tightConfig true) ⟨twoChunks, ⟨⟨[9], []⟩, [], false, false⟩⟩
        ⟨[], ⟨⟨[9, 3], []⟩, [], false, false⟩⟩ := by
  have hquery : (Call.query none [9]).run (tightConfig true) (openSocket twoChunks)
      = (.error (.error (.responseTooLarge 0 1)), ⟨[], ⟨⟨[9, 3], []⟩, [], false, false⟩⟩) := by
    decide +kernel
  have hend : readerEnd (tightConfig true) ⟨twoChunks, ⟨⟨[9], []⟩, [], false, false⟩⟩
      = some ([], ⟨⟨[], ⟨⟨[9, 3], []⟩, [], false, false⟩⟩, [0, 0, 0, 0], 8192⟩) := by
    decide +kernel
  refine ⟨hquery, (query_recovers (by decide +kernel)
    (.inl (by unfold BreachEndsChunk; decide +kernel)) hquery).mpr ?_⟩
  intro chunk r h
  rw [hend] at h
  cases h
  exact ⟨rfl, by decide⟩

/-- A response in three chunks: a block and the first bytes of a Progress packet, the last
    byte of that packet, and EndOfStream. -/
def cutProgress : Transport :=
  openSocket [.bytes 18 ([0, 0, 0, 1] ++ dataPacket ++ [3, 1, 1] ++ [1, 0, 0, 0, 5]),
    .bytes 1 [0, 0, 0, 5]]

/-- **The discarding ends inside the response**: the last byte of the Progress packet reads
    as EndOfStream.  The real one is left on a socket that has not been shut down, and the
    next query takes it for its whole response. -/
theorem drained_astray :
    (Call.query none [9]).run (tightConfig true) cutProgress
        = (.error (.error (.responseTooLarge 0 1)),
          ⟨[.bytes 1 [0, 0, 0, 5]], ⟨⟨[9, 3], []⟩, [], false, false⟩⟩) ∧
      ¬ Recovered (tightConfig true) cutProgress
        ⟨[.bytes 1 [0, 0, 0, 5]], ⟨⟨[9, 3], []⟩, [], false, false⟩⟩ ∧
      (Call.query none [9]).run (tightConfig true) (openSocket [.bytes 1 [0, 0, 0, 5]])
        = (.ok (.blocks []), ⟨[], ⟨⟨[9], []⟩, [], false, false⟩⟩) := by
  refine ⟨by decide +kernel, ?_, by decide +kernel⟩
  have hend : lineEnd (tightConfig true) cutProgress
      = some ([], ⟨[], ⟨⟨[3], []⟩, [], false, false⟩⟩) := by
    decide +kernel
  intro h
  obtain hshut | ⟨l', hl', hevents⟩ := h
  · cases hshut
  rw [hend] at hl'
  cases hl'
  cases hevents

end Sync

end StClickHouse
