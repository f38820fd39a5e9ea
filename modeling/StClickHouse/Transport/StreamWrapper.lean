/-
  StClickHouse.Transport.StreamWrapper
  **THE RECEIVING SIDE OF THE ASYNC TRANSPORT.**

  `StreamWrapper` (`pool.rs`) between the socket and the packet readers.  With chunked
  framing `poll_read` strips the four-byte lengths, and keeps a half-read length and a
  half-filled chunk between two polls; without it `read_buffered` reads ahead into a
  window of 8 KiB.
-/
import StClickHouse.Lib.Socket
import StClickHouse.Wire.Primitives

namespace StClickHouse

open ByteReader List

/-! ## §1. Chunks. -/

/-- Largest payload of one chunk (64 MiB). -/
def maxChunkLen : Nat := 64 * 1024 * 1024

/-- Capacity of the read-ahead window. -/
def readBufCap : Nat := 8 * 1024

/-- A chunk on the wire: its length in four bytes, then its payload. -/
def chunkFrame (payload : Bytes) : Bytes := leBytes 4 payload.length ++ payload

/-- A sequence of chunks on the wire. -/
def chunkStream (chunks : List Bytes) : Bytes := chunks.flatMap chunkFrame

@[simp] theorem chunkStream_cons (c : Bytes) (cs : List Bytes) :
    chunkStream (c :: cs) = leBytes 4 c.length ++ (c ++ chunkStream cs) := by
  unfold chunkStream
  rw [flatMap_cons, chunkFrame, append_assoc]

/-- An I/O error with its text. -/
structure IoError where
  kind : IoKind
  text : String
  deriving Repr, DecidableEq

/-! ## §2. The wrapper. -/

/-- The transport wrapper: the socket, the chunk being received and the read-ahead
    window. -/
structure StreamWrapper where
  inner : Socket IoError
  useChunkedRecv : Bool
  chunk : Bytes
  chunkPos : Nat
  chunkFill : Nat
  lenBuf : Bytes
  lenPos : Nat
  rdBuf : Bytes
  rdPos : Nat
  rdFill : Nat

namespace StreamWrapper

/-- A new wrapper around a socket. -/
def tcp (stream : Socket IoError) : StreamWrapper where
  inner := stream
  useChunkedRecv := false
  chunk := []
  chunkPos := 0
  chunkFill := 0
  lenBuf := List.replicate 4 0
  lenPos := 0
  rdBuf := List.replicate readBufCap 0
  rdPos := 0
  rdFill := 0

variable (w : StreamWrapper)

/-- Choose the framing; what either framing has buffered is dropped. -/
def setChunked (recv : Bool) : StreamWrapper :=
  { w with useChunkedRecv := recv, chunk := [], chunkPos := 0, chunkFill := 0, lenPos := 0,
           rdPos := 0, rdFill := 0 }

/-- How a piece of `poll_read` ends: the poll returns, or goes on, or starts over. -/
inductive Flow where
  | ret (r : Polled IoError) (w : StreamWrapper)
  | next (w : StreamWrapper)
  | again (w : StreamWrapper)

/-- Drop a chunk that has been received and consumed. -/
def dropConsumed : StreamWrapper :=
  if w.chunk ≠ [] ∧ w.chunkFill = w.chunk.length then
    { w with chunk := [], chunkPos := 0, chunkFill := 0 }
  else w

/-- The length in four bytes, little-endian; a chunk of no bytes starts over. -/
def takeLength : Flow :=
  let len := leNat w.lenBuf
  let w := { w with lenPos := 0 }
  if len = 0 then .again w
  else if len > maxChunkLen then
    .ret (.fault ⟨.invalidData, "chunked transport chunk length " ++ toString len
      ++ " exceeds maximum " ++ toString maxChunkLen⟩) w
  else .next { w with chunk := resizeZero w.chunk len }

/-- The loop that fills `len_buf`. -/
def fillLength : Option (Polled IoError) × Filling IoError :=
  Filling.run ⟨.unexpectedEof, "unexpected EOF while reading chunk length"⟩
    ⟨w.inner, w.lenBuf, w.lenPos⟩

/-- The loop that fills `chunk`. -/
def fillPayload : Option (Polled IoError) × Filling IoError :=
  Filling.run ⟨.unexpectedEof, "unexpected EOF while reading chunk payload"⟩
    ⟨w.inner, w.chunk, w.chunkFill⟩

/-- Where no chunk is in progress: read the rest of the next one's length. -/
def readLength : Flow :=
  if w.chunk ≠ [] then .next w
  else
    match w.fillLength with
    | (some r, f) => .ret r { w with inner := f.socket, lenBuf := f.buf, lenPos := f.pos }
    | (none, f) => takeLength { w with inner := f.socket, lenBuf := f.buf, lenPos := f.pos }

/-- Read the rest of the chunk's payload. -/
def readPayload : Flow :=
  match w.fillPayload with
  | (some r, f) => .ret r { w with inner := f.socket, chunk := f.buf, chunkFill := f.pos }
  | (none, f) => .again { w with inner := f.socket, chunk := f.buf, chunkFill := f.pos }

/-- The loop of `poll_read` with chunked framing. -/
def pollChunked : Nat → Nat → StreamWrapper → Polled IoError × StreamWrapper
  | 0, _, w => (.pending, w)
  | fuel + 1, room, w =>
    if w.chunkPos < w.chunkFill then
      -- only what lies before `chunk_fill` has been received
      let n := min room (w.chunkFill - w.chunkPos)
      (.bytes ((w.chunk.drop w.chunkPos).take n), { w with chunkPos := w.chunkPos + n })
    else
      match w.dropConsumed.readLength with
      | .ret r w => (r, w)
      | .again w => pollChunked fuel room w
      | .next w =>
        match w.readPayload with
        | .ret r w => (r, w)
        | .next w | .again w => pollChunked fuel room w

/-- The loop of `read_buffered`: a refill, then at most one more turn. -/
def serveBuffered (room : Nat) (w : StreamWrapper) : Polled IoError × StreamWrapper :=
  let n := min room (w.rdFill - w.rdPos)
  (.bytes ((w.rdBuf.drop w.rdPos).take n), { w with rdPos := w.rdPos + n })

/-- The read without framing: what has been read ahead comes first. -/
def readBuffered (room : Nat) (w : StreamWrapper) : Polled IoError × StreamWrapper :=
  if w.rdPos = w.rdFill ∧ room ≥ w.rdBuf.length then
    -- a request for a whole window goes past it
    let (r, s) := w.inner.read room
    (r, { w with inner := s })
  else if w.rdPos < w.rdFill then serveBuffered room w
  else
    match w.inner.read w.rdBuf.length with
    | (.bytes bs, s) =>
      let w := { w with inner := s, rdBuf := overwrite w.rdBuf 0 bs, rdPos := 0,
                        rdFill := bs.length }
      if bs = [] then (.bytes [], w) else serveBuffered room w
    | (r, s) => (r, { w with inner := s })

/-- One `poll_read` into a buffer with the given room.  Every turn of the loop that does
    not return has read the four bytes of a length, or has chunk bytes to serve. -/
def pollRead (room : Nat) (w : StreamWrapper) : Polled IoError × StreamWrapper :=
  if w.useChunkedRecv then pollChunked (w.inner.wire.length + 2) room w
  else readBuffered room w

/-! ## §3. What is still to be delivered. -/

variable {room : Nat}

section Window

variable {buf : Bytes} {pos fill : Nat}

/-- A read from a window takes the next bytes of what is in it. -/
theorem window_serve (buf : Bytes) (pos fill room : Nat) :
    (buf.take fill).drop pos = (buf.drop pos).take (min room (fill - pos))
      ++ (buf.take fill).drop (pos + min room (fill - pos)) := by
  have hserved : (buf.drop pos).take (min room (fill - pos))
      = ((buf.take fill).drop pos).take (min room (fill - pos)) := by
    rw [drop_take, take_take, Nat.min_eq_left (min_le_right _ _)]
  rw [hserved, ← drop_drop, take_append_drop]

theorem window_serves (hroom : 0 < room) (hlt : pos < fill) (hfill : fill ≤ buf.length) :
    (buf.drop pos).take (min room (fill - pos)) ≠ [] := by
  apply ne_nil_of_length_pos
  rw [length_take, length_drop]
  omega

theorem window_empty (h : fill ≤ pos) : (buf.take fill).drop pos = [] :=
  drop_eq_nil_of_le (by rw [length_take]; omega)

end Window

/-- A wrapper between two polls of the chunked receive: the payload bytes still to be
    delivered.  `lost` is the part of the stream that never arrives. -/
inductive Receiving (lost : Bytes) (w : StreamWrapper) (rest : Bytes) : Prop
  /-- No chunk is in progress; of the next length some bytes have been read. -/
  | between {cs : List Bytes} (mode : w.useChunkedRecv = true)
      (caps : ∀ c ∈ cs, c.length ≤ maxChunkLen)
      (chunk : w.chunk = []) (pos : w.chunkPos = 0) (fill : w.chunkFill = 0)
      (lenBuf : w.lenBuf.length = 4) (lenPos : w.lenPos < 4)
      (wire : w.lenBuf.take w.lenPos ++ (w.inner.wire ++ lost) = chunkStream cs)
      (due : rest = cs.flatten)
  /-- A chunk is in progress; of its payload the tail has not been received. -/
  | within {cs : List Bytes} {tail : Bytes} (mode : w.useChunkedRecv = true)
      (caps : ∀ c ∈ cs, c.length ≤ maxChunkLen)
      (chunk : w.chunk ≠ []) (pos : w.chunkPos ≤ w.chunkFill)
      (fill : w.chunkFill + tail.length = w.chunk.length)
      (lenBuf : w.lenBuf.length = 4) (lenPos : w.lenPos = 0)
      (wire : w.inner.wire ++ lost = tail ++ chunkStream cs)
      (due : rest = (w.chunk.take w.chunkFill).drop w.chunkPos ++ (tail ++ cs.flatten))

/-- A piece of the poll keeps what is still to be delivered. -/
def Flow.Keeps (lost rest : Bytes) : Flow → Prop
  | .ret r w => r.got = [] ∧ Receiving lost w rest
  | .next w => w.chunk ≠ [] ∧ w.chunkFill ≤ w.chunkPos ∧ Receiving lost w rest
  | .again w => Receiving lost w rest

variable {lost rest : Bytes} {w : StreamWrapper}

theorem Receiving.dropConsumed (h : Receiving lost w rest) (hserved : w.chunkFill ≤ w.chunkPos) :
    Receiving lost w.dropConsumed rest ∧
      w.dropConsumed.chunkFill ≤ w.dropConsumed.chunkPos ∧ w.dropConsumed.inner = w.inner := by
  unfold StreamWrapper.dropConsumed
  by_cases hdone : w.chunk ≠ [] ∧ w.chunkFill = w.chunk.length
  · rw [if_pos hdone]
    refine ⟨?_, le_rfl, rfl⟩
    cases h with
    | between _ _ chunk => exact absurd chunk hdone.1
    | @within cs tail mode caps _ pos fill lenBuf lenPos wire due =>
      have htail : tail = [] := eq_nil_of_length_eq_zero (by omega)
      rw [htail] at wire due
      rw [window_empty hserved] at due
      refine .between mode caps rfl rfl rfl lenBuf (by rw [lenPos]; decide) ?_ due
      rw [lenPos]
      exact wire
  · rw [if_neg hdone]
    exact ⟨h, hserved, rfl⟩

/-- The four bytes of a length have been read and no chunk is in progress. -/
structure LengthRead (lost : Bytes) (cs : List Bytes) (w : StreamWrapper) : Prop where
  mode : w.useChunkedRecv = true
  chunk : w.chunk = []
  pos : w.chunkPos = 0
  fill : w.chunkFill = 0
  lenBuf : w.lenBuf.length = 4
  wire : w.lenBuf ++ (w.inner.wire ++ lost) = chunkStream cs

variable {cs : List Bytes}

/-- The four bytes of a length stand before the payload they announce. -/
theorem LengthRead.keeps (h : LengthRead lost cs w) (caps : ∀ c ∈ cs, c.length ≤ maxChunkLen) :
    w.takeLength.Keeps lost cs.flatten ∧ ∀ {r w'}, w.takeLength ≠ .ret r w' := by
  obtain ⟨mode, chunk, pos, fill, lenBuf, wire⟩ := h
  rcases cs with _ | ⟨c, cs⟩
  · rw [append_eq_nil_iff.mp wire |>.1] at lenBuf
    cases lenBuf
  have hcap := caps c mem_cons_self
  have hcaps := fun d hd => caps d (mem_cons_of_mem c hd)
  rw [chunkStream_cons] at wire
  obtain ⟨hlen, hwire⟩ := append_inj wire (by rw [lenBuf, leBytes_length])
  have hnat : leNat w.lenBuf = c.length := by
    rw [hlen]
    exact leNat_leBytes (lt_of_le_of_lt hcap (by decide))
  unfold takeLength
  rw [hnat]
  by_cases hzero : c.length = 0
  · rw [if_pos hzero]
    obtain rfl := eq_nil_of_length_eq_zero hzero
    exact ⟨.between mode hcaps chunk pos fill lenBuf (Nat.zero_lt_succ 3) hwire rfl,
      Flow.noConfusion⟩
  rw [if_neg hzero, if_neg (not_lt.mpr hcap)]
  have hnil : resizeZero w.chunk c.length ≠ [] := by
    intro hnil
    have hlength := congrArg List.length hnil
    rw [resizeZero_length] at hlength
    exact hzero hlength
  refine ⟨⟨hnil, by rw [fill, pos], ?_⟩, Flow.noConfusion⟩
  refine .within mode hcaps hnil ?_ ?_ lenBuf rfl hwire ?_
  · rw [pos]
    exact Nat.zero_le _
  · rw [fill, resizeZero_length, Nat.zero_add]
  · rw [fill, pos]
    rfl

/-- Reading the rest of a length: the poll is left before all four bytes are there, or
    they are. -/
theorem readLength_between (mode : w.useChunkedRecv = true)
    (caps : ∀ c ∈ cs, c.length ≤ maxChunkLen) (chunk : w.chunk = []) (pos : w.chunkPos = 0)
    (fill : w.chunkFill = 0) (lenBuf : w.lenBuf.length = 4) (lenPos : w.lenPos < 4)
    (wire : w.lenBuf.take w.lenPos ++ (w.inner.wire ++ lost) = chunkStream cs) :
    (∃ r w', w.readLength = .ret r w' ∧ r.got = [] ∧ Receiving lost w' cs.flatten ∧
        ¬ (w.inner.Settled ∧ 4 ≤ w.lenPos + w.inner.wire.length)) ∨
      ∃ w', w.readLength = w'.takeLength ∧ LengthRead lost cs w' ∧
        w'.inner.wire.length < w.inner.wire.length ∧
        (w.inner.Settled → 4 ≤ w.lenPos + w.inner.wire.length → w'.inner.Settled) := by
  obtain ⟨got, hgot⟩ : ∃ got, Filling.Filled ⟨w.inner, w.lenBuf, w.lenPos⟩ w.fillLength.1
      w.fillLength.2 got :=
    Filling.run_overwrites _ _ (by show w.lenPos ≤ w.lenBuf.length; omega)
  have hsettled : w.inner.Settled → 4 ≤ w.lenPos + w.inner.wire.length →
      w.fillLength.1 = none ∧ w.fillLength.2.socket.Settled :=
    fun hset henough => Filling.run_settled _ hset
      (by show w.lenBuf.length - w.lenPos ≤ w.inner.wire.length; omega)
  unfold readLength
  rw [if_neg (not_not.mpr chunk)]
  generalize w.fillLength = out at hgot hsettled
  obtain ⟨r, f⟩ := out
  have hfits : w.lenPos + got.length ≤ w.lenBuf.length := hgot.pos ▸ hgot.inside
  have hpos : f.pos = w.lenPos + got.length := hgot.pos
  have hlen : f.buf.length = 4 := by
    rw [hgot.buf]
    exact (overwrite_length hfits).trans lenBuf
  -- the bytes of the length read so far stand before what is left of the wire
  have hwire : f.buf.take f.pos ++ (f.socket.wire ++ lost) = chunkStream cs := by
    have htake : f.buf.take f.pos = w.lenBuf.take w.lenPos ++ got := by
      rw [hgot.buf, hgot.pos]
      exact take_overwrite (by show w.lenPos ≤ w.lenBuf.length; omega)
    rw [htake, append_assoc, ← append_assoc got, hgot.wire]
    exact wire
  cases r with
  | some r =>
    have hshort : f.pos < 4 := by
      have hne : f.pos ≠ w.lenBuf.length := fun hp => by cases hgot.full.mpr hp
      omega
    refine .inl ⟨r, _, rfl, hgot.silent r rfl,
      .between mode caps chunk pos fill hlen hshort hwire rfl, ?_⟩
    rintro ⟨hset, henough⟩
    cases (hsettled hset henough).1
  | none =>
    have hfull : f.pos = w.lenBuf.length := hgot.full.mp rfl
    rw [take_of_length_le (by omega)] at hwire
    refine .inr ⟨{ w with inner := f.socket, lenBuf := f.buf, lenPos := f.pos }, rfl,
      ⟨mode, chunk, pos, fill, hlen, hwire⟩, ?_, fun hset henough => (hsettled hset henough).2⟩
    have hcount := congrArg List.length hgot.wire
    rw [length_append] at hcount
    show f.socket.wire.length < w.inner.wire.length
    have : got.length + f.socket.wire.length = w.inner.wire.length := hcount
    omega

theorem readLength_keeps (h : Receiving lost w rest) (hserved : w.chunkFill ≤ w.chunkPos) :
    w.readLength.Keeps lost rest := by
  cases h with
  | within mode caps chunk pos fill lenBuf lenPos wire due =>
    unfold readLength
    rw [if_pos chunk]
    exact ⟨chunk, hserved, .within mode caps chunk pos fill lenBuf lenPos wire due⟩
  | between mode caps chunk pos fill lenBuf lenPos wire due =>
    rw [due]
    obtain ⟨r, w', heq, hgot, hkeeps, _⟩ | ⟨w', heq, hread, _, _⟩ :=
      readLength_between mode caps chunk pos fill lenBuf lenPos wire
    · rw [heq]
      exact ⟨hgot, hkeeps⟩
    · rw [heq]
      exact (hread.keeps caps).1

theorem readPayload_keeps (h : Receiving lost w rest) (hchunk : w.chunk ≠ []) :
    w.readPayload.Keeps lost rest := by
  cases h with
  | between _ _ chunk => exact absurd chunk hchunk
  | @within cs tail mode caps _ pos fill lenBuf lenPos wire due =>
    obtain ⟨got, hgot⟩ : ∃ got, Filling.Filled ⟨w.inner, w.chunk, w.chunkFill⟩ w.fillPayload.1
        w.fillPayload.2 got :=
      Filling.run_overwrites _ _ (by show w.chunkFill ≤ w.chunk.length; omega)
    unfold readPayload
    generalize w.fillPayload = out at hgot
    obtain ⟨r, f⟩ := out
    have hfits : w.chunkFill + got.length ≤ w.chunk.length := hgot.pos ▸ hgot.inside
    have hlen : f.buf.length = w.chunk.length := by
      rw [hgot.buf]
      exact overwrite_length hfits
    -- what has been read is the head of the tail
    obtain ⟨tail', rfl⟩ : ∃ tail', tail = got ++ tail' := by
      have hsplit : got ++ (f.socket.wire ++ lost) = tail ++ chunkStream cs := by
        rw [← append_assoc, hgot.wire]
        exact wire
      have hle : got.length ≤ tail.length := by omega
      obtain ⟨tail', ht⟩ := prefix_of_prefix_length_le
        ⟨_, hsplit⟩ ⟨_, rfl⟩ hle
      exact ⟨tail', ht.symm⟩
    have hkeeps : Receiving lost { w with inner := f.socket, chunk := f.buf, chunkFill := f.pos }
        rest := by
      have hpos : f.pos = w.chunkFill + got.length := hgot.pos
      have hwire : f.socket.wire ++ lost = tail' ++ chunkStream cs := by
        have hsplit : got ++ (f.socket.wire ++ lost) = got ++ (tail' ++ chunkStream cs) := by
          rw [← append_assoc, hgot.wire, ← append_assoc]
          exact wire
        exact append_cancel_left hsplit
      refine .within mode caps ?_ ?_ ?_ lenBuf lenPos hwire ?_
      · intro hnil
        rw [show f.buf = [] from hnil] at hlen
        exact hchunk (eq_nil_of_length_eq_zero hlen.symm)
      · show w.chunkPos ≤ f.pos
        omega
      · show f.pos + tail'.length = f.buf.length
        rw [length_append] at fill
        omega
      have htake : f.buf.take f.pos = w.chunk.take w.chunkFill ++ got := by
        rw [hgot.buf, hpos]
        exact take_overwrite (by show w.chunkFill ≤ w.chunk.length; omega)
      show rest = (f.buf.take f.pos).drop w.chunkPos ++ _
      rw [htake, drop_append_of_le_length (by rw [length_take]; omega), due,
        append_assoc, append_assoc]
    cases r with
    | some r => exact ⟨hgot.silent r rfl, hkeeps⟩
    | none => exact hkeeps

theorem Receiving.serve (h : Receiving lost w rest) (hlt : w.chunkPos < w.chunkFill)
    (room : Nat) :
    ∃ rest', rest = (w.chunk.drop w.chunkPos).take (min room (w.chunkFill - w.chunkPos)) ++ rest' ∧
      Receiving lost { w with chunkPos := w.chunkPos + min room (w.chunkFill - w.chunkPos) }
        rest' := by
  cases h with
  | between _ _ _ pos fill => omega
  | @within cs tail mode caps chunk pos fill lenBuf lenPos wire due =>
    refine ⟨_, ?_, .within mode caps chunk ?_ fill lenBuf lenPos wire rfl⟩
    · rw [due, window_serve w.chunk w.chunkPos w.chunkFill room, append_assoc]
    · show w.chunkPos + min room (w.chunkFill - w.chunkPos) ≤ w.chunkFill
      omega

/-- **One poll delivers the next bytes.** -/
theorem pollChunked_delivers (fuel room : Nat) {w : StreamWrapper} {rest : Bytes} :
    Receiving lost w rest → ∃ rest', rest = (pollChunked fuel room w).1.got ++ rest' ∧
      Receiving lost (pollChunked fuel room w).2 rest' := by
  induction fuel generalizing room w rest with
  | zero =>
    intro h
    exact ⟨rest, rfl, h⟩
  | succ fuel ih =>
    intro h
    unfold pollChunked
    by_cases hlt : w.chunkPos < w.chunkFill
    · rw [if_pos hlt]
      exact h.serve hlt room
    rw [if_neg hlt]
    obtain ⟨hdrop, hserved, _⟩ := h.dropConsumed (Nat.le_of_not_lt hlt)
    have hlength := readLength_keeps hdrop hserved
    cases hflow : w.dropConsumed.readLength with
    | ret r w' =>
      rw [hflow] at hlength
      exact ⟨rest, by rw [hlength.1]; rfl, hlength.2⟩
    | again w' =>
      rw [hflow] at hlength
      exact ih room hlength
    | next w' =>
      rw [hflow] at hlength
      have hpayload := readPayload_keeps hlength.2.2 hlength.1
      dsimp only
      cases hflow' : w'.readPayload with
      | ret r w'' =>
        rw [hflow'] at hpayload
        exact ⟨rest, by rw [hpayload.1]; rfl, hpayload.2⟩
      | again w'' =>
        rw [hflow'] at hpayload
        exact ih room hpayload
      | next w'' =>
        rw [hflow'] at hpayload
        exact ih room hpayload.2.2

/-! ## §4. Progress. -/

/-- A piece of the poll does not stop once everything has arrived: it shortens the wire
    or has a byte to serve. -/
def Flow.Advances (n : Nat) : Flow → Prop
  | .ret _ _ => False
  | .next w => w.inner.Settled ∧ w.chunkFill < w.chunk.length
  | .again w => w.inner.Settled ∧ (w.inner.wire.length < n ∨ w.chunkPos < w.chunkFill)

theorem dropConsumed_fill (h : Receiving lost w rest) (hchunk : w.dropConsumed.chunk ≠ []) :
    w.dropConsumed.chunkFill < w.dropConsumed.chunk.length := by
  unfold StreamWrapper.dropConsumed at hchunk ⊢
  by_cases hdone : w.chunk ≠ [] ∧ w.chunkFill = w.chunk.length
  · rw [if_pos hdone] at hchunk
    exact absurd rfl hchunk
  rw [if_neg hdone] at hchunk ⊢
  cases h with
  | between _ _ chunk => exact absurd chunk hchunk
  | within _ _ _ _ fill =>
    have hne : w.chunkFill ≠ w.chunk.length := fun heq => hdone ⟨hchunk, heq⟩
    omega

theorem takeLength_advances {n : Nat} (hset : w.inner.Settled) (hlt : w.inner.wire.length < n)
    (hfill : w.chunkFill = 0) (hret : ∀ {r w'}, w.takeLength ≠ .ret r w') :
    w.takeLength.Advances n := by
  unfold takeLength at hret ⊢
  by_cases hzero : leNat w.lenBuf = 0
  · rw [if_pos hzero]
    exact ⟨hset, .inl hlt⟩
  rw [if_neg hzero] at hret ⊢
  by_cases hcap : leNat w.lenBuf > maxChunkLen
  · rw [if_pos hcap] at hret
    exact absurd rfl hret
  rw [if_neg hcap]
  refine ⟨hset, ?_⟩
  rw [hfill, resizeZero_length]
  exact Nat.pos_of_ne_zero hzero

theorem four_le_chunkStream (h : cs ≠ []) :
    4 ≤ (chunkStream cs).length := by
  rcases cs with _ | ⟨c, cs⟩
  · exact absurd rfl h
  rw [chunkStream_cons, length_append, leBytes_length]
  exact Nat.le_add_right _ _

theorem readLength_advances (h : Receiving [] w rest) (hrest : rest ≠ [])
    (hset : w.inner.Settled) (hfill : w.chunk ≠ [] → w.chunkFill < w.chunk.length) :
    w.readLength.Advances w.inner.wire.length := by
  cases h with
  | within _ _ chunk =>
    unfold readLength
    rw [if_pos chunk]
    exact ⟨hset, hfill chunk⟩
  | @between cs mode caps chunk pos fill lenBuf lenPos wire due =>
    have hcs : cs ≠ [] := by
      rintro rfl
      exact hrest due
    -- the four bytes of the next length have arrived
    have henough : 4 ≤ w.lenPos + w.inner.wire.length := by
      have hfour := four_le_chunkStream hcs
      rw [← wire, append_nil, length_append, length_take] at hfour
      omega
    obtain ⟨r, w', _, _, _, hshort⟩ | ⟨w', heq, hread, hlt, hset'⟩ :=
      readLength_between mode caps chunk pos fill lenBuf lenPos wire
    · exact absurd ⟨hset, henough⟩ hshort
    · rw [heq]
      exact takeLength_advances (hset' hset henough) hlt hread.fill (hread.keeps caps).2

theorem readPayload_advances {n : Nat} (h : Receiving [] w rest)
    (hset : w.inner.Settled) (hfill : w.chunkFill < w.chunk.length) :
    w.readPayload.Advances n := by
  cases h with
  | between _ _ chunk =>
    rw [chunk] at hfill
    exact absurd hfill (Nat.not_lt_zero _)
  | @within cs tail mode caps _ pos fill lenBuf lenPos wire due =>
    have henough : w.chunk.length - w.chunkFill ≤ w.inner.wire.length := by
      have hlen := congrArg List.length wire
      rw [append_nil, length_append] at hlen
      omega
    obtain ⟨got, hgot⟩ : ∃ got, Filling.Filled ⟨w.inner, w.chunk, w.chunkFill⟩ w.fillPayload.1
        w.fillPayload.2 got :=
      Filling.run_overwrites _ _ (le_of_lt hfill)
    obtain ⟨hfull, hset'⟩ : w.fillPayload.1 = none ∧ w.fillPayload.2.socket.Settled :=
      Filling.run_settled _ hset henough
    unfold readPayload
    generalize w.fillPayload = out at hgot hfull hset'
    obtain ⟨r, f⟩ := out
    obtain rfl : r = none := hfull
    refine ⟨hset', .inr ?_⟩
    have hpos : f.pos = w.chunk.length := hgot.full.mp rfl
    show w.chunkPos < f.pos
    omega

/-- **Once everything has arrived a poll with room delivers a byte.** -/
theorem pollChunked_progress (hroom : 0 < room) : ∀ (fuel : Nat)
    {w : StreamWrapper} {rest : Bytes}, Receiving [] w rest → rest ≠ [] →
    w.inner.Settled →
    w.inner.wire.length + 2 ≤ fuel ∨ (w.chunkPos < w.chunkFill ∧ 1 ≤ fuel) →
    (pollChunked fuel room w).1.got ≠ [] ∧ (pollChunked fuel room w).2.inner.Settled := by
  intro fuel
  induction fuel with
  | zero => omega
  | succ fuel ih =>
    intro w rest h hrest hset hfuel
    unfold pollChunked
    by_cases hlt : w.chunkPos < w.chunkFill
    · rw [if_pos hlt]
      refine ⟨?_, hset⟩
      cases h with
      | between _ _ _ pos fill => omega
      | within _ _ _ _ fill => exact window_serves hroom hlt (by omega)
    rw [if_neg hlt]
    obtain ⟨hdrop, hserved, hinner⟩ := h.dropConsumed (Nat.le_of_not_lt hlt)
    have hkeeps := readLength_keeps hdrop hserved
    have hadv := readLength_advances hdrop hrest (hinner ▸ hset) (dropConsumed_fill h)
    rw [hinner] at hadv
    cases hflow : w.dropConsumed.readLength with
    | ret r w' =>
      rw [hflow] at hadv
      exact hadv.elim
    | again w' =>
      rw [hflow] at hadv hkeeps
      refine ih hkeeps hrest hadv.1 ?_
      rcases hadv.2 with hshort | hserve
      · exact .inl (by omega)
      · exact .inr ⟨hserve, by omega⟩
    | next w' =>
      rw [hflow] at hadv hkeeps
      have hkeeps' := readPayload_keeps hkeeps.2.2 hkeeps.1
      -- the chunk is complete after this turn, and the next one serves it
      have hadv' := readPayload_advances (n := 0) hkeeps.2.2 hadv.1 hadv.2
      dsimp only
      cases hflow' : w'.readPayload with
      | ret r w'' =>
        rw [hflow'] at hadv'
        exact hadv'.elim
      | again w'' =>
        rw [hflow'] at hadv' hkeeps'
        refine ih hkeeps' hrest hadv'.1 (.inr ⟨?_, by omega⟩)
        exact hadv'.2.resolve_left (Nat.not_lt_zero _)
      | next w'' =>
        unfold readPayload at hflow'
        split at hflow' <;> cases hflow'

/-! ## §5. Without framing. -/

/-- The window between two polls: what has been read ahead, and then the socket. -/
structure Buffered (w : StreamWrapper) (rest : Bytes) : Prop where
  mode : w.useChunkedRecv = false
  cap : w.rdBuf.length = readBufCap
  pos : w.rdPos ≤ w.rdFill
  fill : w.rdFill ≤ w.rdBuf.length
  due : rest = (w.rdBuf.take w.rdFill).drop w.rdPos ++ w.inner.wire

theorem Buffered.serve (h : Buffered w rest) (room : Nat) :
    ∃ rest', rest = (serveBuffered room w).1.got ++ rest' ∧
      Buffered (serveBuffered room w).2 rest' := by
  refine ⟨_, ?_, h.mode, h.cap, ?_, h.fill, rfl⟩
  · rw [h.due, window_serve w.rdBuf w.rdPos w.rdFill room, append_assoc]
    rfl
  have hpos := h.pos
  show w.rdPos + min room (w.rdFill - w.rdPos) ≤ w.rdFill
  omega

theorem Buffered.refill (h : Buffered w rest) (hempty : ¬ w.rdPos < w.rdFill)
    {bs : Bytes} {s : Socket IoError} (hwire : bs ++ s.wire = w.inner.wire)
    (hlen : bs.length ≤ w.rdBuf.length) :
    Buffered { w with inner := s, rdBuf := overwrite w.rdBuf 0 bs, rdPos := 0,
                      rdFill := bs.length } rest := by
  have hlength : (overwrite w.rdBuf 0 bs).length = w.rdBuf.length :=
    overwrite_length (by rw [Nat.zero_add]; exact hlen)
  refine ⟨h.mode, hlength.trans h.cap, Nat.zero_le _, hlength ▸ hlen, ?_⟩
  have htake : (overwrite w.rdBuf 0 bs).take bs.length = bs := by
    have htake := @take_overwrite w.rdBuf bs 0 (Nat.zero_le _)
    rwa [Nat.zero_add] at htake
  rw [h.due, window_empty (Nat.le_of_not_lt hempty), htake]
  exact hwire.symm

theorem Buffered.direct (h : Buffered w rest) (hempty : ¬ w.rdPos < w.rdFill) (s : Socket IoError)
    {rest' : Bytes} (hwire : rest' = s.wire) : Buffered { w with inner := s } rest' := by
  refine ⟨h.mode, h.cap, h.pos, h.fill, ?_⟩
  show rest' = (w.rdBuf.take w.rdFill).drop w.rdPos ++ s.wire
  rw [hwire, window_empty (Nat.le_of_not_lt hempty)]
  rfl

theorem Buffered.due_wire (h : Buffered w rest) (hempty : ¬ w.rdPos < w.rdFill) :
    rest = w.inner.wire := by
  rw [h.due, window_empty (Nat.le_of_not_lt hempty)]
  rfl

/-- **One poll delivers the next bytes of the socket.** -/
theorem readBuffered_delivers (h : Buffered w rest) (room : Nat) :
    ∃ rest', rest = (readBuffered room w).1.got ++ rest' ∧
      Buffered (readBuffered room w).2 rest' := by
  unfold readBuffered
  by_cases hlt : w.rdPos < w.rdFill
  · rw [if_neg (fun hbig => by omega), if_pos hlt]
    exact h.serve room
  by_cases hbig : w.rdPos = w.rdFill ∧ room ≥ w.rdBuf.length
  · rw [if_pos hbig]
    refine ⟨_, ?_, h.direct hlt _ rfl⟩
    rw [h.due_wire hlt]
    exact (w.inner.read_conserves room).1.symm
  rw [if_neg hbig, if_neg hlt]
  obtain ⟨hwire, hroom⟩ := w.inner.read_conserves w.rdBuf.length
  rcases hread : w.inner.read w.rdBuf.length with ⟨p, s⟩
  rw [hread] at hwire hroom
  cases p with
  | pending | fault e => exact ⟨_, (h.due_wire hlt).trans hwire.symm, h.direct hlt _ rfl⟩
  | bytes bs =>
    have hfilled := h.refill hlt hwire hroom
    dsimp only
    by_cases hbs : bs = []
    · rw [if_pos hbs]
      exact ⟨rest, rfl, hfilled⟩
    · rw [if_neg hbs]
      exact hfilled.serve room

theorem readBuffered_progress (h : Buffered w rest) (hroom : 0 < room) (hrest : rest ≠ [])
    (hset : w.inner.Settled) :
    (readBuffered room w).1.got ≠ [] ∧ (readBuffered room w).2.inner.Settled := by
  have hcap : w.rdBuf.length ≠ 0 := by rw [h.cap]; decide
  unfold readBuffered
  by_cases hlt : w.rdPos < w.rdFill
  · rw [if_neg (fun hbig => by omega), if_pos hlt]
    exact ⟨window_serves hroom hlt h.fill, hset⟩
  rw [h.due_wire hlt] at hrest
  have htake : ∀ {n : Nat}, n ≠ 0 → w.inner.wire.take n ≠ [] := by
    intro n hn hnil
    rcases take_eq_nil_iff.mp hnil with h0 | h0
    · exact hn h0
    · exact hrest h0
  by_cases hbig : w.rdPos = w.rdFill ∧ room ≥ w.rdBuf.length
  · rw [if_pos hbig, Socket.read_settled hset]
    exact ⟨htake (by omega), rfl⟩
  rw [if_neg hbig, if_neg hlt, Socket.read_settled hset]
  dsimp only
  rw [if_neg (htake hcap)]
  refine ⟨window_serves hroom (length_pos_of_ne_nil (htake hcap)) ?_, rfl⟩
  rw [overwrite_length (by rw [Nat.zero_add]; exact length_take_le _ _)]
  exact length_take_le _ _

/-! ## §6. Every schedule and every sequence of buffers. -/

/-- What a poll may deliver, in either framing. -/
def Due (lost : Bytes) (w : StreamWrapper) (rest : Bytes) : Prop :=
  Receiving lost w rest ∨ Buffered w rest

theorem Receiving.chunked (h : Receiving lost w rest) : w.useChunkedRecv = true := by
  cases h with
  | between mode | within mode => exact mode

theorem pollRead_delivers (room : Nat) (w : StreamWrapper) (rest : Bytes)
    (h : Due lost w rest) :
    ∃ rest', rest = (pollRead room w).1.got ++ rest' ∧ Due lost (pollRead room w).2 rest' := by
  unfold pollRead
  rcases h with h | h
  · rw [if_pos h.chunked]
    obtain ⟨rest', hrest', h'⟩ := pollChunked_delivers (w.inner.wire.length + 2) room h
    exact ⟨rest', hrest', .inl h'⟩
  rw [h.mode]
  obtain ⟨rest', hrest', h'⟩ := readBuffered_delivers h room
  exact ⟨rest', hrest', .inr h'⟩

theorem pollRead_progress (room : Nat) (w : StreamWrapper) (rest : Bytes) (hroom : 0 < room)
    (h : Due [] w rest) (hrest : rest ≠ []) (hset : w.inner.Settled) :
    (pollRead room w).1.got ≠ [] ∧ (pollRead room w).2.inner.Settled := by
  unfold pollRead
  rcases h with h | h
  · rw [if_pos h.chunked]
    exact pollChunked_progress hroom _ h hrest hset (.inl le_rfl)
  · rw [h.mode]
    exact readBuffered_progress h hroom hrest hset

/-- The polls of a wrapper deliver the data: at any moment a part of it from its start on,
    and all of it by as many polls as it has bytes, once everything has arrived. -/
def Delivers (start : StreamWrapper) (data : Bytes) : Prop :=
  (∀ rooms, (polls pollRead start rooms).1 <+: data) ∧
    ∀ rooms more, (polls pollRead start rooms).2.inner.Settled → (∀ room ∈ more, 0 < room) →
      data.length ≤ more.length → (polls pollRead start (rooms ++ more)).1 = data

theorem Due.delivered (h : Due lost w rest) (rooms : List Nat) :
    (polls pollRead w rooms).1 <+: rest := by
  obtain ⟨rest', hrest', _⟩ := polls_delivers pollRead_delivers rooms h
  exact ⟨rest', hrest'.symm⟩

theorem Due.delivers (h : Due [] w rest) : w.Delivers rest := by
  refine ⟨h.delivered, ?_⟩
  intro rooms more hset hmore hlen
  obtain ⟨rest', hrest', hdue⟩ := polls_delivers pollRead_delivers rooms h
  have hshort : rest'.length ≤ more.length := by
    rw [hrest', length_append] at hlen
    omega
  rw [polls_append, polls_complete pollRead_delivers pollRead_progress more hdue hset hmore hshort,
    ← hrest']

theorem due_setChunked {chunks : List Bytes} (caps : ∀ c ∈ chunks, c.length ≤ maxChunkLen)
    {arrived : Bytes} (hwire : arrived ++ lost = chunkStream chunks)
    (schedule : List (Arrival IoError)) :
    Due lost ((tcp ⟨arrived, schedule⟩).setChunked true) chunks.flatten :=
  .inl (.between rfl caps rfl rfl rfl rfl (Nat.zero_lt_succ 3) hwire rfl)

theorem due_tcp (bytes : Bytes) (schedule : List (Arrival IoError)) :
    Due [] (tcp ⟨bytes, schedule⟩) bytes :=
  .inr ⟨rfl, length_replicate, le_rfl, Nat.zero_le _, rfl⟩

/-- **Chunked receive equals the plain stream.**  Under every schedule and for every
    sequence of buffers a wrapper delivers the payloads of the chunks in order, also where
    the stream breaks off anywhere; without framing, the bytes of the socket. -/
theorem streamWrapper_delivers {chunks : List Bytes}
    (caps : ∀ c ∈ chunks, c.length ≤ maxChunkLen) :
    (∀ arrived lost schedule rooms, arrived ++ lost = chunkStream chunks →
      (polls pollRead ((tcp ⟨arrived, schedule⟩).setChunked true) rooms).1 <+: chunks.flatten) ∧
    (∀ schedule, ((tcp ⟨chunkStream chunks, schedule⟩).setChunked true).Delivers chunks.flatten) ∧
    ∀ bytes schedule, (tcp ⟨bytes, schedule⟩).Delivers bytes := by
  refine ⟨?_, ?_, ?_⟩
  · intro arrived lost schedule rooms hwire
    exact (due_setChunked caps hwire schedule).delivered rooms
  · intro schedule
    exact (due_setChunked caps (append_nil _) schedule).delivers
  · intro bytes schedule
    exact (due_tcp bytes schedule).delivers

/-- A chunk, an empty one and another: the first length arrives one byte at a time, with a
    wait and a failed read in between. -/
theorem streamWrapper_delivers_split :
    (∀ c ∈ [[1, 2, 3], [], [4]], c.length ≤ maxChunkLen) ∧
    (polls pollRead ((tcp ⟨chunkStream [[1, 2, 3], [], [4]],
        [.ready 0, .pending, .ready 0, .fault ⟨.other, "reset"⟩, .ready 5, .ready 0, .pending]⟩
      ).setChunked true) ([2, 2, 2, 2, 2] ++ [2, 2, 2, 2])).1 = [1, 2, 3, 4] :=
  ⟨by decide, ((@streamWrapper_delivers [[1, 2, 3], [], [4]] (by decide)).2.1 _).2
    [2, 2, 2, 2, 2] [2, 2, 2, 2] (by decide +kernel) (by decide) (by decide)⟩

end StreamWrapper

end StClickHouse
