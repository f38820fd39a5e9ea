/-
  StClickHouse.Transport.ChunkedReader
  **THE CHUNKED READER OF THE SYNC CLIENT.**

  `ChunkedReader` (`sync/chunked.rs`) strips the four-byte lengths off any reader.  Unlike
  the async wrapper it keeps no position inside a length or a payload: `read_next_chunk`
  resizes the chunk and then reads it with `read_exact`, and `pos` is set only after that.
  A payload read that fails leaves the resized buffer behind the old position.

      reads_in_order    — while no read breaks off inside a chunk, the payloads in order
      zeros_from_a_cut  — one that does is followed by bytes nobody sent
-/
import StClickHouse.Lib.Runs
import StClickHouse.Transport.StreamWrapper

namespace StClickHouse

open ByteReader List

/-! ## §1. The reader. -/

/-- `Read::read_exact` into a buffer: nothing if it has been filled, or the error that
    left it; and the socket and the buffer afterwards. -/
def Socket.readExact (s : Socket IoError) (buf : Bytes) :
    Option (Polled IoError) × Filling IoError :=
  Filling.run ⟨.unexpectedEof, "failed to fill whole buffer"⟩ ⟨s, buf, 0⟩

/-- The reader: the chunk it serves from and the position in it. -/
structure ChunkedReader where
  inner : Socket IoError
  chunk : Bytes
  pos : Nat

namespace ChunkedReader

/-- A new reader. -/
def new (inner : Socket IoError) : ChunkedReader := ⟨inner, [], 0⟩

/-- Read the next chunk that is not empty; nothing, or the error. -/
def readNextChunk : Nat → ChunkedReader → Option (Polled IoError) × ChunkedReader
  | 0, r => (some .pending, r)
  | fuel + 1, r =>
    match r.inner.readExact (List.replicate 4 0) with
    | (some e, f) => (some e, { r with inner := f.socket })
    | (none, f) =>
      let len := leNat f.buf
      let r := { r with inner := f.socket }
      if len = 0 then readNextChunk fuel r
      else if len > maxChunkLen then
        (some (.fault ⟨.invalidData, "chunked transport chunk length " ++ toString len
          ++ " exceeds maximum " ++ toString maxChunkLen⟩), r)
      else
        match r.inner.readExact (resizeZero r.chunk len) with
        -- the buffer has been resized and the position has not been set back
        | (some e, f) => (some e, { r with inner := f.socket, chunk := f.buf })
        | (none, f) => (none, { inner := f.socket, chunk := f.buf, pos := 0 })

/-- Serve from the chunk. -/
def serve (room : Nat) (r : ChunkedReader) : Polled IoError × ChunkedReader :=
  let n := min room (r.chunk.length - r.pos)
  (.bytes ((r.chunk.drop r.pos).take n), { r with pos := r.pos + n })

/-- `Read::read`.  Every turn of `read_next_chunk` takes four bytes off the wire. -/
def read (room : Nat) (r : ChunkedReader) : Polled IoError × ChunkedReader :=
  if room = 0 then (.bytes [], r)
  else if r.pos ≥ r.chunk.length then
    match readNextChunk (r.inner.wire.length + 1) r with
    | (some e, r) => (e, r)
    | (none, r) => serve room r
  else serve room r

/-! ## §2. Reads that do not break off inside a chunk. -/

/-- The transport reads behind one `read_next_chunk` do not break off inside a chunk: a
    length is read whole, or the read fails before its first byte or at the end of all
    that ever arrives; the chunk is within the cap and its payload is read whole. -/
def uncut : Nat → ChunkedReader → Bool
  | 0, _ => true
  | fuel + 1, r =>
    match r.inner.readExact (List.replicate 4 0) with
    | (some _, f) => f.pos == 0 || f.socket.wire == []
    | (none, f) =>
      if leNat f.buf = 0 then uncut fuel { r with inner := f.socket }
      else leNat f.buf ≤ maxChunkLen &&
        (f.socket.readExact (resizeZero r.chunk (leNat f.buf))).1.isNone

/-- What a read needs of the transport: nothing while it can be served from the chunk. -/
def Uncut (r : ChunkedReader) (room : Nat) : Prop :=
  room = 0 ∨ r.pos < r.chunk.length ∨ uncut (r.inner.wire.length + 1) r = true

instance (r : ChunkedReader) (room : Nat) : Decidable (r.Uncut room) := by
  unfold Uncut
  infer_instance

/-- A reader between two reads, and the payload bytes still to be returned. -/
inductive Reading (lost : Bytes) (r : ChunkedReader) (rest : Bytes) : Prop
  /-- The socket stands before a chunk. -/
  | live {cs : List Bytes} (sizes : ∀ c ∈ cs, c.length < 2 ^ 32)
      (wire : r.inner.wire ++ lost = chunkStream cs)
      (due : rest = r.chunk.drop r.pos ++ cs.flatten)
  /-- Everything that ever arrives has arrived, and the chunk has been served. -/
  | dead (wire : r.inner.wire = []) (served : r.chunk.length ≤ r.pos)

variable {lost rest : Bytes} {r : ChunkedReader}

theorem readExact_filled (s : Socket IoError) (buf : Bytes) :
    ∃ got, Filling.Filled ⟨s, buf, 0⟩ (s.readExact buf).1 (s.readExact buf).2 got :=
  Filling.run_overwrites _ _ (Nat.zero_le _)

/-- A `read_exact` that succeeds has put the next bytes of the wire into the buffer. -/
theorem readExact_ok {s : Socket IoError} {buf : Bytes} {f : Filling IoError}
    (h : s.readExact buf = (none, f)) :
    f.buf ++ f.socket.wire = s.wire ∧ f.buf.length = buf.length := by
  obtain ⟨got, hgot⟩ := readExact_filled s buf
  rw [h] at hgot
  have hpos : f.pos = buf.length := hgot.full.mp rfl
  have hlen : got.length = buf.length := by
    have := hgot.pos
    simp only [Nat.zero_add] at this
    rw [← this, hpos]
  have hbuf : f.buf = got := by
    rw [hgot.buf]
    unfold overwrite
    simp [hlen]
  rw [hbuf]
  exact ⟨hgot.wire, hlen⟩

theorem readExact_fails {s : Socket IoError} {buf : Bytes} {e : Polled IoError}
    {f : Filling IoError} (h : s.readExact buf = (some e, f)) :
    e.got = [] ∧ (f.pos = 0 → f.socket.wire = s.wire) ∧ (s.wire = [] → f.socket.wire = []) := by
  obtain ⟨got, hgot⟩ := readExact_filled s buf
  rw [h] at hgot
  have hwire : got ++ f.socket.wire = s.wire := hgot.wire
  refine ⟨hgot.silent e rfl, ?_, ?_⟩
  · intro hpos
    have hlen := hgot.pos
    rw [hpos] at hlen
    have hnil : got = [] := eq_nil_of_length_eq_zero (by simp only [Nat.zero_add] at hlen; omega)
    rw [← hwire, hnil]
    rfl
  intro hs
  rw [hs] at hwire
  exact (append_eq_nil_iff.mp hwire).2

theorem Reading.serve (h : Reading lost r rest) (room : Nat) :
    ∃ rest', rest = (r.serve room).1.got ++ rest' ∧ Reading lost (r.serve room).2 rest' := by
  cases h with
  | live sizes wire due =>
    refine ⟨_, ?_, .live sizes wire rfl⟩
    show rest = (r.chunk.drop r.pos).take _ ++ (r.chunk.drop (r.pos + _) ++ _)
    rw [due, ← drop_drop, ← append_assoc, take_append_drop]
  | dead wire served =>
    refine ⟨rest, ?_, .dead wire (le_trans served (Nat.le_add_right _ _))⟩
    show rest = (r.chunk.drop r.pos).take _ ++ rest
    rw [drop_eq_nil_of_le served, take_nil, nil_append]

/-- A length that has been read stands before the payload it announces. -/
theorem length_before_payload {cs : List Bytes} (sizes : ∀ c ∈ cs, c.length < 2 ^ 32)
    {header wire : Bytes} (hlen : header.length = 4)
    (h : header ++ wire = chunkStream cs) :
    ∃ c cs', cs = c :: cs' ∧ leNat header = c.length ∧ wire = c ++ chunkStream cs' := by
  rcases cs with _ | ⟨c, cs⟩
  · rw [(append_eq_nil_iff.mp h).1] at hlen
    cases hlen
  rw [chunkStream_cons] at h
  obtain ⟨hheader, hwire⟩ := append_inj h (by rw [hlen, leBytes_length])
  refine ⟨c, cs, rfl, ?_, hwire⟩
  rw [hheader]
  exact leNat_leBytes (sizes c mem_cons_self)

/-- The next chunk: a reader that gets it is before the one after it, and one that does not
    has lost nothing if no read broke off inside a chunk. -/
theorem readNextChunk_reading (fuel : Nat) {r : ChunkedReader} :
    Reading lost r rest →
    r.chunk.length ≤ r.pos →
    (∀ e r', readNextChunk fuel r = (some e, r') →
      e.got = [] ∧ (uncut fuel r = true → Reading lost r' rest)) ∧
    ∀ r', readNextChunk fuel r = (none, r') → Reading lost r' rest := by
  induction fuel generalizing r with
  | zero =>
    intro h _
    refine ⟨?_, nofun⟩
    rintro e r' hr
    cases hr
    exact ⟨rfl, fun _ => h⟩
  | succ fuel ih =>
    intro h hserved
    unfold readNextChunk uncut
    rcases hheader : r.inner.readExact (.replicate 4 0) with ⟨out, f⟩
    cases out with
    | some e =>
      obtain ⟨hgot, hnone, hend⟩ := readExact_fails hheader
      refine ⟨?_, nofun⟩
      rintro _ r' hr
      cases hr
      refine ⟨hgot, fun hcut => ?_⟩
      -- the length was not begun, or nothing arrives any more
      rcases Bool.or_eq_true _ _ |>.mp hcut with hpos | hwire
      · cases h with
        | live sizes wire due =>
          exact .live sizes ((hnone (eq_of_beq hpos)).symm ▸ wire) due
        | dead wire served => exact .dead (hend wire) served
      · exact .dead (eq_of_beq hwire) hserved
    | none =>
      obtain ⟨hwire, hlen⟩ := readExact_ok hheader
      cases h with
      | dead wire _ =>
        rw [wire] at hwire
        rw [(append_eq_nil_iff.mp hwire).1] at hlen
        cases hlen
      | @live cs sizes wire due =>
        rw [← hwire, append_assoc] at wire
        obtain ⟨c, cs', rfl, hnat, hrest⟩ := length_before_payload sizes hlen wire
        have hsizes := fun d hd => sizes d (mem_cons_of_mem c hd)
        rw [drop_eq_nil_of_le hserved, nil_append] at due
        dsimp only
        rw [hnat]
        by_cases hzero : c.length = 0
        · -- an empty chunk: the next turn starts before the next one
          rw [if_pos hzero, if_pos hzero]
          obtain rfl := eq_nil_of_length_eq_zero hzero
          refine ih (r := { r with inner := f.socket }) (.live hsizes hrest ?_) hserved
          rw [due, drop_eq_nil_of_le hserved]
          rfl
        rw [if_neg hzero, if_neg hzero]
        by_cases hcap : c.length > maxChunkLen
        · rw [if_pos hcap, decide_eq_false (Nat.not_le_of_lt hcap)]
          refine ⟨?_, nofun⟩
          rintro e r' hr
          cases hr
          exact ⟨rfl, nofun⟩
        rw [if_neg hcap]
        rcases hpayload : f.socket.readExact (resizeZero r.chunk c.length) with ⟨out, g⟩
        cases out with
        | some e =>
          refine ⟨?_, nofun⟩
          rintro _ r' hr
          cases hr
          refine ⟨(readExact_fails hpayload).1, fun hcut => ?_⟩
          cases (Bool.and_eq_true _ _ |>.mp hcut).2
        | none =>
          obtain ⟨hwire', hlen'⟩ := readExact_ok hpayload
          rw [resizeZero_length] at hlen'
          rw [← hwire', append_assoc] at hrest
          obtain ⟨hbuf, hwire''⟩ := append_inj hrest hlen'
          refine ⟨fun e r' hr => absurd hr (by simp), ?_⟩
          rintro r' hr
          cases hr
          refine .live hsizes hwire'' ?_
          rw [due, drop_zero, hbuf]
          rfl

/-- **One read returns the next payload bytes**, and leaves the reader where it can go on
    if no transport read broke off inside a chunk. -/
theorem read_delivers (h : Reading lost r rest) (room : Nat) :
    ∃ rest', rest = (read room r).1.got ++ rest' ∧
      (r.Uncut room → Reading lost (read room r).2 rest') := by
  unfold read
  by_cases hroom : room = 0
  · rw [if_pos hroom]
    exact ⟨rest, rfl, fun _ => h⟩
  rw [if_neg hroom]
  by_cases hserved : r.pos ≥ r.chunk.length
  · rw [if_pos hserved]
    obtain ⟨hfails, hok⟩ := readNextChunk_reading (r.inner.wire.length + 1) h hserved
    rcases hnext : readNextChunk (r.inner.wire.length + 1) r with ⟨out, r'⟩
    rcases out with _ | e
    · obtain ⟨rest', hrest', h'⟩ := (hok r' hnext).serve room
      exact ⟨rest', hrest', fun _ => h'⟩
    obtain ⟨hgot, hkeeps⟩ := hfails e r' hnext
    refine ⟨rest, by rw [hgot]; rfl, fun hcut => hkeeps ?_⟩
    rcases hcut with h0 | hlt | hcut
    · exact absurd h0 hroom
    · exact absurd hlt (not_lt.mpr hserved)
    · exact hcut
  · rw [if_neg hserved]
    obtain ⟨rest', hrest', h'⟩ := h.serve room
    exact ⟨rest', hrest', fun _ => h'⟩

/-! ## §3. Sequences of reads. -/

/-- A reader, and all bytes it has returned. -/
structure History where
  reader : ChunkedReader
  returned : Bytes

/-- One more read, whatever the ones before it have returned. -/
def History.step (h : History) (room : Nat) : Option History :=
  some ⟨(h.reader.read room).2, h.returned ++ (h.reader.read room).1.got⟩

/-- **While no read breaks off inside a chunk the reader returns the payloads in order.**
    Whatever the transport does otherwise, after every sequence of such reads one more
    read, which may break off anywhere, has still returned nothing but the payload bytes
    from the first one on. -/
theorem reads_in_order {chunks : List Bytes} (sizes : ∀ c ∈ chunks, c.length < 2 ^ 32)
    {arrived lost : Bytes} (hwire : arrived ++ lost = chunkStream chunks)
    (schedule : List (Arrival IoError)) {rooms : List Nat} {h h' : History}
    (hrun : Run History.step (fun h room => h.reader.Uncut room)
      ⟨new ⟨arrived, schedule⟩, []⟩ rooms h)
    {room : Nat} (hlast : h.step room = some h') : h'.returned <+: chunks.flatten := by
  have hinv : ∃ rest, chunks.flatten = h.returned ++ rest ∧ Reading lost h.reader rest := by
    refine hrun.invariant (I := fun h => ∃ rest, chunks.flatten = h.returned ++ rest ∧
      Reading lost h.reader rest) ?_ ⟨_, rfl, .live sizes hwire rfl⟩
    rintro g room g' ⟨rest, hrest, hreading⟩ hcut hstep
    cases hstep
    obtain ⟨rest', hrest', hreading'⟩ := read_delivers hreading room
    refine ⟨rest', ?_, hreading' hcut⟩
    rw [append_assoc, ← hrest', hrest]
  obtain ⟨rest, hrest, hreading⟩ := hinv
  obtain ⟨rest', hrest', _⟩ := read_delivers hreading room
  cases hlast
  refine ⟨rest', ?_⟩
  rw [append_assoc, ← hrest', hrest]

/-- The stream breaks off inside the second length; the read that meets the end and the
    one after it return nothing. -/
theorem reads_in_order_broken_off :
    ∃ h h', Run History.step (fun h room => h.reader.Uncut room)
        ⟨new ⟨[2, 0, 0, 0, 7, 8, 1, 0], [.pending, .ready 4]⟩, []⟩ [1, 1, 5, 5] h ∧
      h.step 5 = some h' ∧ h'.returned <+: [[7, 8], [9]].flatten := by
  have hrun : Run History.step (fun h room => h.reader.Uncut room)
      ⟨new ⟨[2, 0, 0, 0, 7, 8, 1, 0], [.pending, .ready 4]⟩, []⟩ [1, 1, 5, 5] _ :=
    .cons (by decide +kernel) rfl (.cons (by decide +kernel) rfl
      (.cons (by decide +kernel) rfl (.cons (by decide +kernel) rfl (.nil _))))
  exact ⟨_, _, hrun, rfl,
    @reads_in_order [[7, 8], [9]] (by decide) _ [0, 0, 9] rfl _ _ _ _ hrun 5 rfl⟩

/-- A failed payload read is followed by a read that returns the zeros the buffer was
    resized with. -/
theorem zeros_from_a_cut :
    (polls read (new ⟨chunkStream [[1, 2, 3]], [.ready 3, .fault ⟨.other, "reset"⟩]⟩) [3, 3]).1
      = [0, 0, 0] ∧ ¬ ([0, 0, 0] : Bytes).Sublist [1, 2, 3] := by
  decide +kernel

end ChunkedReader

end StClickHouse
