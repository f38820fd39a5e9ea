/-
  StClickHouse.Query.Negotiated
  **PROGRESS AND PROFILEINFO BY REVISION.**

  The server lays these two packets out for the smaller of the two revisions.  The readers
  of the sync client go by that revision, too; those of the async client go by the one of
  the crate, which is the largest.

      consumed_iff — all readers agree from the revision of the last field on
-/
import StClickHouse.Query.Packet
import StClickHouse.Sync.QueryStream
import StClickHouse.Wire.Varint

namespace StClickHouse

open ByteReader RustText List

/-! ## §1. Layouts. -/

/-- `effective_revision`. -/
def effectiveRevision (client server : Nat) : Nat := min client server

/-- The two packets whose fields depend on the revision. -/
inductive StatPacket where
  | progress (rows bytes totalRows writtenRows writtenBytes elapsedNs totalBytesToRead : UInt64)
  | profileInfo (rows blocks bytes : UInt64) (appliedLimit : UInt8) (rowsBeforeLimit : UInt64)
      (calculatedRowsBeforeLimit appliedAggregation : UInt8) (rowsBeforeAggregation : UInt64)
  deriving DecidableEq

namespace StatPacket

open Sync (clientWriteInfo serverQueryTimeInProgress totalBytesInProgress rowsBeforeAggregation)

/-- A number on the wire. -/
def varint (n : UInt64) : Bytes := encodeVarint n.toNat

variable (rev : Nat)

/-- What the server writes behind the packet type, for a revision. -/
def layout : StatPacket → Bytes
  | progress rows bytes totalRows writtenRows writtenBytes elapsedNs totalBytesToRead =>
    varint rows ++ (varint bytes ++ (varint totalRows
      ++ (since rev clientWriteInfo (varint writtenRows ++ varint writtenBytes)
      ++ (since rev serverQueryTimeInProgress (varint elapsedNs)
      ++ since rev totalBytesInProgress (varint totalBytesToRead)))))
  | profileInfo rows blocks bytes appliedLimit rowsBeforeLimit calculated aggregation before =>
    varint rows ++ (varint blocks ++ (varint bytes ++ ([appliedLimit]
      ++ (varint rowsBeforeLimit ++ ([calculated]
      ++ since rev rowsBeforeAggregation ([aggregation] ++ varint before))))))

/-- The packet type. -/
def code : StatPacket → UInt8
  | progress .. => 3
  | profileInfo .. => 6

/-- The revision from which on the packet has all its fields. -/
def lastGate : StatPacket → Nat
  | progress .. => totalBytesInProgress
  | profileInfo .. => rowsBeforeAggregation

/-! ## §2. Readers. -/

/-- The readers of `connection/io.rs`. -/
def asyncStream : StatPacket → Read Bytes Unit
  | progress .. => do
    let _progress ← readProgressPacket
    return ()
  | profileInfo .. => do
    let _profile ← readProfileInfoPacket
    return ()

/-- The readers of `sync/client.rs` that read a stream. -/
def syncStream : StatPacket → Read Bytes Unit
  | progress .. => Sync.skipProgressPacket rev
  | profileInfo .. => Sync.skipProfileInfoPacket rev

/-- Slice fields that are present from a revision on. -/
def whenSince (rev gate : Nat) (x : Read Slice Unit) : Read Slice Unit :=
  if gate ≤ rev then x else return ()

/-- `skip_progress` of `sync/protocol/response_packets.rs`. -/
def skipProgress : Read Slice Unit := do
  Sync.skipVarint
  Sync.skipVarint
  Sync.skipVarint
  whenSince rev clientWriteInfo do
    Sync.skipVarint
    Sync.skipVarint
  whenSince rev serverQueryTimeInProgress Sync.skipVarint
  whenSince rev totalBytesInProgress Sync.skipVarint

/-- `skip_profile_info`, likewise. -/
def skipProfileInfo : Read Slice Unit := do
  Sync.skipVarint
  Sync.skipVarint
  Sync.skipVarint
  let _appliedLimit ← parseBytes 1
  Sync.skipVarint
  let _calculatedRowsBeforeLimit ← parseBytes 1
  whenSince rev rowsBeforeAggregation do
    let _appliedAggregation ← parseBytes 1
    Sync.skipVarint

/-- The readers of a whole response in a buffer. -/
def syncBuffer : StatPacket → Read Bytes Unit
  | progress .. => skipProgress rev
  | profileInfo .. => skipProfileInfo rev

/-- **Every reader takes the packet and nothing else**: that of the async client, and those
    of a sync client of some revision, which read a stream, a buffer, and a streamed
    response that has arrived. -/
structure Consumed (clientRev serverRev : Nat) (p : StatPacket) : Prop where
  async : Parses p.asyncStream (p.layout (effectiveRevision Revision.default serverRev)) ()
  stream : Parses (p.syncStream (effectiveRevision clientRev serverRev))
    (p.layout (effectiveRevision clientRev serverRev)) ()
  buffer : Parses (p.syncBuffer (effectiveRevision clientRev serverRev))
    (p.layout (effectiveRevision clientRev serverRev)) ()
  queryStream : ∀ (q : Sync.QueryStream) (rest : Bytes),
    q.bytes.cfg.reply.rev = effectiveRevision clientRev serverRev →
    q.bytes.rest = p.code :: (p.layout (effectiveRevision clientRev serverRev) ++ rest) →
    q.turn = (.ok (.more ()), q.moved rest)

/-! ## §3. The sync readers. -/

variable (n : UInt64)

theorem parses_varint : Parses readVarint (varint n) n.toNat :=
  readVarint_encode n.toNat_lt

theorem parses_varintAsync : Parses readVarintAsync (varint n) n.toNat := by
  rw [readVarintAsync_eq]
  exact parses_varint n

theorem parses_byte (b : UInt8) : Parses readByte [b] b := readByte_cons b

theorem parses_parseVarint : Parses parseVarint (varint n) n.toNat :=
  sliceVarint_encode _ n.toNat_lt

theorem parses_skipVarint : Parses Sync.skipVarint (varint n) () :=
  (parses_parseVarint n).done (.pure _)

theorem parses_parseByte (b : UInt8) : Parses (parseBytes 1) [b] [b] := by
  intro rest
  unfold parseBytes sliceTake
  exact if_pos (by simp)

variable {rev : Nat}

theorem parses_since {gate : Nat} {x : Read Bytes Unit} {bs : Bytes}
    (h : Parses x bs ()) :
    Parses (if gate ≤ rev then x else pure ()) (since rev gate bs) () := by
  unfold since
  by_cases hgate : gate ≤ rev
  · rw [if_pos hgate, if_pos hgate]
    exact h
  · rw [if_neg hgate, if_neg hgate]
    exact .pure ()

/-- The sync client's stream readers take any layout of their revision. -/
theorem parses_syncStream (rev : Nat) (p : StatPacket) : Parses (p.syncStream rev) (p.layout rev) () := by
  cases p with
  | progress rows bytes totalRows writtenRows writtenBytes elapsedNs totalBytesToRead =>
    refine (parses_varint rows).bind ((parses_varint bytes).bind ((parses_varint totalRows).bind ?_))
    refine (parses_since ((parses_varint writtenRows).bind
      ((parses_varint writtenBytes).done (.pure ())))).bind ?_
    refine (parses_since ((parses_varint elapsedNs).done (.pure ()))).bind ?_
    exact parses_since ((parses_varint totalBytesToRead).done (.pure ()))
  | profileInfo rows blocks bytes appliedLimit rowsBeforeLimit calculated aggregation before =>
    refine (parses_varint rows).bind ((parses_varint blocks).bind ((parses_varint bytes).bind ?_))
    refine (parses_byte appliedLimit).bind ((parses_varint rowsBeforeLimit).bind ?_)
    refine (parses_byte calculated).bind ?_
    exact parses_since ((parses_byte aggregation).bind ((parses_varint before).done (.pure ())))

theorem parses_syncBuffer (rev : Nat) (p : StatPacket) : Parses (p.syncBuffer rev) (p.layout rev) () := by
  cases p with
  | progress rows bytes totalRows writtenRows writtenBytes elapsedNs totalBytesToRead =>
    refine (parses_skipVarint rows).bind ((parses_skipVarint bytes).bind
      ((parses_skipVarint totalRows).bind ?_))
    refine (parses_since ((parses_skipVarint writtenRows).bind
      (parses_skipVarint writtenBytes))).bind ?_
    exact (parses_since (parses_skipVarint elapsedNs)).bind
      (parses_since (parses_skipVarint totalBytesToRead))
  | profileInfo rows blocks bytes appliedLimit rowsBeforeLimit calculated aggregation before =>
    refine (parses_skipVarint rows).bind ((parses_skipVarint blocks).bind
      ((parses_skipVarint bytes).bind ?_))
    refine (parses_parseByte appliedLimit).bind ((parses_skipVarint rowsBeforeLimit).bind ?_)
    refine (parses_parseByte calculated).bind ?_
    exact parses_since ((parses_parseByte aggregation).bind (parses_skipVarint before))

theorem parses_times (ns : List UInt64) :
    Parses (times ns.length Sync.skipVarint) (ns.flatMap varint) () := by
  induction ns with
  | nil => exact .pure ()
  | cons n ns ih => exact (parses_skipVarint n).bind ih

/-- A Progress packet is as many numbers as the streamed response counts. -/
theorem parses_progressFields (rev : Nat)
    (rows bytes totalRows writtenRows writtenBytes elapsedNs totalBytesToRead : UInt64) :
    Parses (times (Sync.progressFields rev) Sync.skipVarint)
      ((progress rows bytes totalRows writtenRows writtenBytes elapsedNs totalBytesToRead).layout rev)
      () := by
  have hnumbers := parses_times ([rows, bytes, totalRows]
    ++ (if clientWriteInfo ≤ rev then [writtenRows, writtenBytes] else [])
    ++ (if serverQueryTimeInProgress ≤ rev then [elapsedNs] else [])
    ++ if totalBytesInProgress ≤ rev then [totalBytesToRead] else [])
  unfold layout since Sync.progressFields
  by_cases h1 : clientWriteInfo ≤ rev <;> by_cases h2 : serverQueryTimeInProgress ≤ rev <;>
    by_cases h3 : totalBytesInProgress ≤ rev <;> simpa [h1, h2, h3] using hnumbers

variable {p : StatPacket}

theorem turn_code {q : Sync.QueryStream} {body : Bytes} (hrest : q.bytes.rest = p.code :: body)
    :
    q.turn = if p.code.toNat = 6 then Sync.QueryStream.profileInfo body q
      else Sync.QueryStream.parsed p.code.toNat body q := by
  have htype : parseVarint (p.code :: body) = (.ok p.code.toNat, body) := by
    have hencode : encodeVarint p.code.toNat = [p.code] := by
      cases p <;> rfl
    have hparse := sliceVarint_encode "unexpected end of buffer parsing varint"
      (lt_trans p.code.toNat_lt (by decide) : p.code.toNat < 2 ^ 64) body
    rw [hencode] at hparse
    exact hparse
  unfold Sync.QueryStream.turn
  rw [hrest, if_neg (cons_ne_nil _ _), htype]
  have hplain : Sync.compressedType p.code.toNat = false := by
    cases p <;> rfl
  exact if_neg fun h => Bool.false_ne_true (hplain.symm.trans h.2)

theorem turn_layout {q : Sync.QueryStream} {rest : Bytes}
    (hrest : q.bytes.rest = p.code :: (p.layout q.bytes.cfg.reply.rev ++ rest)) :
    q.turn = (.ok (.more ()), q.moved rest) := by
  rw [turn_code hrest]
  generalize hrev : q.bytes.cfg.reply.rev = rev
  cases p with
  | progress rows bytes totalRows writtenRows writtenBytes elapsedNs totalBytesToRead =>
    have hfields := parses_progressFields rev rows bytes totalRows writtenRows writtenBytes
      elapsedNs totalBytesToRead rest
    have hbuffered : Sync.bufferedPacket q.bytes.cfg 3
        ((progress rows bytes totalRows writtenRows writtenBytes elapsedNs
          totalBytesToRead).layout rev ++ rest) = (.ok .skipped, rest) := by
      show Sync.skips (times (Sync.progressFields q.bytes.cfg.reply.rev) Sync.skipVarint) _ = _
      unfold Sync.skips
      rw [hrev, bind_ok hfields]
      rfl
    show Sync.QueryStream.parsed 3 _ q = _
    unfold Sync.QueryStream.parsed
    rw [hbuffered]
    rfl
  | profileInfo rows blocks bytes appliedLimit rowsBeforeLimit calculated aggregation before =>
    have hthree : ∀ rest, times 3 Sync.skipVarint
        (varint rows ++ (varint blocks ++ (varint bytes ++ rest))) = (.ok (), rest) := by
      intro rest
      have h := parses_times [rows, blocks, bytes] rest
      simpa [append_assoc] using h
    have hbody : (profileInfo rows blocks bytes appliedLimit rowsBeforeLimit calculated aggregation
          before).layout rev ++ rest
        = varint rows ++ (varint blocks ++ (varint bytes ++ (appliedLimit
          :: (varint rowsBeforeLimit ++ (calculated
          :: (since rev rowsBeforeAggregation ([aggregation] ++ varint before) ++ rest)))))) := by
      unfold layout
      simp
    unfold Sync.QueryStream.profileInfo
    rw [hbody, hthree]
    dsimp only
    rw [parses_parseVarint rowsBeforeLimit]
    dsimp only
    unfold since
    by_cases hgate : rowsBeforeAggregation ≤ rev
    · have hhas : q.hasAggregationFields := by
        unfold Sync.QueryStream.hasAggregationFields
        rw [hrev]
        exact hgate
      rw [if_pos hhas, if_pos hgate]
      show Sync.QueryStream.aggregationFields q (aggregation :: (varint before ++ rest)) = _
      unfold Sync.QueryStream.aggregationFields
      dsimp only
      rw [parses_parseVarint before]
    · have hhas : ¬ q.hasAggregationFields := by
        unfold Sync.QueryStream.hasAggregationFields
        rw [hrev]
        exact hgate
      rw [if_neg hhas, if_neg hgate]
      rfl

/-! ## §4. The async readers. -/

theorem parses_asyncStream (h : p.lastGate ≤ rev) :
    Parses p.asyncStream (p.layout rev) () := by
  cases p with
  | progress rows bytes totalRows writtenRows writtenBytes elapsedNs totalBytesToRead =>
    have hall : (progress rows bytes totalRows writtenRows writtenBytes elapsedNs
          totalBytesToRead).layout rev
        = varint rows ++ (varint bytes ++ (varint totalRows ++ (varint writtenRows
          ++ (varint writtenBytes ++ (varint elapsedNs ++ varint totalBytesToRead))))) := by
      have htotal : totalBytesInProgress ≤ rev := h
      have hwrite : clientWriteInfo ≤ rev := le_trans (by decide) htotal
      have htime : serverQueryTimeInProgress ≤ rev := le_trans (by decide) htotal
      unfold layout since
      simp [hwrite, htime, htotal]
    rw [hall]
    refine .done (a := ⟨rows.toNat, bytes.toNat, totalRows.toNat, writtenRows.toNat,
      writtenBytes.toNat⟩) ?_ (.pure ())
    refine (parses_varintAsync rows).bind ((parses_varintAsync bytes).bind
      ((parses_varintAsync totalRows).bind ((parses_varintAsync writtenRows).bind
      ((parses_varintAsync writtenBytes).bind ((parses_varintAsync elapsedNs).bind ?_)))))
    exact (parses_varintAsync totalBytesToRead).done (.pure _)
  | profileInfo rows blocks bytes appliedLimit rowsBeforeLimit calculated aggregation before =>
    have hall : (profileInfo rows blocks bytes appliedLimit rowsBeforeLimit calculated aggregation
          before).layout rev
        = varint rows ++ (varint blocks ++ (varint bytes ++ ([appliedLimit]
          ++ (varint rowsBeforeLimit ++ ([calculated] ++ ([aggregation] ++ varint before)))))) := by
      have hgate : rowsBeforeAggregation ≤ rev := h
      unfold layout since
      simp [hgate]
    rw [hall]
    refine .done (a := ⟨rows.toNat, blocks.toNat, bytes.toNat, rowsBeforeLimit.toNat,
      appliedLimit ≠ 0, calculated ≠ 0⟩) ?_ (.pure ())
    refine (parses_varintAsync rows).bind ((parses_varintAsync blocks).bind
      ((parses_varintAsync bytes).bind ((parses_byte appliedLimit).bind
      ((parses_varintAsync rowsBeforeLimit).bind ((parses_byte calculated).bind ?_)))))
    exact (parses_byte aggregation).bind ((parses_varintAsync before).done (.pure _))

theorem fails_varintAsync {α : Type} (f : Nat → Read Bytes α) :
    Fails (readVarintAsync >>= f) [] :=
  .first ⟨_, _, rfl⟩

theorem fails_byte {α : Type} (f : UInt8 → Read Bytes α) :
    Fails (readByte >>= f) [] :=
  .first ⟨_, _, rfl⟩

theorem not_parses_asyncStream (h : rev < p.lastGate) :
    ¬ Parses p.asyncStream (p.layout rev) () := by
  apply Fails.not_parses
  cases p with
  | progress rows bytes totalRows writtenRows writtenBytes elapsedNs totalBytesToRead =>
    -- the fields came in this order, so a layout without one has none of the later ones
    have htotal : ¬ totalBytesInProgress ≤ rev := not_le.mpr h
    apply Fails.first
    unfold layout since
    dsimp only
    rw [if_neg htotal]
    apply Fails.after (parses_varintAsync rows)
    apply Fails.after (parses_varintAsync bytes)
    apply Fails.after (parses_varintAsync totalRows)
    by_cases hwrite : clientWriteInfo ≤ rev
    · rw [if_pos hwrite, append_assoc]
      apply Fails.after (parses_varintAsync writtenRows)
      apply Fails.after (parses_varintAsync writtenBytes)
      by_cases htime : serverQueryTimeInProgress ≤ rev
      · rw [if_pos htime]
        apply Fails.after (parses_varintAsync elapsedNs)
        exact fails_varintAsync _
      · rw [if_neg htime]
        exact fails_varintAsync _
    · have htime : ¬ serverQueryTimeInProgress ≤ rev :=
        fun hle => hwrite (le_trans (by decide) hle)
      rw [if_neg hwrite, if_neg htime]
      exact fails_varintAsync _
  | profileInfo rows blocks bytes appliedLimit rowsBeforeLimit calculated aggregation before =>
    have hlack : (profileInfo rows blocks bytes appliedLimit rowsBeforeLimit calculated aggregation
          before).layout rev
        = varint rows ++ (varint blocks ++ (varint bytes ++ ([appliedLimit]
          ++ (varint rowsBeforeLimit ++ ([calculated] ++ []))))) := by
      have hgate : ¬ rowsBeforeAggregation ≤ rev := not_le.mpr h
      unfold layout since
      simp [hgate]
    rw [hlack]
    apply Fails.first
    exact Fails.after (parses_varintAsync rows) (Fails.after (parses_varintAsync blocks)
      (Fails.after (parses_varintAsync bytes) (Fails.after (parses_byte appliedLimit)
      (Fails.after (parses_varintAsync rowsBeforeLimit) (Fails.after (parses_byte calculated)
      (fails_byte _))))))

/-! ## §5. The packet is consumed exactly. -/

/-- **A statistics packet is consumed exactly iff the server's revision has all its fields**:
    the sync readers know the negotiated revision, the async ones assume their own. -/
theorem consumed_iff (clientRev serverRev : Nat) (p : StatPacket) :
    Consumed clientRev serverRev p ↔ p.lastGate ≤ serverRev := by
  have hown : p.lastGate ≤ Revision.default := by
    cases p with
    | progress => exact (by decide : totalBytesInProgress ≤ Revision.default)
    | profileInfo => exact (by decide : rowsBeforeAggregation ≤ Revision.default)
  constructor
  · intro h
    refine Decidable.byContradiction fun hlt => not_parses_asyncStream ?_ h.async
    exact lt_of_le_of_lt (min_le_right _ _) (not_le.mp hlt)
  intro h
  constructor
  · exact parses_asyncStream (Nat.le_min.mpr ⟨hown, h⟩)
  · exact parses_syncStream _ p
  · exact parses_syncBuffer _ p
  intro q rest hrev hrest
  rw [← hrev] at hrest
  exact turn_layout hrest

/-- A server of revision 54 462 sends Progress without the total bytes to read, then the end
of the stream.  The sync reader leaves the end of the stream; the async reader takes its
packet type for the missing number. -/
theorem progress_before_total_bytes :
    (let p := progress 1 1 1 1 1 1 1
     let rev := effectiveRevision Revision.default 54462
     (p.syncStream rev (p.layout rev ++ [5])).2 = [5]
       ∧ (p.asyncStream (p.layout rev ++ [5])).2 = []
       ∧ ¬ Consumed Revision.default 54462 p) := by
  refine ⟨by decide +kernel, by decide +kernel, ?_⟩
  intro h
  exact not_parses_asyncStream (by decide) h.async

end StatPacket

end StClickHouse
