/-
  StClickHouse.Async.BothStreams
  **ONE READER ON TWO STREAMS.**

  The readers of the async engine ask their stream for exact reads and for nothing
  else.  So where the exact reads of two streams correspond, every such reader
  corresponds to itself: it succeeds on both with the same result, or on neither.
  A correspondence of a stream of frames with the bytes inside them, or of a stream
  with itself under an invariant, is then a fact about `readExact` alone.
-/
import StClickHouse.Async.Packets
import StClickHouse.Async.RawCapture

namespace StClickHouse

open ByteReader RustText

variable {σ τ : Type}

/-- Two recordings of corresponding streams, equal so far. -/
def recordedBoth (c : Corr Error Error σ τ) : Corr Error Error (Recorded σ) (Recorded τ) where
  state := fun r r' => c.state r.stream r'.stream ∧ r.out = r'.out ∧ r.budget = r'.budget
  left := c.left
  right := c.right

section

variable {c : Corr Error Error σ τ}

theorem collect_both {α β : Type} {f : α → Read σ β}
    {g : α → Read τ β} (h : ∀ a, Sim c Eq (f a) (g a)) (as : List α) :
    Sim c Eq (collect f as) (collect g as) :=
  c.logic.collect_same h as

theorem onStream_both {α : Type} {x : Read σ α} {y : Read τ α}
    (h : Sim c Eq x y) :
    Sim (recordedBoth c) Eq (onStream x) (onStream y) := by
  intro r r' hst
  obtain ⟨hstream, hsame⟩ := hst
  have hxy := h r.stream r'.stream hstream
  unfold onStream
  rcases hx : x r.stream with ⟨res, s⟩
  rcases hy : y r'.stream with ⟨res', t⟩
  rw [hx, hy] at hxy
  cases res with
  | ok a => cases res' with
    | ok b => exact ⟨⟨hxy.1, hsame⟩, hxy.2⟩
    | error e => exact hxy
  | error e => cases res' with
    | ok b => exact hxy
    | error e' => trivial

theorem charge_both (len : Nat) (what : String) :
    Sim (recordedBoth c) Eq (charge len what) (charge len what) := by
  intro r r' hst
  obtain ⟨hstream, hout, hbudget⟩ := hst
  unfold charge
  rw [hbudget]
  cases chargeBudget r'.budget len what with
  | ok budget => exact ⟨⟨hstream, hout, rfl⟩, rfl⟩
  | error e => trivial

theorem record_both (bs : Bytes) :
    Sim (recordedBoth c) Eq (record bs) (record bs) := by
  intro r r' hst
  obtain ⟨hstream, hout, hbudget⟩ := hst
  exact ⟨⟨hstream, congrArg (· ++ bs) hout, hbudget⟩, rfl⟩

theorem recording_both {x : Read (Recorded σ) Unit} {y : Read (Recorded τ) Unit}
    (h : Sim (recordedBoth c) Any x y) :
    Sim c Eq (recording x) (recording y) := by
  intro s t hst
  have hxy := h ⟨s, [], maxColumnBytes⟩ ⟨t, [], maxColumnBytes⟩ ⟨hst, rfl, rfl⟩
  unfold recording
  rcases hx : x ⟨s, [], maxColumnBytes⟩ with ⟨res, r⟩
  rcases hy : y ⟨t, [], maxColumnBytes⟩ with ⟨res', r'⟩
  rw [hx, hy] at hxy
  cases res with
  | ok a => cases res' with
    | ok b => exact ⟨hxy.1.1, hxy.1.2.1⟩
    | error e => exact hxy
  | error e => cases res' with
    | ok b => exact hxy
    | error e' => trivial

end

variable [ByteStream Error σ] [ByteStream Error τ]

/-- A reader of any stream, on both of them. -/
abbrev Both (c : Corr Error Error σ τ) {α : Type} (R : α → α → Prop)
    (x : ∀ {ρ : Type} [ByteStream Error ρ], Read ρ α) : Prop :=
  Sim c R (@x σ _) (@x τ _)

/-- The exact reads of two streams correspond. -/
def Reads (c : Corr Error Error σ τ) : Prop :=
  ∀ n, Sim c (fun a b => a = b) (readExact n) (readExact n)

/-! ## §1. Primitives. -/

section Primitives

variable {c : Corr Error Error σ τ} (hc : Reads c)

include hc

theorem readByte_both : Both c Eq readByte := readByte_rel c.logic hc

theorem readU64_both : Both c Eq readU64 := readU64_rel c.logic hc

theorem varintAfter_both (first : UInt8) : Both c Eq (varintAfter first) :=
  .ite (fun _ => .pure rfl)
    (fun _ => varintLoop_rel c.logic (readByte_both hc) .fail_fail 9 7 _)

theorem readVarintAsync_both : Both c Eq readVarintAsync :=
  bind_both (readByte_both hc) (varintAfter_both hc)

theorem readStringAsync_both : Both c Eq readStringAsync := by
  refine bind_both (readVarintAsync_both hc) fun value => ?_
  refine .liftExcept_both fun len _ => ?_
  refine bind_both (hc len) fun buf => ?_
  cases fromUtf8 buf with
  | ok s => exact .pure rfl
  | error e => exact .fail_fail

theorem readStringRows_both (lengthName : String) (left : Nat) (pending : Option UInt8)
    (total : Nat) : Both c Eq (readStringRows lengthName left pending total) := by
  induction left generalizing pending total with
  | zero => exact .pure rfl
  | succ left ih =>
    have hfirst : Both c Eq (firstLengthByte pending) := by
      cases pending with
      | some b => exact .pure rfl
      | none => exact readByte_both hc
    refine bind_both hfirst fun first => ?_
    refine bind_both (varintAfter_both hc first) fun value => ?_
    refine .liftExcept_both fun len _ => ?_
    refine .liftExcept_both fun total _ => ?_
    refine .ite (fun _ => ?_) (fun _ => .ite (fun _ => ?_) (fun _ => ?_))
    · exact bind_both (hc len) fun body => bind_both (ih none total) fun rest => .pure rfl
    · refine bind_both (.ite (fun _ => hc len) (fun _ => .pure rfl)) fun body => ?_
      exact .pure rfl
    · refine bind_both (hc (len + 1)) fun scratch => ?_
      exact bind_both (ih _ total) fun rest => .pure rfl

theorem readOffsetsColumn_both (rows : Nat) (name : String) :
    Both c Eq (readOffsetsColumn rows name) := by
  refine .liftExcept_both fun nbytes _ => ?_
  refine bind_both (hc nbytes) fun offsets => ?_
  exact .liftExcept_both fun total _ => .pure rfl

theorem discardWindows_both (window fuel len : Nat) : Both c Any (discardWindows window fuel len) :=
  .mono (discardWindows_rel c.logic hc window fuel len) fun _ _ _ => trivial

theorem blockInfoLoop_both (fuel : Nat) :
    Both c Eq (blockInfoLoop readVarintAsync readExact fuel) :=
  blockInfoLoop_rel c.logic (readVarintAsync_both hc) hc fuel

theorem blockCounts_both : Both c Eq (blockCounts readVarintAsync) :=
  blockCounts_rel c.logic (readVarintAsync_both hc)

end Primitives

/-! ## §2. Recorded reads. -/

theorem recordedReads_both {c : Corr Error Error σ τ} (hc : Reads c) :
    RecordedReads (recordedBoth c) :=
  recordedReads_of {
    exact := fun n => onStream_both (hc n)
    byte := onStream_both (readByte_both hc)
    charge := charge_both
    record := record_both }

/-! ## §3. Columns. -/

section Columns

variable {c : Corr Error Error σ τ} (hc : Reads c)

include hc

variable (rows : Nat)

theorem readFixedColumn_both (width : Nat) (what : String) :
    Both c Eq (readFixedColumn rows width what) :=
  .liftExcept_both fun len _ => hc len

theorem readUnparsedRows_both (left total : Nat) : Both c Eq (readUnparsedRows left total) := by
  induction left generalizing total with
  | zero => exact .pure rfl
  | succ left ih =>
    refine bind_both (readVarintAsync_both hc) fun value => ?_
    refine .liftExcept_both fun len _ => ?_
    refine .liftExcept_both fun total _ => ?_
    exact bind_both (hc len) fun _ => bind_both (ih total) fun _ => .pure rfl

theorem readLeafAsync_both (ct : ColumnType) (rows : Nat) : Both c Eq (readLeafAsync ct rows) := by
  have hfixed := fun width => readFixedColumn_both hc rows width "fixed-width column"
  unfold readLeafAsync
  split
  · exact hc rows
  · refine bind_both (readU64_both hc) fun version => ?_
    refine .ite (fun _ => .fail_fail) (fun _ => ?_)
    exact readStringRows_both hc _ rows none 0
  · exact .fail_fail
  · exact .fail_fail
  · exact readStringRows_both hc _ rows none 0
  · exact readStringRows_both hc _ rows none 0
  · exact readFixedColumn_both hc rows _ _
  cases ct.fixedWidth with
  | some width => exact hfixed width
  | none => exact .fail_fail

variable {columnA : Text → Nat → Read σ Bytes}
  {columnB : Text → Nat → Read τ Bytes}

theorem readLcAsync_both (hcolumn : ∀ name rows, Sim c Eq (columnA name rows) (columnB name rows))
    (inner : ColumnType) (rows : Nat) :
    Sim c Eq (readLcAsync columnA inner rows) (readLcAsync columnB inner rows) := by
  refine .ite (fun _ => .pure rfl) (fun _ => ?_)
  refine bind_both (hc 24) fun header => ?_
  refine .liftExcept_both fun numKeys _ => ?_
  refine .liftExcept_both fun idxWidth _ => ?_
  refine bind_both (.ite (fun _ => hcolumn _ _) (fun _ => .pure rfl)) fun dict => ?_
  refine bind_both (readU64_both hc) fun ni => ?_
  refine .ite (fun _ => .fail_fail) (fun _ => ?_)
  refine .liftExcept_both fun len _ => ?_
  refine bind_both (hc len) fun indexes => ?_
  exact .ite (fun _ => .pure rfl) (fun _ => .liftExcept_same _)

theorem readTypedAsync_both
    (hcolumn : ∀ name rows, Sim c Eq (columnA name rows) (columnB name rows)) (depth : Nat)
    (typeName : Text) (ct : ColumnType) (rows : Nat) :
    Sim c Eq (readTypedAsync columnA depth typeName ct rows)
      (readTypedAsync columnB depth typeName ct rows) := by
  have hleaf := readLeafAsync_both hc ct rows
  cases ct with
  | nullable inner =>
    exact bind_both (hc rows) fun _ => bind_both (hcolumn _ rows) fun _ => .pure rfl
  | array inner =>
    refine bind_both (readOffsetsColumn_both hc rows _) fun offsets => ?_
    refine .ite (fun _ => ?_) (fun _ => .pure rfl)
    exact bind_both (hcolumn _ _) fun _ => .pure rfl
  | map key value =>
    refine bind_both (readOffsetsColumn_both hc rows _) fun offsets => ?_
    refine .ite (fun _ => ?_) (fun _ => .pure rfl)
    exact bind_both (hcolumn _ _) fun _ => bind_both (hcolumn _ _) fun _ => .pure rfl
  | tuple elems =>
    exact bind_both (collect_both (fun _ => hcolumn _ rows) elems) fun _ => .pure rfl
  | lowCardinality inner => exact readLcAsync_both hc hcolumn inner rows
  | point => exact bind_both (hcolumn _ rows) fun _ => bind_both (hcolumn _ rows) fun _ => .pure rfl
  | ring | polygon | multiPolygon => exact hcolumn _ rows
  | dynamic => exact recording_both ((recordedReads_both hc).column (depth + 1) typeName rows)
  | variant types =>
    have hops := (recordedReads_both hc).ops
    apply recording_both
    refine .bind (statePrefix_sim hops (depth + 1) (.variant types)
      trivial) fun state _ hstate => ?_
    obtain ⟨rfl, hknown⟩ := hstate
    exact variantBody_sim hops (bodyRaw_sim hops depth) trivial
      (known_variantStates hknown) rows
  | _ => exact hleaf

/-- **A column on two streams.** -/
theorem readColumnAsync_both (depth : Nat) (typeName : Text) (rows : Nat) :
    Both c Eq (readColumnAsync depth typeName rows) := by
  induction depth generalizing typeName rows with
  | zero => exact .ite (fun _ => .pure rfl) (fun _ => .tooDeep_tooDeep)
  | succ depth ih =>
    refine .ite (fun _ => .pure rfl) (fun _ => ?_)
    cases parseType typeName with
    | error e => exact readUnparsedRows_both hc rows 0
    | ok ct => exact readTypedAsync_both hc ih depth typeName ct rows

theorem discardExactAsync_both (len : Nat) : Both c Any (discardExactAsync len) :=
  discardWindows_both hc _ len len

theorem discardOffsetWindows_both (name : String) (fuel remaining total : Nat) :
    Both c Eq (discardOffsetWindows name fuel remaining total) := by
  induction fuel generalizing remaining total with
  | zero => exact .pure rfl
  | succ fuel ih =>
    refine .ite (fun _ => .pure rfl) (fun _ => ?_)
    refine bind_both (hc _) fun window => ?_
    exact .liftExcept_both fun total _ => ih _ total

theorem discardOffsetsAsync_both (name : String) :
    Both c Eq (discardOffsetsAsync rows name) :=
  .liftExcept_both fun remaining _ => discardOffsetWindows_both hc name remaining remaining 0

theorem discardStringRows_both (lengthName : String) :
    Both c Any (discardStringRows rows lengthName) := by
  refine c.logic.times ?_ rows
  refine bind_both (readVarintAsync_both hc) fun value => ?_
  exact .liftExcept_both fun len _ => discardExactAsync_both hc len

theorem discardFixed_both (width : Nat) : Both c Any (discardFixed rows width) :=
  .liftExcept_both fun len _ => discardExactAsync_both hc len

theorem discardLeafAsync_both (ct : ColumnType) (rows : Nat) :
    Both c Any (discardLeafAsync ct rows) := by
  cases ct with
  | string => exact discardStringRows_both hc rows _
  | json =>
    refine bind_both (readU64_both hc) fun version => ?_
    refine .ite (fun _ => .fail_fail) (fun _ => ?_)
    exact discardStringRows_both hc rows _
  | decimal precision scale => exact decimalColumn_rel c.logic fun width => discardFixed_both hc rows width
  | _ => first
    | exact discardExactAsync_both hc rows
    | exact discardFixed_both hc rows _
    | exact .pure trivial

variable {columnA : Text → Nat → Read σ Unit} {columnB : Text → Nat → Read τ Unit}

theorem discardLcAsync_both
    (hcolumn : ∀ name rows, Sim c Any (columnA name rows) (columnB name rows)) (inner : ColumnType)
    (rows : Nat) :
    Sim c Any (discardLcAsync columnA inner rows)
      (discardLcAsync columnB inner rows) := by
  refine bind_both (hc 24) fun header => ?_
  refine .liftExcept_both fun idxWidth _ => ?_
  refine .liftExcept_both fun numKeys _ => ?_
  refine .bind (hcolumn _ numKeys) fun _ _ _ => ?_
  refine bind_both (readU64_both hc) fun indexes => ?_
  refine .ite (fun _ => .fail_fail) (fun _ => ?_)
  exact .liftExcept_both fun len _ => discardExactAsync_both hc len

theorem discardTypedAsync_both
    (hcolumn : ∀ name rows, Sim c Any (columnA name rows) (columnB name rows)) (depth : Nat)
    (typeName : Text) (ct : ColumnType) (rows : Nat) :
    Sim c Any (discardTypedAsync columnA depth typeName ct rows)
      (discardTypedAsync columnB depth typeName ct rows) := by
  have hleaf := discardLeafAsync_both hc ct rows
  have hread : Both c Any (do let _ ← readColumnAsync (depth + 1) typeName rows) :=
    bind_both (readColumnAsync_both hc (depth + 1) typeName rows) fun _ => .pure trivial
  cases ct with
  | nullable inner => exact .bind (discardExactAsync_both hc rows) fun _ _ _ => hcolumn _ rows
  | array inner => exact bind_both (discardOffsetsAsync_both hc rows _) fun total => hcolumn _ total
  | map key value =>
    refine bind_both (discardOffsetsAsync_both hc rows _) fun total => ?_
    exact .bind (hcolumn _ total) fun _ _ _ => hcolumn _ total
  | tuple elems => exact c.logic.forEach fun _ _ => hcolumn _ rows
  | lowCardinality inner => exact discardLcAsync_both hc hcolumn inner rows
  | point => exact .bind (hcolumn _ rows) fun _ _ _ => hcolumn _ rows
  | ring | polygon | multiPolygon => exact hcolumn _ rows
  | dynamic | variant types | aggregateFunction | simpleAggregateFunction | other name =>
    exact hread
  | _ => exact hleaf

/-- **A discarded column on two streams.** -/
theorem discardColumnAsync_both (depth : Nat) (typeName : Text) (rows : Nat) :
    Both c Any (discardColumnAsync depth typeName rows) := by
  induction depth generalizing typeName rows with
  | zero => exact .ite (fun _ => .pure trivial) (fun _ => .tooDeep_tooDeep)
  | succ depth ih =>
    refine .ite (fun _ => .pure trivial) (fun _ => ?_)
    cases parseType typeName with
    | error e => exact discardStringRows_both hc rows _
    | ok ct => exact discardTypedAsync_both hc ih depth typeName ct rows

end Columns

/-! ## §4. Blocks. -/

section Blocks

variable {c : Corr Error Error σ τ} (hc : Reads c) (depth : Nat)

include hc

theorem readBlockHeader_both : Both c Eq (readBlockHeader depth) := by
  refine bind_both (readStringAsync_both hc) fun _ => ?_
  exact .bind (blockInfoLoop_both hc depth) fun _ _ _ => blockCounts_both hc

theorem readBlockColumns_both (counts : Nat × Nat) : Both c Eq (readBlockColumns depth counts) := by
  refine bind_both (collect_both (fun _ => ?_) _) fun _ => .pure rfl
  refine bind_both (readStringAsync_both hc) fun name => ?_
  refine bind_both (readStringAsync_both hc) fun typeName => ?_
  refine bind_both (hc 1) fun _ => ?_
  refine bind_both (.ite (fun _ => readColumnAsync_both hc depth typeName counts.2)
    (fun _ => .pure rfl)) fun _ => ?_
  exact .pure rfl

theorem discardBlockColumns_both (counts : Nat × Nat) :
    Both c Eq (discardBlockColumns depth counts) := by
  refine .bind (c.logic.times ?_ counts.1) fun _ _ _ => .pure rfl
  refine bind_both (readStringAsync_both hc) fun name => ?_
  refine bind_both (readStringAsync_both hc) fun typeName => ?_
  refine bind_both (readByte_both hc) fun custom => ?_
  refine .ite (fun _ => .fail_fail) (fun _ => ?_)
  exact discardColumnAsync_both hc depth typeName counts.2

theorem readDataBlock_both : Both c Eq (readDataBlock depth) :=
  bind_both (readBlockHeader_both hc depth) (readBlockColumns_both hc depth)

theorem readDataBlockBody_both : Both c Eq (readDataBlockBody depth) := by
  refine .bind (blockInfoLoop_both hc depth) fun _ _ _ => ?_
  exact bind_both (blockCounts_both hc) (readBlockColumns_both hc depth)

theorem discardDataBlock_both : Both c Eq (discardDataBlock depth) :=
  bind_both (readBlockHeader_both hc depth) (discardBlockColumns_both hc depth)

theorem discardDataBlockBody_both : Both c Eq (discardDataBlockBody depth) := by
  refine .bind (blockInfoLoop_both hc depth) fun _ _ _ => ?_
  exact bind_both (blockCounts_both hc) (discardBlockColumns_both hc depth)

end Blocks

/-! ## §5. Other packets. -/

section Packets

variable {c : Corr Error Error σ τ} (hc : Reads c)

include hc

theorem readProgressPacket_both : Both c Eq readProgressPacket := by
  have hv := readVarintAsync_both hc
  refine bind_both hv fun rows => ?_
  refine bind_both hv fun bytes => ?_
  refine bind_both hv fun totalRows => ?_
  refine bind_both hv fun writtenRows => ?_
  refine bind_both hv fun writtenBytes => ?_
  refine bind_both hv fun _ => ?_
  exact bind_both hv fun _ => .pure rfl

theorem readProfileInfoPacket_both : Both c Eq readProfileInfoPacket := by
  have hb := readByte_both hc
  have hv := readVarintAsync_both hc
  refine bind_both hv fun rows => ?_
  refine bind_both hv fun blocks => ?_
  refine bind_both hv fun bytes => ?_
  refine bind_both hb fun appliedLimit => ?_
  refine bind_both hv fun rowsBeforeLimit => ?_
  refine bind_both hb fun calculated => ?_
  refine bind_both hb fun _ => ?_
  exact bind_both hv fun _ => .pure rfl

theorem readPartUuidsPacket_both : Both c Eq readPartUuidsPacket := by
  refine bind_both (readVarintAsync_both hc) fun value => ?_
  exact .liftExcept_both fun count _ => collect_both (fun _ => hc 16) _

theorem readStringLossyAsync_both : Both c Eq readStringLossyAsync := by
  refine bind_both (readVarintAsync_both hc) fun value => ?_
  refine .liftExcept_both fun len _ => ?_
  refine .ite (fun _ => ?_) (fun _ => ?_)
  · exact .bind (discardWindows_both hc _ len len) fun _ _ _ => .pure rfl
  · exact bind_both (hc len) fun _ => .pure rfl

theorem exceptionChain_both (levels : Nat) (root : Option (Int × String)) (messages : List String) :
    Both c Eq (exceptionChain levels root messages) := by
  induction levels generalizing root messages with
  | zero => exact .fail_fail
  | succ levels ih =>
    refine bind_both (hc 4) fun code => ?_
    refine bind_both (readStringLossyAsync_both hc) fun name => ?_
    refine bind_both (readStringLossyAsync_both hc) fun msg => ?_
    refine bind_both (readStringLossyAsync_both hc) fun _ => ?_
    refine bind_both (readByte_both hc) fun nested => ?_
    exact .ite (fun _ => .pure rfl) (fun _ => ih _ _)

theorem readException_both : Both c Eq readException :=
  exceptionChain_both hc _ none []

theorem skipMergeTreePartInfo_both : Both c Any skipMergeTreePartInfo := by
  have hu := readU64_both hc
  refine bind_both hu fun _ => ?_
  refine bind_both (readStringAsync_both hc) fun _ => ?_
  refine bind_both hu fun _ => ?_
  refine bind_both hu fun _ => ?_
  refine bind_both hu fun _ => ?_
  refine bind_both hu fun _ => ?_
  exact bind_both (readByte_both hc) fun _ => .pure trivial

theorem skipMarkRanges_both : Both c Any skipMarkRanges := by
  refine bind_both (readU64_both hc) fun count => ?_
  exact .liftExcept_both fun len _ => discardWindows_both hc _ len len

theorem skipRangesInDataPartsDescription_both : Both c Any skipRangesInDataPartsDescription := by
  have hv := readVarintAsync_both hc
  refine bind_both hv fun count => c.logic.times ?_ count
  refine .bind (skipMergeTreePartInfo_both hc) fun _ _ _ => ?_
  refine .bind (skipMarkRanges_both hc) fun _ _ _ => ?_
  refine bind_both hv fun _ => ?_
  refine bind_both (readStringAsync_both hc) fun _ => ?_
  exact bind_both hv fun _ => .pure trivial

theorem skipParallelReadAnnouncement_both : Both c Any skipParallelReadAnnouncement := by
  have hu := readU64_both hc
  refine bind_both hu fun _ => ?_
  refine bind_both (readByte_both hc) fun _ => ?_
  refine .bind (skipRangesInDataPartsDescription_both hc) fun _ _ _ => ?_
  refine bind_both hu fun _ => ?_
  refine bind_both hu fun _ => ?_
  refine bind_both (readVarintAsync_both hc) fun _ => ?_
  exact bind_both (readStringAsync_both hc) fun _ => .pure trivial

theorem readParallelReadRequestStreamId_both : Both c Eq readParallelReadRequestStreamId := by
  have hu := readU64_both hc
  refine bind_both hu fun _ => ?_
  refine bind_both (readByte_both hc) fun _ => ?_
  refine bind_both hu fun _ => ?_
  refine bind_both hu fun _ => ?_
  refine .bind (skipRangesInDataPartsDescription_both hc) fun _ _ _ => ?_
  exact readStringAsync_both hc

theorem unsupportedServerPacket_both (packetType : Nat) : Both c Eq (unsupportedServerPacket packetType) := by
  refine .ite (fun _ => .pure rfl) (fun _ => ?_)
  refine .ite (fun _ => .pure rfl) (fun _ => ?_)
  refine .ite (fun _ => .pure rfl) (fun _ => ?_)
  refine .ite (fun _ => .pure rfl) (fun _ => ?_)
  refine .ite (fun _ => ?_) (fun _ => .pure rfl)
  exact bind_both (readStringAsync_both hc) fun _ => .pure rfl

end Packets

end StClickHouse
