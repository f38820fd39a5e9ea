/-
  StClickHouse.Async.Discard
  **DISCARDING A COLUMN IS A SHADOW OF READING IT.**

  `discard_column_async` (`connection/block_reader.rs`) walks a column without
  keeping it: payloads and offsets go through fixed windows, and the size caps
  of the reader are mostly not applied.  A block is discarded under one more
  condition than it is read: no column may announce a custom serialization.

  Main results:
    * `discardColumnAsync_shadow` — wherever reading a column gets to, discarding gets to
    * `readColumnAsync_discard`   — and for which blocks, exactly
    * `discardDataBlock_custom`   — a block that is read and not discarded
-/
import StClickHouse.Async.ColumnReader
import StClickHouse.Lib.Along
import StClickHouse.Wire.Recorded

namespace StClickHouse

open ByteReader RustText List

/-! ## §1. The discarding functions. -/

section Discard

variable {σ : Type} [ByteStream Error σ]

/-- `discard_exact_async`. -/
def discardExactAsync (len : Nat) : Read σ Unit := discardWindows (16 * 1024) len len

/-- Read offsets in windows of 8 KiB and scan each window. -/
def discardOffsetWindows (name : String) : Nat → Nat → Nat → Read σ Nat
  | 0, _, total => pure total
  | fuel + 1, remaining, total =>
    if remaining = 0 then pure total
    else do
      let window ← readExact (min remaining (8 * 1024))
      let total ← liftExcept (scanOffsets name total window)
      discardOffsetWindows name fuel (remaining - min remaining (8 * 1024)) total

/-- `discard_offsets_async`. -/
def discardOffsetsAsync (rows : Nat) (name : String) : Read σ Nat := do
  let remaining ← liftExcept (checkedColumnLen rows 8 name)
  discardOffsetWindows name remaining remaining 0

/-- Discard length-prefixed strings. -/
def discardStringRows (rows : Nat) (lengthName : String) : Read σ Unit :=
  times rows do
    let value ← readVarintAsync
    let len ← liftExcept (checkedStringLen value lengthName)
    discardExactAsync len

/-- Discard a fixed-width column; only an overflow is refused. -/
def discardFixed (rows width : Nat) : Read σ Unit := do
  let len ← liftExcept (checkedLen rows width)
  discardExactAsync len

/-- `discard_lc_async`; `column` discards the dictionary. -/
def discardLcAsync (column : Text → Nat → Read σ Unit) (inner : ColumnType)
    (rows : Nat) : Read σ Unit := do
  let header ← readExact 24
  let idxWidth ← liftExcept (lcIdxWidth (lcWords header).1 (lcWords header).2.1)
  let numKeys ← liftExcept (lcKeyCount (lcWords header).2.2)
  column inner.display numKeys
  let indexes ← readU64
  if indexes ≠ rows then fail (lcCountError indexes rows)
  else do
    let len ← liftExcept (checkedColumnLen indexes idxWidth "LowCardinality index")
    discardExactAsync len

/-- `discard_column_async` on a type without subcolumns. -/
def discardLeafAsync (ct : ColumnType) (rows : Nat) : Read σ Unit :=
  match ct with
  | .uint8 | .int8 | .bool | .enum8 => discardExactAsync rows
  | .uint16 | .int16 | .date | .enum16 => discardFixed rows 2
  | .uint32 | .int32 | .float32 | .date32 | .dateTime | .time | .ipv4 => discardFixed rows 4
  | .uint64 | .int64 | .float64 | .dateTime64 _ | .time64 _ => discardFixed rows 8
  | .uint128 | .int128 | .uuid | .ipv6 => discardFixed rows 16
  | .uint256 | .int256 => discardFixed rows 32
  | .decimal precision _ => decimalColumn (discardFixed rows) precision
  | .string => discardStringRows rows "string value length"
  | .json => do
    let version ← readU64
    if version ≠ 1 ∧ version ≠ 4 then fail (jsonVersionError version)
    else discardStringRows rows "JSON string length"
  | .fixedString n => discardFixed rows n.toNat
  | .nothing => discardExactAsync rows
  -- the remaining constructors are handled by `discardTypedAsync`
  | _ => pure ()

/-- `discard_column_async` on a parsed type and at least one row; `column` is the
call one level deeper. -/
def discardTypedAsync (column : Text → Nat → Read σ Unit) (depth : Nat)
    (typeName : Text) (ct : ColumnType) (rows : Nat) : Read σ Unit :=
  match ct with
  | .nullable inner => do
    discardExactAsync rows
    column inner.display rows
  | .array inner => do
    let total ← discardOffsetsAsync rows "array offset"
    column inner.display total
  | .map key value => do
    let total ← discardOffsetsAsync rows "map offset"
    column key.display total
    column value.display total
  | .tuple elems => forEach (fun elem => column elem.display rows) elems
  | .lowCardinality inner => discardLcAsync column inner rows
  | .point => do
    column "Float64".toList rows
    column "Float64".toList rows
  | .ring => column "Array(Point)".toList rows
  | .polygon => column "Array(Ring)".toList rows
  | .multiPolygon => column "Array(Polygon)".toList rows
  -- these are read and dropped, by a call of `read_column_async` at this level
  | .dynamic | .variant _ | .aggregateFunction | .simpleAggregateFunction | .other _ => do
    let _ ← readColumnAsync (depth + 1) typeName rows
    return ()
  | ct => discardLeafAsync ct rows

/-- `discard_column_async`; an empty column needs no depth. -/
def discardColumnAsync : Nat → Text → Nat → Read σ Unit
  | 0, _, rows => if rows = 0 then pure () else tooDeep
  | depth + 1, typeName, rows =>
    if rows = 0 then pure ()
    else match parseType typeName with
      | .error _ => discardStringRows rows "string value length"
      | .ok ct => discardTypedAsync (discardColumnAsync depth) depth typeName ct rows

/-- One column of a discarded block. -/
def discardBlockColumn (depth rows : Nat) : Read σ Unit := do
  let name ← readStringAsync
  let typeName ← readStringAsync
  let custom ← readByte
  if custom ≠ 0 then fail (customSerializationError name)
  else discardColumnAsync depth typeName rows

/-- The columns of a discarded block; the result is its row count. -/
def discardBlockColumns (depth : Nat) (counts : Nat × Nat) : Read σ Nat := do
  times counts.1 (discardBlockColumn depth counts.2)
  return counts.2

/-- `discard_data_block`. -/
def discardDataBlock (depth : Nat) : Read σ Nat := do
  let counts ← readBlockHeader depth
  discardBlockColumns depth counts

/-- `discard_data_block_body`: a block after its table name. -/
def discardDataBlockBody (depth : Nat) : Read σ Nat := do
  blockInfoLoop readVarintAsync readExact depth
  let counts ← blockCounts readVarintAsync
  discardBlockColumns depth counts

end Discard

/-! ## §2. Windows. -/

section Shadow

variable {σ : Type} [ByteStream Error σ] [LawfulByteStream Error σ]
  {late : Stop Error → Prop}

variable {len : Nat} {s s' : σ}

theorem discardExactAsync_of_readExact {bs : Bytes}
    (hread : readExact (ε := Error) len s = (.ok bs, s')) :
    discardExactAsync len s = (.ok (), s') :=
  (discardWindows_ok_iff (by decide) len len (Nat.le_refl len)).mpr ⟨_, hread⟩

theorem discardExactAsync_shadow (len : Nat) :
    Sim (shadow late) Any (readExact len : Read σ Bytes)
      (discardExactAsync len) :=
  .of_shadow_ok fun _ _ _ hread => ⟨(), discardExactAsync_of_readExact hread, trivial⟩

/-- The offset windows give the total of one scan: windows end at offset
boundaries, so the scan goes on where it stopped. -/
theorem discardOffsetWindows_of_scan {name : String} (fuel len total : Nat) :
    len ≤ fuel → 8 ∣ len → ∀ {s s' : σ} {bs : Bytes} {n : Nat},
      readExact (ε := Error) len s = (.ok bs, s') → scanOffsets name total bs = .ok n →
      discardOffsetWindows name fuel len total s = (.ok n, s') := by
  induction fuel generalizing len total with
  | zero =>
    intro hle _ s s' bs n hread hscan
    have hzero : len = 0 := by omega
    rw [hzero, LawfulByteStream.zero] at hread
    cases hread
    cases hscan
    rfl
  | succ fuel ih =>
    intro hle hdvd s s' bs n hread hscan
    unfold discardOffsetWindows
    by_cases hzero : len = 0
    · rw [hzero, LawfulByteStream.zero] at hread
      cases hread
      cases hscan
      rw [if_pos hzero]
      rfl
    rw [if_neg hzero]
    obtain ⟨s₁, hfirst, hrest⟩ := readExact_split (min_le_left len (8 * 1024)) hread
    have hwindow : 8 ∣ (bs.take (min len (8 * 1024))).length := by
      rw [LawfulByteStream.length_eq hfirst]
      omega
    rw [← take_append_drop (min len (8 * 1024)) bs, scanOffsets_append _ hwindow] at hscan
    rw [bind_ok hfirst]
    rcases hsub : scanOffsets name total (bs.take (min len (8 * 1024))) with e | total'
    · rw [hsub] at hscan
      cases hscan
    rw [hsub] at hscan
    exact ih _ total' (by omega) (by omega) hrest hscan

theorem discardOffsetsAsync_shadow (rows : Nat) (name : String) :
    Sim (shadow late) (fun offsets total => offsets.2 = total)
      (readOffsetsColumn rows name : Read σ (Bytes × Nat))
      (discardOffsetsAsync rows name) := by
  apply Sim.of_shadow_ok
  intro s offsets s' hread
  unfold discardOffsetsAsync
  obtain ⟨nbytes, s₁, hlen, hread⟩ := bind_eq_ok_iff.mp hread
  obtain ⟨bs, s₂, hbytes, hread⟩ := bind_eq_ok_iff.mp hread
  obtain ⟨total, s₃, hscan, hread⟩ := bind_eq_ok_iff.mp hread
  rw [bind_ok hlen]
  obtain ⟨hchecked, rfl⟩ := liftExcept_eq_ok_iff.mp hlen
  obtain ⟨htotal, rfl⟩ := liftExcept_eq_ok_iff.mp hscan
  have hdvd : 8 ∣ nbytes := by
    rw [(checkedColumnLen_ok hchecked).1]
    exact Nat.dvd_mul_left 8 rows
  cases hread
  exact ⟨total, discardOffsetWindows_of_scan nbytes nbytes 0 le_rfl hdvd hbytes htotal,
    rfl⟩

/-! ## §3. Strings. -/

/-- Where the row to come starts, given the state after the byte that has been
read ahead. -/
def RowStart (pending : Option UInt8) (s start : σ) : Prop :=
  match pending with
  | none => start = s
  | some b => readExact (ε := Error) 1 start = (.ok [b], s)

omit [LawfulByteStream Error σ] in
/-- The length of a row is read from where the row starts. -/
theorem firstLengthByte_bind {pending : Option UInt8} {start : σ}
    (hstart : RowStart pending s start) {α : Type} (f : Nat → Read σ α) :
    (firstLengthByte pending >>= fun first => varintAfter first >>= f) s = (readVarint >>= f) start := by
  have hassoc : (readVarint >>= f : Read σ α)
      = readByte >>= fun first => varintAfter first >>= f := by
    rw [← readVarintAsync_eq]
    unfold readVarintAsync
    rw [bind_assoc]
  rw [hassoc]
  rcases pending with _ | b
  · cases hstart
    rfl
  have hbyte : readByte start = (.ok b, s) := by
    unfold readByte
    rw [bind_ok hstart]
    rfl
  rw [bind_ok hbyte]
  rfl

theorem rowStart_of_lookahead {scratch : Bytes}
    (hread : readExact (ε := Error) (len + 1) s = (.ok scratch, s')) :
    ∃ s₁, readExact (ε := Error) len s = (.ok (scratch.take len), s₁)
      ∧ RowStart (some (scratch.getD len 0)) s' s₁ := by
  obtain ⟨s₁, hbody, hnext⟩ := LawfulByteStream.add_iff.mp hread
  refine ⟨s₁, hbody, ?_⟩
  have hlen : scratch.length = len + 1 := LawfulByteStream.length_eq hread
  have hlast : scratch.drop len = [scratch.getD len 0] := by
    have hlt : len < scratch.length := by omega
    rw [drop_eq_getElem_cons hlt, drop_eq_nil_of_le (by omega),
      getD_eq_getElem?_getD, List.getElem?_eq_getElem hlt, Option.getD_some]
  rw [hlast] at hnext
  exact hnext

/-- A row that starts with a length starts with a byte, which can be read with the row
before it. -/
theorem lookahead_of_rowStart {value : Nat} {mid : σ} {body : Bytes}
    (hbody : readExact (ε := Error) len s = (.ok body, mid))
    (hnext : readVarint mid = (.ok value, s')) :
    ∃ b s₁, RowStart (some b) s₁ mid ∧ (body ++ [b]).take len = body ∧ (body ++ [b]).getD len 0 = b ∧
      readExact (ε := Error) (len + 1) s = (.ok (body ++ [b]), s₁) := by
  have hlength : body.length = len := LawfulByteStream.length_eq hbody
  obtain ⟨first, _, hfirst, _⟩ := bind_eq_ok_iff.mp hnext
  obtain ⟨bs, s₁, hread, _⟩ := bind_eq_ok_iff.mp hfirst
  obtain ⟨b, rfl⟩ := length_eq_one_iff.mp (LawfulByteStream.length_eq hread)
  have htake : (body ++ [b]).take len = body := take_left' hlength
  refine ⟨b, s₁, hread, htake, ?_, LawfulByteStream.add_iff.mpr ⟨mid, ?_, ?_⟩⟩
  · rw [getD_eq_getElem?_getD, ← hlength, List.getElem?_concat_length]
    rfl
  · rw [htake]
    exact hbody
  · rw [drop_left' hlength]
    exact hread

/-- The plain loop: a length, then that many bytes, row by row, under the same limits. -/
def readStringRowsPlainly (lengthName : String) : Nat → Nat → Read σ Bytes
  | 0, _ => pure []
  | left + 1, total => do
    let value ← readVarint
    let len ← liftExcept (checkedStringLen value lengthName)
    let total ← liftExcept (checkedColumnBytes total (varintLen len + len) lengthName)
    let body ← readExact len
    let rest ← readStringRowsPlainly lengthName left total
    return encodeVarint len ++ body ++ rest

variable {lengthName : String}

/-- **The merged reads are the plain loop.**  The invariant: a row starts where the row
before ended, although its first length byte may already have been read. -/
theorem readStringRows_ok_iff (rows : Nat) (pending : Option UInt8) (total : Nat) :
    (rows = 0 → pending = none) →
      ∀ {s s' start : σ} {data : Bytes}, RowStart pending s start →
      (readStringRows lengthName rows pending total s = (.ok data, s') ↔
        readStringRowsPlainly lengthName rows total start = (.ok data, s')) := by
  induction rows generalizing pending total with
  | zero =>
    intro hnone s s' start data hstart
    rw [hnone rfl] at hstart
    cases hstart
    exact .rfl
  | succ left ih =>
    intro _ s s' start data hstart
    unfold readStringRows readStringRowsPlainly
    rw [firstLengthByte_bind hstart]
    simp only [bind_eq_ok_iff]
    -- both have read the length and checked it; what is left is the body and the other rows
    refine exists_congr fun value => exists_congr fun s₁ => and_congr_right fun _ => ?_
    refine exists_congr fun len => exists_congr fun s₂ => and_congr_right fun _ => ?_
    refine exists_congr fun total' => exists_congr fun s₃ => and_congr_right fun _ => ?_
    by_cases hbig : len > stringColMergedMax
    · rw [if_pos hbig]
      simp only [bind_eq_ok_iff]
      refine exists_congr fun body => exists_congr fun s₄ => and_congr_right fun _ => ?_
      exact exists_congr fun rest => exists_congr fun s₅ => and_congr_left fun _ =>
        ih none total' (fun _ => rfl) rfl
    rw [if_neg hbig]
    by_cases hlast : left = 0
    · subst hlast
      have hbody : (if len > 0 then readExact len else pure [] : Read σ Bytes)
          = readExact len := by
        by_cases hempty : len > 0
        · exact if_pos hempty
        have hzero : len = 0 := by omega
        rw [if_neg hempty, hzero]
        exact funext fun s => (LawfulByteStream.zero s).symm
      rw [if_pos rfl, hbody]
      simp only [bind_eq_ok_iff]
      refine exists_congr fun body => exists_congr fun s₄ => and_congr_right fun _ => ?_
      constructor
      · intro h
        cases h
        exact ⟨[], _, rfl, by rw [append_nil]; rfl⟩
      rintro ⟨rest, s₅, hrest, h⟩
      cases hrest
      rw [append_nil] at h
      exact h
    · rw [if_neg hlast]
      simp only [bind_eq_ok_iff]
      constructor
      · rintro ⟨scratch, s₄, hscratch, rest, s₅, hrest, h⟩
        obtain ⟨mid, hbody, hnext⟩ := rowStart_of_lookahead hscratch
        exact ⟨_, mid, hbody, rest, s₅,
          (ih _ total' (fun hzero => absurd hzero hlast) hnext).mp hrest, h⟩
      rintro ⟨body, mid, hbody, rest, s₅, hrest, h⟩
      obtain ⟨left', rfl⟩ : ∃ left', left = left' + 1 := ⟨left - 1, by omega⟩
      obtain ⟨value', s₆, hvalue, _⟩ := bind_eq_ok_iff.mp hrest
      obtain ⟨b, s₄, hnext, htake, hahead, hscratch⟩ := lookahead_of_rowStart hbody hvalue
      refine ⟨_, s₄, hscratch, rest, s₅, ?_, by rw [htake]; exact h⟩
      rw [hahead]
      exact (ih _ total' (fun hzero => absurd hzero hlast) hnext).mpr hrest

/-- **One string column.**  The merged reader accepts exactly what the plain loop accepts,
stops at the same byte, and returns the same rows with their lengths in the shortest form. -/
theorem readStringColumn_is_plain (rows : Nat) (lengthName : String) (s s' : σ) (data : Bytes) :
    readStringColumnWithPrefixes rows lengthName s = (.ok data, s') ↔
      readStringRowsPlainly lengthName rows 0 s = (.ok data, s') :=
  readStringRows_ok_iff rows none 0 (fun _ => rfl) rfl

/-- Two rows, the first length in a long form: the byte that follows the column is left. -/
theorem readStringColumn_is_plain_pair :
    readStringColumnWithPrefixes 2 "string value length" ([129, 0, 97, 0, 5] : Bytes)
      = (.ok [1, 97, 0], [5]) :=
  (readStringColumn_is_plain 2 "string value length" ([129, 0, 97, 0, 5] : Bytes) [5]
    [1, 97, 0]).mpr (by decide +kernel)

variable {rows : Nat}

theorem discardStringRows_of_plain {total : Nat} {data : Bytes} :
    readStringRowsPlainly lengthName rows total s = (.ok data, s') →
    discardStringRows rows lengthName s = (.ok (), s') := by
  induction rows generalizing total s s' data with
  | zero =>
    intro h
    cases h
    rfl
  | succ left ih =>
    intro h
    obtain ⟨value, s₁, hvalue, h⟩ := bind_eq_ok_iff.mp h
    obtain ⟨len, s₂, hlen, h⟩ := bind_eq_ok_iff.mp h
    obtain ⟨total', s₃, htotal, h⟩ := bind_eq_ok_iff.mp h
    obtain ⟨_, rfl⟩ := liftExcept_eq_ok_iff.mp htotal
    obtain ⟨body, s₄, hbody, h⟩ := bind_eq_ok_iff.mp h
    obtain ⟨rest, s₅, hrest, h⟩ := bind_eq_ok_iff.mp h
    cases h
    rw [← readVarintAsync_eq] at hvalue
    have hrow : (readVarintAsync >>= fun value =>
        liftExcept (checkedStringLen value lengthName) >>= fun len => discardExactAsync len)
          s = (.ok (), s₄) := by
      rw [bind_ok hvalue, bind_ok hlen]
      exact discardExactAsync_of_readExact hbody
    show ((readVarintAsync >>= fun value =>
        liftExcept (checkedStringLen value lengthName) >>= fun len => discardExactAsync len)
      >>= fun _ => discardStringRows left lengthName) s = _
    rw [bind_ok hrow]
    exact ih hrest

theorem discardStringRows_shadow (rows : Nat) (lengthName : String) :
    Sim (shadow late) Any
      (readStringColumnWithPrefixes rows lengthName : Read σ Bytes)
      (discardStringRows rows lengthName) :=
  .of_shadow_ok fun _ _ _ hread =>
    ⟨(), discardStringRows_of_plain ((readStringRows_ok_iff rows none 0 (fun _ => rfl) rfl).mp hread),
      trivial⟩

theorem readUnparsedRows_shadow (rows total : Nat) :
    Sim (shadow late) Any (readUnparsedRows rows total : Read σ Bytes)
      (discardStringRows rows "string value length") := by
  induction rows generalizing total with
  | zero => exact .pure trivial
  | succ left ih =>
    show Sim _ _ _ ((readVarintAsync >>= fun value =>
        liftExcept (checkedStringLen value "string value length") >>= fun len =>
          discardExactAsync len)
      >>= fun _ => discardStringRows left "string value length")
    rw [bind_assoc]
    refine bind_both (.same readVarintAsync) fun value => ?_
    rw [bind_assoc]
    refine .liftExcept_both fun len _ => ?_
    refine .liftExcept_left (fun total' _ => ?_) (fun _ _ => trivial)
    refine .bind (discardExactAsync_shadow len) fun body _ _ => ?_
    exact .map_left (ih total') (fun _ _ _ => trivial)

/-! ## §4. Columns. -/

/-- A fixed-width column: the reader's cap implies the discarder's check. -/
theorem discardFixed_shadow (rows width : Nat) (what : String) :
    Sim (shadow late) Any (readFixedColumn rows width what : Read σ _)
      (discardFixed rows width) := by
  unfold readFixedColumn discardFixed
  refine .liftExcept_left (fun len hlen => ?_) (fun _ _ => trivial)
  obtain ⟨rfl, hcap⟩ := checkedColumnLen_ok hlen
  have hbound : maxColumnBytes < usizeBound := by decide
  have hchecked : checkedLen rows width = .ok (rows * width) := by
    unfold checkedLen
    rw [if_neg (by omega)]
  rw [hchecked]
  exact discardExactAsync_shadow (rows * width)

theorem discardByte_shadow (rows : Nat) (what : String) :
    Sim (shadow late) Any (readFixedColumn rows 1 what : Read σ _)
      (discardExactAsync rows) := by
  refine .liftExcept_left (fun len hlen => ?_) (fun _ _ => trivial)
  obtain ⟨rfl, _⟩ := checkedColumnLen_ok hlen
  rw [Nat.mul_one]
  exact discardExactAsync_shadow rows

theorem discardJson_shadow (rows : Nat) :
    Sim (shadow late) Any (readLeafAsync .json rows : Read σ _)
      (discardLeafAsync .json rows) := by
  refine bind_both (.same readU64) fun version => ?_
  exact .ite (fun _ => .fail_fail)
    (fun _ => discardStringRows_shadow rows "JSON string length")

variable {column : Text → Nat → Read σ Bytes}
  {discard : Text → Nat → Read σ Unit}

theorem discardLcAsync_shadow (inner : ColumnType) (hrows : rows ≠ 0)
    (hempty : ∀ name, discard name 0 = pure ())
    (hcolumn : ∀ name n, Sim (shadow late) Any (column name n) (discard name n)) :
    Sim (shadow late) Any (readLcAsync column inner rows)
      (discardLcAsync discard inner rows) := by
  unfold readLcAsync discardLcAsync
  rw [if_neg hrows]
  refine bind_both (.same (readExact 24)) fun header => ?_
  refine .liftExcept_left (fun numKeys hkeys => ?_) (fun _ _ => trivial)
  refine .liftExcept_both fun idxWidth _ => ?_
  rw [hkeys]
  show Sim _ _ _ (discard inner.display numKeys >>= _)
  have hdict : Sim (shadow late) Any
      (if numKeys > 0 then column inner.display numKeys else pure [])
      (discard inner.display numKeys) := by
    by_cases hpos : numKeys > 0
    · rw [if_pos hpos]
      exact hcolumn _ _
    have hzero : numKeys = 0 := by omega
    rw [if_neg hpos, hzero, hempty]
    exact .pure trivial
  refine .bind hdict fun dict _ _ => ?_
  refine bind_both (.same readU64) fun ni => ?_
  refine .ite (fun _ => .fail_fail) (fun _ => ?_)
  refine .liftExcept_both fun len _ => ?_
  -- what the reader does with the indexes is pure
  have hdone : ∀ indexes, Sim (shadow late) (fun (_ : Bytes) (_ : Unit) => True)
      (if numKeys = 0 then pure [] else
        liftExcept (materializeLcInner dict inner indexes idxWidth ni) : Read σ _)
      (pure ()) := by
    intro indexes
    by_cases hzero : numKeys = 0
    · rw [if_pos hzero]
      exact .pure trivial
    rw [if_neg hzero]
    cases materializeLcInner dict inner indexes idxWidth ni with
    | ok data => exact .pure trivial
    | error e => exact .fail_left trivial
  rw [← bind_pure (discardExactAsync len)]
  exact .bind (discardExactAsync_shadow len) (fun indexes _ _ => hdone indexes)

/-- A Map or an Array, given the shadow of what lies below its offsets. -/
theorem discardNested_shadow {α : Type} (rows : Nat) (name : String)
    {below : Nat → Read σ α} {discardBelow : Nat → Read σ Unit}
    {f : Bytes → α → Bytes} (hempty : discardBelow 0 = pure ())
    (hbelow : ∀ n, Sim (shadow late) Any (below n) (discardBelow n)) :
    Sim (shadow late) Any
      (do
        let offsets ← readOffsetsColumn rows name
        if offsets.2 > 0 then do
          let values ← below offsets.2
          return f offsets.1 values
        else return offsets.1)
      (do
        let total ← discardOffsetsAsync rows name
        discardBelow total) := by
  refine .bind (discardOffsetsAsync_shadow rows name) fun offsets total htotal => ?_
  by_cases hpos : offsets.2 > 0
  · rw [if_pos hpos, ← htotal]
    exact .map_left (hbelow _) (fun _ _ _ => trivial)
  have hzero : total = 0 := by omega
  rw [if_neg hpos, hzero, hempty]
  exact .pure trivial

variable (depth : Nat)

omit [LawfulByteStream Error σ] in
theorem discardColumnAsync_zero (typeName : Text) :
    (discardColumnAsync depth typeName 0 : Read σ Unit) = pure () := by
  cases depth <;> rfl

theorem discardTypedAsync_shadow {depth : Nat} {typeName : Text} {ct : ColumnType}
    (hrows : rows ≠ 0) (hempty : ∀ name, discard name 0 = pure ())
    (hcolumn : ∀ name n, Sim (shadow late) Any (column name n) (discard name n))
    (hread : readColumnAsync (depth + 1) typeName rows = readTypedAsync column depth typeName ct rows)
    :
    Sim (shadow late) Any (readTypedAsync column depth typeName ct rows)
      (discardTypedAsync discard depth typeName ct rows) := by
  -- the types that are read and dropped: both sides run the same reader
  have hdropped : Sim (shadow late) Any (readTypedAsync column depth typeName ct rows)
      (do
        let _ ← readColumnAsync (depth + 1) typeName rows
        return () : Read σ Unit) := by
    rw [hread]
    exact .map_right (.same _) (fun _ _ _ => trivial)
  cases ct with
  | nullable inner =>
    refine .bind (discardExactAsync_shadow rows) fun nulls _ _ => ?_
    exact .map_left (hcolumn _ _) (fun _ _ _ => trivial)
  | array inner =>
    exact discardNested_shadow rows _ (f := fun a b => a ++ b) (hempty _) (hcolumn inner.display)
  | map key value =>
    have hbelow : ∀ n, Sim (shadow late) Any
        (do
          let keys ← column key.display n
          let values ← column value.display n
          return (keys, values))
        (do
          discard key.display n
          discard value.display n) := fun n =>
      .bind (hcolumn _ n) fun _ _ _ => .map_left (hcolumn _ n) (fun _ _ _ => trivial)
    have hmap := discardNested_shadow rows "map offset"
      (f := fun offsets (parts : Bytes × Bytes) => offsets ++ parts.1 ++ parts.2)
      (by rw [hempty, hempty]; rfl) hbelow
    simp only [bind_assoc, pure_bind] at hmap
    exact hmap
  | tuple elems =>
    refine .map_left ?_ (fun _ _ _ => trivial) (R := fun _ _ => True)
    exact .collect_forEach fun elem _ => hcolumn _ _
  | lowCardinality inner => exact discardLcAsync_shadow inner hrows hempty hcolumn
  | point =>
    refine .bind (hcolumn _ _) fun _ _ _ => ?_
    exact .map_left (hcolumn _ _) (fun _ _ _ => trivial)
  | ring | polygon | multiPolygon => exact hcolumn _ _
  | json => exact discardJson_shadow rows
  | decimal => exact decimal_sim fun width => discardFixed_shadow rows width _
  | string => exact discardStringRows_shadow rows _
  | nothing => exact discardExactAsync_shadow rows
  | uint8 | int8 | bool | enum8 => exact discardByte_shadow rows _
  | _ => first | exact discardFixed_shadow rows _ _ | exact hdropped

/-- **Discarding a column is a shadow of reading it.** -/
theorem discardColumnAsync_shadow (typeName : Text) (rows : Nat) :
    Sim (shadow late) Any (readColumnAsync depth typeName rows : Read σ _)
      (discardColumnAsync depth typeName rows) := by
  induction depth generalizing typeName rows with
  | zero => exact .ite (fun _ => .pure trivial) (fun _ => .tooDeep_left trivial)
  | succ depth ih =>
    by_cases hrows : rows = 0
    · rw [hrows]
      exact .pure trivial
    unfold readColumnAsync discardColumnAsync
    rw [if_neg hrows, if_neg hrows]
    rcases hparse : parseType typeName with e | ct
    · exact readUnparsedRows_shadow rows 0
    refine discardTypedAsync_shadow hrows (discardColumnAsync_zero depth) ih ?_
    rw [readColumnAsync, if_neg hrows, hparse]

/-! ## §5. Blocks. -/

omit [ByteStream Error σ] [LawfulByteStream Error σ] in
/-- What is always shadowed is followed from every place. -/
theorem followsIf_of_shadow {α β : Type} {R : α → β → Prop} {x : Read σ α}
    {y : Read σ β} (h : Sim (shadow fun _ => False) R x y) (s : σ) :
    FollowsIf True id R x y s :=
  .always fun hx => by
    obtain hy | ⟨_, _, _, hfalse⟩ := h.shadow_ok hx
    · exact hy
    · exact hfalse.elim

/-- The column at this place does not announce a custom serialization: the byte behind its
name and its type name is zero. -/
def PlainColumn (s : σ) : Prop :=
  After readStringAsync s fun _ s => After readStringAsync s fun _ s =>
    After (readExact (ε := Error) 1) s fun custom _ => custom.headD 0 = 0

/-- No column of a block announces one; `s` is the place behind the counts. -/
def PlainColumns (counts : Nat × Nat) (s : σ) : Prop :=
  EachAfter (fun _ => readBlockColumn depth counts.2) (fun _ => PlainColumn)
    (List.replicate counts.1 ()) s

/-- No column of the block at this place announces a custom serialization. -/
def PlainBlock (s : σ) : Prop := After (readBlockHeader depth) s (PlainColumns depth)

/-- The same behind the table name. -/
def PlainBlockBody (s : σ) : Prop :=
  After (blockInfoLoop readVarintAsync readExact depth) s fun _ s =>
    After (blockCounts readVarintAsync) s (PlainColumns depth)

theorem discardBlockColumn_follows (depth rows : Nat) (s : σ) :
    FollowsIf (PlainColumn s) id Any (readBlockColumn depth rows) (discardBlockColumn depth rows)
      s := by
  refine (followsIf_of_shadow (.same readStringAsync) s).after fun {name _ s₁} _ heq => ?_
  cases heq
  refine (followsIf_of_shadow (.same readStringAsync) s₁).after fun {typeName _ s₂} _ heq => ?_
  cases heq
  refine (followsIf_of_shadow (R := fun bs b => b = bs.headD 0)
    (.map_right (.same (readExact 1)) fun _ _ h => h ▸ rfl) s₂).after fun {bs _ s₃} _ heq => ?_
  subst heq
  by_cases hcustom : bs.headD 0 = 0
  · refine .congr ?_ (iff_of_true trivial hcustom)
    rw [if_neg (not_not_intro hcustom)]
    refine (followsIf_of_shadow (R := Any) ?_ s₃).map_left fun _ _ _ => trivial
    by_cases hrows : rows > 0
    · rw [if_pos hrows]
      exact discardColumnAsync_shadow depth typeName rows
    · rw [if_neg hrows, Nat.eq_zero_of_not_pos hrows, discardColumnAsync_zero]
      exact .pure trivial
  · refine .congr (.never ?_) (iff_of_false id hcustom)
    rw [if_pos hcustom]
    exact ⟨_, _, rfl⟩

theorem discardBlockColumns_follows (counts : Nat × Nat) (s : σ) :
    FollowsIf (PlainColumns depth counts s) id (fun block rows => block.rows = rows)
      (readBlockColumns depth counts) (discardBlockColumns depth counts) s := by
  refine ((FollowsIf.collect_times (discardBlockColumn_follows depth counts.2) counts.1 s).bind
    (E := fun _ _ => True) fun _ _ => ?_).congr (and_iff_left (.of_forall fun _ _ => trivial))
  exact .always fun hpure => by cases hpure; exact ⟨_, rfl, rfl⟩

theorem discardDataBlock_follows (s : σ) :
    FollowsIf (PlainBlock depth s) id (fun block rows => block.rows = rows)
      (readDataBlock depth) (discardDataBlock depth) s := by
  refine (followsIf_of_shadow (.same (readBlockHeader depth)) s).after fun _ heq => ?_
  cases heq
  exact discardBlockColumns_follows depth _ _

theorem discardDataBlockBody_follows (s : σ) :
    FollowsIf (PlainBlockBody depth s) id (fun block rows => block.rows = rows)
      (readDataBlockBody depth) (discardDataBlockBody depth) s := by
  refine (followsIf_of_shadow (.same (blockInfoLoop readVarintAsync readExact depth)) s).after
    fun {_ _ s₁} _ _ => ?_
  refine (followsIf_of_shadow (.same (blockCounts readVarintAsync)) s₁).after fun _ heq => ?_
  cases heq
  exact discardBlockColumns_follows depth _ _

omit [ByteStream Error σ] [LawfulByteStream Error σ] in
/-- The row count and the place of a discarded block against those of the block. -/
theorem discards_iff {C : Prop} {read : Read σ Block} {discard : Read σ Nat}
    (h : FollowsIf C id (fun block rows => block.rows = rows) read discard s) {block : Block}
    (hread : read s = (.ok block, s')) : discard s = (.ok block.rows, s') ↔ C := by
  constructor
  · intro hok
    by_contra hC
    obtain ⟨e, t, herror⟩ := h.fails hread hC
    cases herror.symm.trans hok
  · intro hC
    obtain ⟨rows, hok, rfl⟩ := h.follows hread hC
    exact hok

/-- **Where discarding gets to what reading gets to.**  A column that is read is always
discarded up to the same position.  A block that is read is discarded up to the same
position, with its row count, if and only if none of its columns announces a custom
serialization, which reading passes over and discarding refuses. -/
theorem readColumnAsync_discard :
    (∀ (depth : Nat) (typeName : Text) (rows : Nat) (s s' : σ) (data : Bytes),
      readColumnAsync depth typeName rows s = (.ok data, s') →
      discardColumnAsync depth typeName rows s = (.ok (), s'))
    ∧ (∀ (depth : Nat) (s s' : σ) (block : Block), readDataBlock depth s = (.ok block, s') →
      (discardDataBlock depth s = (.ok block.rows, s') ↔ PlainBlock depth s))
    ∧ (∀ (depth : Nat) (s s' : σ) (block : Block), readDataBlockBody depth s = (.ok block, s') →
      (discardDataBlockBody depth s = (.ok block.rows, s') ↔ PlainBlockBody depth s)) := by
  refine ⟨?_, ?_, ?_⟩
  · intro depth typeName rows s s' data hread
    obtain ⟨_, hdiscard, _⟩ :=
      (followsIf_of_shadow (discardColumnAsync_shadow depth typeName rows) s).follows hread trivial
    exact hdiscard
  · intro depth s s' block hread
    exact discards_iff (discardDataBlock_follows depth s) hread
  · intro depth s s' block hread
    exact discards_iff (discardDataBlockBody_follows depth s) hread

end Shadow

/-- Two rows of an array of strings, `["a", ""]` and `[]`, before one more byte; and a block
of one UInt8 column. -/
theorem readColumnAsync_discard_array :
    (let bytes : Bytes :=
      [2, 0, 0, 0, 0, 0, 0, 0, 2, 0, 0, 0, 0, 0, 0, 0, 1, 97, 0, 255]
    readColumnAsync 2 "Array(String)".toList 2 bytes = (.ok (bytes.take 19), [255])
      ∧ discardColumnAsync 2 "Array(String)".toList 2 bytes = (.ok (), [255]))
    ∧ discardDataBlock 2 ([0, 0, 1, 1, 1, 97, 5, 85, 73, 110, 116, 56, 0, 7, 5] : Bytes)
      = (.ok 1, [5]) :=
  ⟨⟨rfl, readColumnAsync_discard.1 2 "Array(String)".toList 2 _ [255] _ rfl⟩,
    (readColumnAsync_discard.2.1 2 _ [5] ⟨[⟨['a'], "UInt8".toList, [7]⟩], 1⟩ rfl).mpr
      ⟨rfl, trivial⟩⟩

/-- **A custom-serialization byte that is set** is passed over by the reader; discarding
stops behind it, inside the block.  What follows the block is EndOfStream. -/
theorem discardDataBlock_custom :
    readDataBlock 2 ([0, 0, 1, 1, 1, 97, 5, 85, 73, 110, 116, 56, 1, 7, 5] : Bytes)
      = (.ok ⟨[⟨['a'], "UInt8".toList, [7]⟩], 1⟩, [5])
    ∧ discardDataBlock 2 ([0, 0, 1, 1, 1, 97, 5, 85, 73, 110, 116, 56, 1, 7, 5] : Bytes)
      = (.error (.error (customSerializationError ['a'])), [7, 5]) :=
  ⟨rfl, rfl⟩

end StClickHouse
