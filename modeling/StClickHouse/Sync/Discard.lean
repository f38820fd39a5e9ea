/-
  StClickHouse.Sync.Discard
  **COUNTING ROWS IN THE SYNC ENGINE.**

  `discard_block_body` walks a block with `discard_column_data`, which has no
  branch for Nothing, Variant and Dynamic although `read_column_data_into` has.
  A block with such a column is read, but its rows cannot be counted.

  Main results:
    * `discardColumnData_follows` — a column is discarded like it is read, unless the
                                    reader comes to elements of one of these types
    * `discardBlockBody_exact`    — the same for a block
    * `discardBlockBody_nothing`  — a block that is read and not counted
-/
import StClickHouse.Lib.Along
import StClickHouse.Sync.BlockReader
import StClickHouse.Wire.Recorded

namespace StClickHouse

open ByteReader RustText List

/-! ## §1. The discarding functions. -/

section Discard

variable {σ : Type} [ByteStream Error σ]

/-- `discard_exact`. -/
def discardExact (len : Nat) : Read σ Unit := discardWindows (16 * 1024) len len

/-- `discard_offsets`: one offset at a time. -/
def discardOffsets (rows : Nat) (name : String) : Read σ Nat :=
  iterate (fun total => do
    let offset ← readU64
    liftExcept (checkedMonotonicOffset total offset name)) rows 0

/-- Discard length-prefixed strings. -/
def discardStrings (rows : Nat) (lengthName : String) : Read σ Unit :=
  times rows do
    let value ← readVarint
    let len ← liftExcept (checkedStringLen value lengthName)
    discardExact len

/-- Discard a fixed-width column. -/
def discardFixedColumn (rows width : Nat) (what : String) : Read σ Unit := do
  let len ← liftExcept (checkedColumnLen rows width what)
  discardExact len

/-- `discard_column_data` on a type without subcolumns. -/
def discardLeaf (ct : ColumnType) (rows : Nat) : Read σ Unit :=
  match ct with
  | .uint8 | .int8 | .bool | .enum8 => discardExact rows
  | .uint16 | .int16 | .date | .enum16 => discardFixedColumn rows 2 "fixed-width column"
  | .uint32 | .int32 | .float32 | .date32 | .dateTime | .time | .ipv4 =>
    discardFixedColumn rows 4 "fixed-width column"
  | .uint64 | .int64 | .float64 | .dateTime64 _ | .time64 _ =>
    discardFixedColumn rows 8 "fixed-width column"
  | .uint128 | .int128 | .uuid | .ipv6 => discardFixedColumn rows 16 "fixed-width column"
  | .uint256 | .int256 => discardFixedColumn rows 32 "fixed-width column"
  | .decimal precision _ =>
    decimalColumn (fun width => discardFixedColumn rows width "fixed-width column") precision
  | .string => discardStrings rows "string value length"
  | .json => do
    let version ← readU64
    if version ≠ 1 ∧ version ≠ 4 then fail (jsonVersionError version)
    else discardStrings rows "JSON string length"
  | .fixedString n => discardFixedColumn rows n.toNat "FixedString column"
  | ct => fail (.text ("discard unsupported for column type " ++ debugText ct))

/-- `discard_low_cardinality`; `column` discards the dictionary. -/
def discardLowCardinality (column : ColumnType → Nat → Read σ Unit) (inner : ColumnType)
    (rows : Nat) : Read σ Unit :=
  if rows = 0 then pure ()
  else do
    let header ← readExact 24
    let idxWidth ← liftExcept (lcIdxWidth (lcWords header).1 (lcWords header).2.1)
    let numKeys ← liftExcept (lcKeyCount (lcWords header).2.2)
    column inner numKeys
    let indexes ← readU64
    if indexes ≠ rows then fail (lcCountError indexes rows)
    else do
      let len ← liftExcept (checkedColumnLen indexes idxWidth "LowCardinality index")
      discardExact len

/-- `discard_column_data` on at least one row; `column` is the call one level
deeper. -/
def discardTyped (column : ColumnType → Nat → Read σ Unit) (ct : ColumnType)
    (rows : Nat) : Read σ Unit :=
  match ct with
  | .nullable inner => do
    discardExact rows
    column inner rows
  | .array inner => do
    let total ← discardOffsets rows "array offset"
    column inner total
  | .map key value => do
    let total ← discardOffsets rows "map offset"
    column key total
    column value total
  | .tuple elems => forEach (fun elem => column elem rows) elems
  | .lowCardinality inner => discardLowCardinality column inner rows
  | .point => do
    column .float64 rows
    column .float64 rows
  | .ring => column (.array .point) rows
  | .polygon => column (.array .ring) rows
  | .multiPolygon => column (.array .polygon) rows
  | ct => discardLeaf ct rows

/-- `discard_column_data`; an empty column needs no depth. -/
def discardColumnData : Nat → ColumnType → Nat → Read σ Unit
  | 0, _, rows => if rows = 0 then pure () else tooDeep
  | depth + 1, ct, rows =>
    if rows = 0 then pure () else discardTyped (discardColumnData depth) ct rows

/-- One column of `discard_block_body`. -/
def discardBodyColumn (depth rows : Nat) : Read σ Unit := do
  let header ← readColumnHeader
  discardColumnData depth header.2.2 rows

/-- `discard_block_body`. -/
def discardBlockBody (depth : Nat) : Read σ Nat := do
  blockInfoLoop readVarint readExact depth
  let counts ← blockCounts readVarint
  times counts.1 (discardBodyColumn depth counts.2)
  return counts.2

end Discard

/-! ## §2. Which columns can be discarded. -/

namespace ColumnType

/-- The fixed-width element types a LowCardinality column is expanded for. -/
def lcFixed : ColumnType → Bool
  | .uint8 | .int8 | .bool | .enum8 | .uint16 | .int16 | .date | .enum16 | .uint32 | .int32
  | .float32 | .date32 | .dateTime | .time | .ipv4 | .uint64 | .int64 | .float64
  | .dateTime64 _ | .time64 _ | .uint128 | .int128 | .uuid | .ipv6 | .uint256 | .int256
  | .fixedString _ => true
  | _ => false

/-- The element types a LowCardinality column can be read with. -/
def lcExpandable : ColumnType → Bool
  | .string | .json => true
  | .nullable inner => inner.lcFixed
  | inner => inner.lcFixed

/-- Types whose columns are discarded whatever is in them. -/
def isPlain : ColumnType → Bool
  | .nothing | .variant _ | .dynamic | .nullable _ | .array _ | .map _ _ | .tuple _ => false
  | _ => true

end ColumnType

section Condition

variable {σ : Type} [ByteStream Error σ]

/-- **Reading the column comes to no Nothing, Variant or Dynamic column with elements.**
How many elements a column below an Array or a Map has is read from the stream. -/
def Discardable : Nat → ColumnType → Nat → Recorded σ → Prop
  | 0, _, _, _ => True
  | depth + 1, ct, rows, r => rows = 0 ∨ match ct with
    | .nothing | .variant _ | .dynamic => False
    | .nullable inner => After (readExactInto rows) r fun _ => Discardable depth inner rows
    | .array inner =>
      After (readOffsetsInto rows "array offset") r fun total => Discardable depth inner total
    | .map key value =>
      After (readOffsetsInto rows "map offset") r fun total r => Discardable depth key total r ∧
        After (readColumnDataInto depth key total) r fun _ => Discardable depth value total
    | .tuple elems =>
      EachAfter (readColumnDataInto depth · rows) (Discardable depth · rows) elems r
    -- the element types of a LowCardinality column that is read can all be discarded
    | _ => True

/-- The column at this place, with its header, can be discarded. -/
def DiscardableColumn (depth rows : Nat) (s : σ) : Prop :=
  After readColumnHeader s fun header s' =>
    Discardable depth header.2.2 rows ⟨s', [], maxColumnBytes⟩

/-- Every column of the block at this place can be discarded. -/
def DiscardableBlock (depth : Nat) (s : σ) : Prop :=
  After (blockInfoLoop readVarint readExact depth) s fun _ s =>
    After (blockCounts readVarint) s fun counts s =>
      EachAfter (fun _ => readBodyColumn depth counts.2)
        (fun _ => DiscardableColumn depth counts.2) (List.replicate counts.1 ()) s

end Condition

/-! ## §3. A recording against its stream. -/

section Shadow

variable {σ : Type} {late : Stop Error → Prop}

/-- Discarding from a stream against reading into a recording. -/
def kept (late : Stop Error → Prop) : Corr Error Error (Recorded σ) σ := recordedCorr (shadow late)

theorem kept_allowsCaps : Corr.AllowsCaps (shadow late : Corr Error Error σ σ) :=
  fun _ _ => trivial

variable {α β : Type} {r r' : Recorded σ} {s s' : σ} {dict indexes data : Bytes}
  {inner : ColumnType} {idxWidth numIdx depth rows : Nat}

variable {x : Read (Recorded σ) α} {y : Read σ β} {R : α → β → Prop}

theorem kept_of_ok
    (h : ∀ r a r', x r = (.ok a, r') → ∃ b, y r.stream = (.ok b, r'.stream) ∧ R a b) :
    Sim (kept late) R x y := by
  intro r t hst
  cases hst
  rcases hx : x r with ⟨res, r'⟩
  rcases res with e | a
  · cases y r.stream with
    | mk q t' => cases q <;> trivial
  obtain ⟨b, hy, hR⟩ := h r a r' hx
  rw [hy]
  exact ⟨rfl, hR⟩

theorem kept_ok (h : Sim (kept fun _ => False) R x y) {a : α}
    (hx : x r = (.ok a, r')) : ∃ b, y r.stream = (.ok b, r'.stream) ∧ R a b := by
  have hout := h r r.stream rfl
  rw [hx] at hout
  rcases hy : y r.stream with ⟨q, t⟩
  rw [hy] at hout
  rcases q with e | b
  · exact absurd hout id
  obtain ⟨hst, hR⟩ := hout
  cases hst
  exact ⟨b, rfl, hR⟩

variable [ByteStream Error σ]

/-! ## §4. LowCardinality columns that can be read. -/

theorem materializeLcPlain_ok
    (h : Sync.materializeLcPlain dict inner indexes idxWidth numIdx = .ok data) :
    inner.lcFixed = true ∨ inner = .string ∨ inner = .json ∨ ∃ s, inner = .other s := by
  cases inner with
  | string => exact .inr (.inl rfl)
  | json => exact .inr (.inr (.inl rfl))
  | other s => exact .inr (.inr (.inr ⟨s, rfl⟩))
  | _ => first | exact .inl rfl | cases h

theorem materializeLcString_nil
    (hidx : numIdx ≠ 0) : Sync.materializeLcString [] indexes idxWidth numIdx ≠ .ok data := by
  intro h
  obtain ⟨n, rfl⟩ := Nat.exists_eq_succ_of_ne_zero hidx
  unfold Sync.materializeLcString at h
  rw [range_succ_eq_map] at h
  change (Sync.readLcIndex indexes 0 idxWidth >>= fun _ => _) = _ at h
  cases hindex : Sync.readLcIndex indexes 0 idxWidth with
  | error e | ok idx => rw [hindex] at h; cases h

/-- A LowCardinality column that is expanded has an expandable element type, or
strings of an unknown type that have been read. -/
theorem materializeLowCardinalityInner_ok (hidx : numIdx ≠ 0)
    (h : Sync.materializeLowCardinalityInner dict inner indexes idxWidth numIdx = .ok data) :
    inner.lcExpandable = true ∨ ∃ s, inner = .other s ∧ dict ≠ [] := by
  cases inner with
  | nullable value =>
    left
    change Sync.materializeLcNullable dict value indexes idxWidth numIdx = .ok data at h
    unfold Sync.materializeLcNullable at h
    rcases hwidth : value.fixedWidth with _ | width
    · rw [hwidth] at h; cases h
    rw [hwidth] at h
    obtain ⟨values, hvalues, _⟩ := bind_eq_ok h
    obtain hfixed | rfl | rfl | ⟨s, rfl⟩ := materializeLcPlain_ok hvalues
    · exact hfixed
    · cases hwidth
    · cases hwidth
    · cases hwidth
  | other s =>
    refine .inr ⟨s, rfl, ?_⟩
    rintro rfl
    exact materializeLcString_nil hidx h
  | _ => first | exact .inl rfl | cases h

theorem readColumnDataInto_other {name : Text}
    (hrows : rows ≠ 0) : readColumnDataInto depth (.other name) rows r ≠ (.ok (), r') := by
  intro h
  cases depth with
  | zero | succ depth =>
    unfold readColumnDataInto at h
    rw [if_neg hrows] at h
    cases h

theorem recording_other {name : Text}
    (h : recording (readColumnDataInto depth (.other name) rows) s = (.ok dict, s')) :
    dict = [] := by
  by_cases hrows : rows = 0
  · rw [hrows] at h
    cases depth <;> (cases h; rfl)
  unfold recording at h
  rcases hread : readColumnDataInto depth (.other name) rows ⟨s, [], maxColumnBytes⟩ with ⟨res, r⟩
  cases res with
  | ok u => exact absurd hread (readColumnDataInto_other hrows)
  | error e => rw [hread] at h; cases h

/-- A LowCardinality column that is read has an expandable element type. -/
theorem readLowCardinalityInto_ok (hrows : rows ≠ 0)
    (h : readLowCardinalityInto (readColumnDataInto depth) inner rows r = (.ok (), r')) :
    inner.lcExpandable = true := by
  obtain ⟨header, r₁, _, h⟩ := bind_eq_ok_iff.mp h
  obtain ⟨idxWidth, r₂, _, h⟩ := bind_eq_ok_iff.mp h
  obtain ⟨numKeys, r₃, _, h⟩ := bind_eq_ok_iff.mp h
  obtain ⟨dict, r₄, hdict, h⟩ := bind_eq_ok_iff.mp h
  obtain ⟨indexes, r₅, _, h⟩ := bind_eq_ok_iff.mp h
  by_cases hcount : indexes ≠ rows
  · rw [if_pos hcount] at h
    cases h
  rw [if_neg hcount] at h
  obtain ⟨len, r₆, _, h⟩ := bind_eq_ok_iff.mp h
  obtain ⟨_, r₇, _, h⟩ := bind_eq_ok_iff.mp h
  obtain ⟨indexData, r₈, _, h⟩ := bind_eq_ok_iff.mp h
  obtain ⟨data, r₉, hdata, _⟩ := bind_eq_ok_iff.mp h
  obtain ⟨hdata, _⟩ := liftExcept_eq_ok_iff.mp hdata
  have hidx : indexes ≠ 0 := by omega
  obtain hexp | ⟨s, rfl, hne⟩ := materializeLowCardinalityInner_ok hidx hdata
  · exact hexp
  · exact absurd (recording_other (onStream_ok hdict).1) hne

/-! ## §5. Primitives. -/

theorem readVarintInto_kept :
    Sim (kept late) Eq (readVarintInto : Read (Recorded σ) _)
      readVarint :=
  varintRecorded_sim kept_allowsCaps (.same _) .fail_fail

variable [LawfulByteStream Error σ]

theorem discardExact_of_readExact {len : Nat} {bs : Bytes}
    (hread : readExact (ε := Error) len s = (.ok bs, s')) : discardExact len s = (.ok (), s') :=
  (discardWindows_ok_iff (by decide) len len (Nat.le_refl len)).mpr ⟨_, hread⟩

theorem discardExact_kept (len : Nat) :
    Sim (kept late) Any (readExactInto len : Read (Recorded σ) _)
      (discardExact len) :=
  readExactInto_sim kept_allowsCaps
    (.of_shadow_ok fun _ _ _ hread => ⟨(), discardExact_of_readExact hread, trivial⟩)

theorem readExactInto_kept (len : Nat) :
    Sim (kept late) Eq (readExactInto len : Read (Recorded σ) _)
      (readExact len) :=
  readExactInto_sim kept_allowsCaps (.same _)

theorem discardStrings_kept (rows : Nat) (lengthName : String) :
    Sim (kept late) Any
      (stringsInto rows lengthName : Read (Recorded σ) Unit)
      (discardStrings rows lengthName) := by
  refine (kept late).logic.times ?_ rows
  refine bind_both readVarintInto_kept fun value => ?_
  refine .liftExcept_both fun len _ => ?_
  exact .map_left (discardExact_kept len) (fun _ _ _ => trivial)

/-- Offsets in one piece give the total of offsets read one by one. -/
theorem discardOffsets_of_scan {name : String} (rows total : Nat) {s s' : σ} {bs : Bytes}
    {n : Nat} :
    readExact (ε := Error) (rows * 8) s = (.ok bs, s') →
      scanOffsets name total bs = .ok n →
      iterate (fun total => do
        let offset ← readU64
        liftExcept (checkedMonotonicOffset total offset name)) rows total s = (.ok n, s') := by
  induction rows generalizing total s s' bs n with
  | zero =>
    intro hread hscan
    rw [Nat.zero_mul, readExact_zero] at hread
    cases hread
    cases hscan
    rfl
  | succ rows ih =>
    intro hread hscan
    obtain ⟨s₁, hfirst, hrest⟩ := readExact_split (m := 8) (by omega) hread
    have hlen : (bs.take 8).length = 8 := LawfulByteStream.length_eq hfirst
    rw [← take_append_drop 8 bs, scanOffsets_append _ (by omega)] at hscan
    rw [scanOffsets_single hlen] at hscan
    rcases hoffset : checkedMonotonicOffset total (leNat (bs.take 8)) name with e | total'
    · rw [hoffset] at hscan
      cases hscan
    rw [hoffset] at hscan
    have hrows : (rows + 1) * 8 - 8 = rows * 8 := by omega
    rw [hrows] at hrest
    have hstep : (readU64 >>= fun offset =>
        liftExcept (checkedMonotonicOffset total offset name)) s = (.ok total', s₁) := by
      unfold readU64
      rw [bind_assoc, bind_ok hfirst]
      show liftExcept (checkedMonotonicOffset total (leNat (bs.take 8)) name) s₁ = _
      rw [hoffset]
      rfl
    show ((readU64 >>= fun offset =>
      liftExcept (checkedMonotonicOffset total offset name)) >>= fun total' => _) s = _
    rw [bind_ok hstep]
    exact ih total' hrest hscan

theorem discardOffsets_kept (rows : Nat) (name : String) :
    Sim (kept late) Eq (readOffsetsInto rows name : Read (Recorded σ) Nat)
      (discardOffsets rows name) := by
  apply kept_of_ok
  intro r n r' hread
  obtain ⟨nbytes, r₁, hlen, hread⟩ := bind_eq_ok_iff.mp hread
  obtain ⟨bs, r₂, hbytes, hscan⟩ := bind_eq_ok_iff.mp hread
  obtain ⟨hchecked, rfl⟩ := liftExcept_eq_ok_iff.mp hlen
  obtain ⟨htotal, rfl⟩ := liftExcept_eq_ok_iff.mp hscan
  obtain ⟨_, hplain, rfl⟩ := kept_ok (readExactInto_kept nbytes) hbytes
  rw [(checkedColumnLen_ok hchecked).1] at hplain
  exact ⟨n, discardOffsets_of_scan rows 0 hplain htotal, rfl⟩

/-! ## §6. Columns. -/

theorem discardFixedColumn_kept (rows width : Nat) (what : String) :
    Sim (kept late) Any
      (readFixedInto rows width what : Read (Recorded σ) Unit)
      (discardFixedColumn rows width what) := by
  refine .liftExcept_both fun len _ => ?_
  exact .map_left (discardExact_kept len) (fun _ _ _ => trivial)

theorem discardBytes_kept (rows : Nat) :
    Sim (kept late) Any (readBytesInto rows : Read (Recorded σ) Unit)
      (discardExact rows) :=
  .map_left (discardExact_kept rows) (fun _ _ _ => trivial)

theorem discardLeaf_kept {ct : ColumnType} (hct : ct ≠ .nothing) (rows : Nat) :
    Sim (kept late) Any (readLeafInto ct rows : Read (Recorded σ) Unit)
      (discardLeaf ct rows) := by
  cases ct with
  | uint8 | int8 | bool | enum8 => exact discardBytes_kept rows
  | string => exact discardStrings_kept rows _
  | json =>
    refine bind_both (onStream_sim (.same readU64)) fun version => ?_
    exact .ite (fun _ => .fail_fail) (fun _ => discardStrings_kept rows _)
  | decimal precision scale =>
    exact decimalColumn_rel (kept late).logic fun width => discardFixedColumn_kept rows width _
  | nothing => exact absurd rfl hct
  | _ => first | exact discardFixedColumn_kept rows _ _ | exact .fail_fail

theorem discardLowCardinality_kept {column : ColumnType → Nat → Read (Recorded σ) Unit}
    {discard : ColumnType → Nat → Read σ Unit} (hrows : rows ≠ 0)
    (hdict : ∀ n, Sim (kept late) Any (column inner n) (discard inner n)) :
    Sim (kept late) Any (readLowCardinalityInto column inner rows)
      (discardLowCardinality discard inner rows) := by
  unfold readLowCardinalityInto discardLowCardinality
  rw [if_neg hrows]
  refine bind_both (onStream_sim (.same (readExact 24))) fun header => ?_
  refine .liftExcept_both fun idxWidth _ => ?_
  refine .liftExcept_both fun numKeys _ => ?_
  refine .bind (onStream_sim (recording_sim (hdict numKeys))) fun dict _ _ => ?_
  refine bind_both (onStream_sim (.same readU64)) fun indexes => ?_
  refine .ite (fun _ => .fail_fail) (fun _ => ?_)
  refine .liftExcept_both fun len _ => ?_
  refine charge_left kept_allowsCaps ?_
  rw [← bind_pure (discardExact len)]
  refine .bind (onStream_sim (.of_shadow_ok fun _ _ _ hread =>
    ⟨(), discardExact_of_readExact hread, trivial⟩)) fun indexData _ (_ : True) => ?_
  refine .liftExcept_left (fun data _ => ?_) (fun _ _ => trivial)
  exact record_left (.pure trivial)

omit [ByteStream Error σ] [LawfulByteStream Error σ] in
/-- What is kept is followed from every place. -/
theorem followsIf_of_kept (h : Sim (kept fun _ => False) R x y) (r : Recorded σ) :
    FollowsIf True Recorded.stream R x y r :=
  .always fun hx => kept_ok h hx

omit [LawfulByteStream Error σ] in
theorem discardable_of_isPlain {ct : ColumnType} (h : ct.isPlain = true) (depth rows : Nat)
    (r : Recorded σ) : Discardable depth ct rows r := by
  cases depth with
  | zero => trivial
  | succ depth => cases ct <;> first | exact .inr trivial | cases h

omit [LawfulByteStream Error σ] in
theorem discardable_array (h : inner.isPlain = true) (depth rows : Nat) (r : Recorded σ) :
    Discardable depth (.array inner) rows r := by
  cases depth with
  | zero => trivial
  | succ depth => exact .inr (.of_forall fun _ _ => discardable_of_isPlain h depth _ _)

omit [LawfulByteStream Error σ] in
theorem discardable_of_lcExpandable (h : inner.lcExpandable = true) (depth rows : Nat)
    (r : Recorded σ) : Discardable depth inner rows r := by
  cases inner with
  | nullable value =>
    have hvalue : value.isPlain = true := by cases value <;> first | rfl | cases h
    cases depth with
    | zero => trivial
    | succ depth => exact .inr (.of_forall fun _ _ => discardable_of_isPlain hvalue depth rows _)
  | _ => first | exact discardable_of_isPlain rfl depth rows r | cases h

/-- The condition on a column with rows. -/
theorem or_iff_of_rows {P : Prop} (hrows : rows ≠ 0) : P ↔ rows = 0 ∨ P :=
  (or_iff_right hrows).symm

/-- **Discarding a column follows reading it**, as long as the reader does not come to
elements of a Nothing, Variant or Dynamic column; it fails where it does. -/
theorem discardColumnData_follows (depth : Nat) (ct : ColumnType) (rows : Nat) (r : Recorded σ) :
    FollowsIf (Discardable depth ct rows r) Recorded.stream Any
      (readColumnDataInto depth ct rows) (discardColumnData depth ct rows) r := by
  induction depth generalizing ct rows r with
  | zero =>
    exact followsIf_of_kept (.ite (fun _ => .pure trivial) fun _ => .tooDeep_tooDeep) r
  | succ depth ih =>
    by_cases hrows : rows = 0
    · subst hrows
      exact (followsIf_of_kept (.pure trivial) r).congr ⟨fun _ => .inl rfl, fun _ => trivial⟩
    unfold readColumnDataInto discardColumnData
    rw [if_neg hrows, if_neg hrows]
    refine .congr ?_ (or_iff_of_rows hrows)
    have hleaf := fun hct : ct ≠ .nothing => followsIf_of_kept (discardLeaf_kept hct rows) r
    cases ct with
    | nothing | variant | dynamic => exact .never ⟨_, _, rfl⟩
    | nullable inner =>
      exact (followsIf_of_kept (discardExact_kept rows) r).after fun _ _ => ih inner rows _
    | array inner =>
      refine (followsIf_of_kept (discardOffsets_kept rows _) r).after fun _ htotal => ?_
      cases htotal
      exact ih inner _ _
    | map k v =>
      refine (followsIf_of_kept (discardOffsets_kept rows _) r).after fun {total _ _} _ htotal => ?_
      cases htotal
      exact (ih k total _).bind fun _ _ => ih v total _
    | tuple types => exact .forEach (fun t _ => ih t rows) r
    | lowCardinality inner =>
      by_cases hexp : inner.lcExpandable = true
      · -- the dictionary is discarded wherever it stands
        refine followsIf_of_kept (discardLowCardinality_kept hrows fun n => ?_) r
        exact kept_of_ok fun r' _ _ hread =>
          (ih inner n r').follows hread (discardable_of_lcExpandable hexp depth n r')
      · exact .of_fails fun _ _ h => hexp (readLowCardinalityInto_ok hrows h)
    | point =>
      have hfloat := fun r' : Recorded σ => (ih .float64 rows r').congr
        (iff_of_true (discardable_of_isPlain rfl depth rows r') trivial)
      exact ((hfloat r).after fun _ _ => hfloat _).congr
        (iff_of_true (.of_forall fun _ _ => trivial) trivial)
    | ring | polygon | multiPolygon =>
      exact (ih _ rows r).congr (iff_of_true (discardable_array rfl depth rows r) trivial)
    | _ => exact hleaf nofun

/-! ## §7. Blocks. -/

omit [ByteStream Error σ] [LawfulByteStream Error σ] in
/-- A reader into a fresh recording, as the reader of a stream. -/
theorem followsIf_recording {C : Prop} {x : Read (Recorded σ) Unit}
    (h : FollowsIf C Recorded.stream Any x y ⟨s, [], maxColumnBytes⟩) :
    FollowsIf C id Any (recording x) y s := by
  have hx : ∀ {out s'}, recording x s = (.ok out, s') →
      ∃ r, x ⟨s, [], maxColumnBytes⟩ = (.ok (), r) ∧ r.stream = s' := by
    intro out s' hrun
    unfold recording at hrun
    split at hrun
    · rename_i u r hx
      cases hrun
      exact ⟨r, hx, rfl⟩
    · cases hrun
  constructor
  · intro out s' hrun hC
    obtain ⟨r, hread, rfl⟩ := hx hrun
    obtain ⟨b, hy, _⟩ := h.follows hread hC
    exact ⟨b, hy, trivial⟩
  · intro out s' hrun hC
    obtain ⟨r, hread, rfl⟩ := hx hrun
    exact h.fails hread hC

theorem discardBodyColumn_follows (depth rows : Nat) (s : σ) :
    FollowsIf (DiscardableColumn depth rows s) id Any (readBodyColumn depth rows)
      (discardBodyColumn depth rows) s := by
  refine FollowsIf.after (.always fun h => ⟨_, h, rfl⟩) fun {header _ s'} _ heq => ?_
  cases heq
  exact (followsIf_recording (discardColumnData_follows depth header.2.2 rows
    ⟨s', [], maxColumnBytes⟩)).map_left fun _ _ _ => trivial

/-- **Where counting rows agrees with reading them.**  A block that is read is discarded
with the same row count, up to the same place, if its reading comes to no elements of a
Nothing, Variant or Dynamic column; it cannot be discarded if it does. -/
theorem discardBlockBody_exact {block : Block} (h : readBlockBody depth s = (.ok block, s')) :
    (discardBlockBody depth s = (.ok block.rows, s') ↔ DiscardableBlock depth s) ∧
      (¬ DiscardableBlock depth s → ∃ e t, discardBlockBody depth s = (.error e, t)) := by
  obtain ⟨_, s₁, hinfo, h⟩ := bind_eq_ok_iff.mp h
  obtain ⟨counts, s₂, hcounts, h⟩ := bind_eq_ok_iff.mp h
  have hcond : DiscardableBlock depth s ↔ EachAfter (fun _ => readBodyColumn depth counts.2)
      (fun _ => DiscardableColumn depth counts.2) (List.replicate counts.1 ()) s₂ := by
    unfold DiscardableBlock
    rw [after_ok hinfo, after_ok hcounts]
  have hrun : discardBlockBody depth s
      = (times counts.1 (discardBodyColumn depth counts.2) >>= fun _ => pure counts.2) s₂ := by
    unfold discardBlockBody
    rw [bind_ok hinfo, bind_ok hcounts]
  rw [hcond, hrun]
  -- the columns are read; the marker of an empty block is a loop of no turns
  obtain ⟨cols, hcols, hrows⟩ : ∃ cols, collect (fun _ => readBodyColumn depth counts.2)
      (List.replicate counts.1 ()) s₂ = (.ok cols, s') ∧ block.rows = counts.2 := by
    by_cases hempty : counts.1 = 0 ∧ counts.2 = 0
    · rw [if_pos hempty] at h
      cases h
      exact ⟨[], by rw [hempty.1]; rfl, hempty.2.symm⟩
    rw [if_neg hempty] at h
    obtain ⟨cols, s₃, hcols, h⟩ := bind_eq_ok_iff.mp h
    cases h
    exact ⟨cols, hcols, rfl⟩
  rw [hrows]
  have hloop := FollowsIf.collect_times (discardBodyColumn_follows depth counts.2) counts.1 s₂
  refine ⟨⟨fun hok => ?_, fun hC => ?_⟩, fun hC => ?_⟩
  · by_contra hC
    obtain ⟨e, t, hy⟩ := hloop.fails hcols hC
    cases (bind_error hy).symm.trans hok
  · obtain ⟨_, hy, _⟩ := hloop.follows hcols hC
    exact bind_ok hy
  · obtain ⟨e, t, hy⟩ := hloop.fails hcols hC
    exact ⟨e, t, bind_error hy⟩

/-- A Nothing column of one row: read, and not discarded. -/
theorem discardBlockBody_nothing :
    readBlockBody 2 ([0, 1, 1, 0, 7, 78, 111, 116, 104, 105, 110, 103, 0, 0] : Bytes)
      = (.ok { columns := [{ name := [], typeName := "Nothing".toList, data := [0] }], rows := 1 },
          [])
    ∧ discardBlockBody 2 ([0, 1, 1, 0, 7, 78, 111, 116, 104, 105, 110, 103, 0, 0] : Bytes)
      = (.error (.error (.text "discard unsupported for column type Nothing")), [0]) :=
  ⟨by rfl, by rfl⟩

end Shadow

/-- The block of `SELECT []`: an Array(Nothing) column whose one row is empty. -/
def emptyArrayBody : Bytes :=
  [0, 1, 1, 0, 14, 65, 114, 114, 97, 121, 40, 78, 111, 116, 104, 105, 110, 103, 41, 0,
    0, 0, 0, 0, 0, 0, 0, 0]

/-- It is counted. -/
theorem discardBlockBody_exact_emptyArray : discardBlockBody 3 emptyArrayBody = (.ok 1, []) := by
  have hread : readBlockBody 3 emptyArrayBody
      = (.ok ⟨[⟨[], "Array(Nothing)".toList, [0, 0, 0, 0, 0, 0, 0, 0]⟩], 1⟩, []) := by
    rfl
  refine (discardBlockBody_exact hread).1.mpr ?_
  exact ⟨.inr (.inl rfl), trivial⟩

end StClickHouse
