/-
  StClickHouse.Buffer.SkipColumn
  **SKIPPING COLUMNS IN A BUFFER.**

  `shared/skip_column.rs`: both engines parse a buffered block by skipping each
  column and slicing its bytes out.  The skipper dispatches on the parsed type,
  where the stream reader of the async engine parses printed names again; below
  a Variant, a Dynamic and a LowCardinality it uses the raw walker.
-/
import StClickHouse.Wire.RawColumn

namespace StClickHouse

open ByteReader RustText

/-! ## §1. JSON below the top level. -/

mutual

/-- `nested_json_below`. -/
def nestedJsonBelow : ColumnType → Bool → Bool
  | .json, isNested => isNested
  | .nullable inner, _ => nestedJsonBelow inner true
  | .array inner, _ => nestedJsonBelow inner true
  | .lowCardinality inner, _ => nestedJsonBelow inner true
  | .map k v, _ => nestedJsonBelow k true || nestedJsonBelow v true
  | .tuple elems, _ => nestedJsonAny elems
  | .variant types, _ => nestedJsonAny types
  | _, _ => false

/-- JSON in one of the elements. -/
def nestedJsonAny : List ColumnType → Bool
  | [] => false
  | t :: ts => nestedJsonBelow t true || nestedJsonAny ts

end

/-- `contains_nested_json`. -/
def containsNestedJson (ct : ColumnType) : Bool := nestedJsonBelow ct false

/-! ## §2. Columns without subcolumns. -/

/-- A fixed-width column. -/
def skipFixed (rows width : Nat) : Read Slice Unit := do
  let len ← liftExcept (skipCheckedLen rows width)
  let _ ← advancePos len
  return ()

/-- One byte a row: no length is computed. -/
def skipBytes (rows : Nat) : Read Slice Unit := do
  let _ ← advancePos rows
  return ()

/-- `read_u64_le`. -/
def readU64Le : Read Slice Nat := do
  let bs ← parseBytes 8
  return leNat bs

/-- `skip_materialized_json`. -/
def skipMaterializedJson (rows : Nat) : Read Slice Unit := do
  let version ← readU64Le
  if version ≠ 1 ∧ version ≠ 4 then fail (jsonVersionError version)
  else skipStringRows rows "JSON string length"

/-- `skip_column_data` on a type without subcolumns. -/
def skipLeaf (ct : ColumnType) (rows : Nat) : Read Slice Unit :=
  match ct with
  | .uint8 | .int8 | .bool | .enum8 => skipBytes rows
  | .uint16 | .int16 | .date | .enum16 => skipFixed rows 2
  | .uint32 | .int32 | .float32 | .date32 | .dateTime | .time | .ipv4 => skipFixed rows 4
  | .uint64 | .int64 | .float64 | .dateTime64 _ | .time64 _ => skipFixed rows 8
  | .uint128 | .int128 | .uuid | .ipv6 => skipFixed rows 16
  | .uint256 | .int256 => skipFixed rows 32
  | .fixedString n => skipFixed rows n.toNat
  | .decimal precision _ => decimalColumn (skipFixed rows) precision
  | .nothing => skipBytes rows
  | .string => skipStringRows rows "string value length"
  | .json => skipMaterializedJson rows
  | .aggregateFunction | .simpleAggregateFunction =>
    fail (.text (String.ofList ct.display ++ " columns are not supported in buffered block reads"))
  | .other _ => skipStringRows rows "string value length"
  -- the remaining constructors are handled by `skipTyped`
  | _ => pure ()

/-! ## §3. The raw walker of the skipper. -/

/-- The header of a skipped LowCardinality column: the flags are checked first. -/
def lcHeaderSkip (header : Bytes) : Result (Nat × Nat) := do
  let idxWidth ← lcIdxWidth (lcWords header).1 (lcWords header).2.1
  let numKeys ← lcKeyCount (lcWords header).2.2
  return (numKeys, idxWidth)

/-- The operations of `skip_column.rs`. -/
def skipOps : RawOps Slice where
  field := parseBytes
  bytes := advancePos
  varint := parseVarint
  jsonPath := do let _ ← parseStringBytes; return ()
  typeName := do
    let bytes ← parseStringBytes
    match fromUtf8 bytes with
    | .ok name => return name
    | .error e => fail (.text ("dynamic type name utf8: " ++ e.render))
  columnLen := fun rows width _ => skipCheckedLen rows width
  offsets := skipOffsets
  strings := skipStringRows
  leaf := skipLeaf
  dynamicType := parseTypeAs "dynamic type"
  variantType := fun _ t => .ok t
  lcHeader := lcHeaderSkip
  emptyDynamicFirst := true

/-- `skip_state_prefix`. -/
def skipStatePrefix (depth : Nat) (ct : ColumnType) : Read Slice RawColumnState :=
  skipOps.statePrefix depth ct

/-- `skip_body_raw`. -/
def skipBodyRaw (depth : Nat) (ct : ColumnType) (state : RawColumnState) (rows : Nat) :
    Read Slice Unit :=
  skipOps.bodyRaw depth ct state rows

/-- `skip_lc_column` over raw operations; the dictionary is skipped one call
deeper. -/
def skipLcColumn (ops : RawOps Slice) (depth : Nat) (inner : ColumnType) (rows : Nat)
    (innerState : RawColumnState) : Read Slice Unit :=
  ops.lcBody (ops.bodyRaw depth) inner innerState rows

/-! ## §4. Columns. -/

/-- `skip_column_data` on at least one row; `column` is the call one level
deeper.  The raw operations are those of the skipper (`skipOps`), or those with
a condition on the types Dynamic columns name (`RawOps.carrying`). -/
def skipTyped (ops : RawOps Slice) (column : ColumnType → Nat → Read Slice Unit) (depth : Nat)
    (ct : ColumnType) (rows : Nat) : Read Slice Unit :=
  match ct with
  | .nullable inner => do
    let _ ← advancePos rows
    column inner rows
  | .array inner => do
    let total ← skipOffsets rows "array offset"
    if total = 0 then pure () else column inner total
  | .map key value => do
    let total ← skipOffsets rows "map offset"
    if total = 0 then pure ()
    else do
      column key total
      column value total
  | .tuple elems => forEach (fun elem => column elem rows) elems
  | .point => do
    column .float64 rows
    column .float64 rows
  | .ring => column (.array .point) rows
  | .polygon => column (.array .ring) rows
  | .multiPolygon => column (.array .polygon) rows
  | .lowCardinality inner => skipLcColumn ops depth inner rows .none
  | .variant types => do
    let states ← collect (ops.statePrefix depth) types
    ops.variantBody (ops.bodyRaw depth) types states rows
  | .dynamic => do
    let state ← ops.dynamicState (ops.statePrefix depth)
    ops.dynamicBody (ops.bodyRaw depth) state rows
  | ct => skipLeaf ct rows

/-- `skip_column_data` over raw operations; an empty column needs no depth. -/
def skipColumnWith (ops : RawOps Slice) : Nat → ColumnType → Nat → Read Slice Unit
  | 0, _, rows => if rows = 0 then pure () else tooDeep
  | depth + 1, ct, rows =>
    if rows = 0 then pure () else skipTyped ops (skipColumnWith ops depth) depth ct rows

/-- `skip_column_data`. -/
def skipColumnData (depth : Nat) (ct : ColumnType) (rows : Nat) : Read Slice Unit :=
  skipColumnWith skipOps depth ct rows

/-- `skip_column_data_by_name`: a name the parser refuses is a string column. -/
def skipColumnDataByName (depth : Nat) (typeName : Text) (rows : Nat) : Read Slice Unit :=
  match parseType typeName with
  | .ok ct => skipColumnData depth ct rows
  | .error _ => skipStringRows rows "string value length"

/-! ## §5. The types Dynamic columns name. -/

/-- What a walk stops with at a type it is not meant to see.  (No function of
the crate's readers reports a configuration error.) -/
def notCarried : Error := .config "type not expected in a Dynamic column"

/-- The same operations, where a Dynamic column may only name types in `accept`. -/
def RawOps.carrying {σ : Type} (ops : RawOps σ) (accept : ColumnType → Bool) : RawOps σ :=
  { ops with
    dynamicType := fun name => do
      let ct ← ops.dynamicType name
      if accept ct then .ok ct else .error notCarried }

/-- No Dynamic column met while skipping names a type outside `accept`. -/
def CarriesOnly (accept : ColumnType → Bool) (depth : Nat) (ct : ColumnType) (rows : Nat)
    (s : Slice) : Prop :=
  ∀ t, skipColumnWith (skipOps.carrying accept) depth ct rows s ≠ (.error (.error notCarried), t)

end StClickHouse
