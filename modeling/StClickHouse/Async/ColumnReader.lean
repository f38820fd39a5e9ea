/-
  StClickHouse.Async.ColumnReader
  **THE COLUMN AND BLOCK READERS OF THE ASYNC ENGINE.**

  `read_column_async` (`connection/block_reader.rs`) reads a column by its type
  name: the name is parsed, and for a nested type the readers of the element
  types are called with the *printed* element types, which are parsed again.
  Dynamic and Variant columns go through the recording raw reader of
  `connection/raw_block_reader.rs`; a LowCardinality column is expanded with
  `materialize_lc_inner` (`cursor.rs`).
-/
import StClickHouse.Wire.RawColumn

namespace StClickHouse

open ByteReader RustText

/-! ## §1. The recording raw reader. -/

section Recorded

variable {σ : Type} [ByteStream Error σ]

/-- Length-prefixed strings, recorded. -/
def stringsRecorded (rows : Nat) (lengthName : String) : Read (Recorded σ) Unit :=
  times rows do
    let value ← readVarintRecorded
    let len ← liftExcept (checkedStringLen value lengthName)
    let _ ← readExactRecorded len
    return ()

/-- Offsets read in one piece and scanned in the recording. -/
def offsetsRecorded (rows : Nat) (name : String) : Read (Recorded σ) Nat := do
  let nbytes ← liftExcept (checkedColumnLen rows 8 name)
  let offsets ← readExactRecorded nbytes
  liftExcept (scanOffsets name 0 offsets)

/-- A column without subcolumns, recorded. -/
def leafRecorded : ColumnType → Nat → Read (Recorded σ) Unit :=
  rawLeaf stringsRecorded readExactRecorded "query_raw does not support raw capture for type "

/-- The header of a recorded LowCardinality column: the key count is checked
first. -/
def lcHeaderRecorded (header : Bytes) : Result (Nat × Nat) := do
  let numKeys ← lcKeyCount (lcWords header).2.2
  let idxWidth ← lcIdxWidth (lcWords header).1 (lcWords header).2.1
  return (numKeys, idxWidth)

/-- The operations of `raw_block_reader.rs`. -/
def recordedOps : RawOps (Recorded σ) where
  field := readExactRecorded
  bytes := readExactRecorded
  varint := readVarintRecorded
  jsonPath := do let _ ← readStringRecorded "JSON path length"; return ()
  typeName := readStringRecorded "dynamic type length"
  columnLen := checkedColumnLen
  offsets := offsetsRecorded
  strings := stringsRecorded
  leaf := leafRecorded
  dynamicType := parseTypeAs "dynamic type"
  variantType := fun _ t => parseTypeAs "variant type" t.display
  lcHeader := lcHeaderRecorded
  emptyDynamicFirst := false

/-- `read_column_state_prefix_recorded`. -/
def readColumnStatePrefixRecorded (depth : Nat) (ct : ColumnType) :
    Read (Recorded σ) RawColumnState :=
  recordedOps.statePrefix depth ct

/-- `read_column_body_raw_recorded`. -/
def readColumnBodyRawRecorded (depth : Nat) (ct : ColumnType) (state : RawColumnState)
    (rows : Nat) : Read (Recorded σ) Unit :=
  recordedOps.bodyRaw depth ct state rows

/-- `read_column_raw_recorded`. -/
def readColumnRawRecorded (depth : Nat) (typeName : Text) (rows : Nat) :
    Read (Recorded σ) Unit := do
  let ct ← liftExcept (parseTypeAs "type" typeName)
  let state ← readColumnStatePrefixRecorded depth ct
  readColumnBodyRawRecorded depth ct state rows

/-- `read_variant_body_raw_recorded`; the elements are read one call deeper. -/
def readVariantBodyRawRecorded (depth : Nat) (types : List ColumnType)
    (states : List RawColumnState) (rows : Nat) : Read (Recorded σ) Unit :=
  recordedOps.variantBody (readColumnBodyRawRecorded depth) types states rows

end Recorded

/-! ## §2. LowCardinality columns. -/

/-- `read_lc_idx`: the `i`-th index, or 0 past the end. -/
def readLcIdx (data : Bytes) (i w : Nat) : Nat :=
  if (i + 1) * w > data.length then 0
  else match w with
    | 1 | 2 | 4 | 8 => leNat ((data.drop (i * w)).take w)
    | _ => 0

/-- The entries a list of indexes selects from a dictionary of `es`-byte entries. -/
def lcFixedEntries (dict : Bytes) (es : Nat) : List Nat → Result Bytes
  | [] => .ok []
  | idx :: idxs => do
    if idx * es + es ≥ usizeBound then
      .error (.text "LowCardinality dictionary index overflow")
    else if idx * es + es > dict.length then
      .error (.text "LowCardinality dictionary index out of bounds")
    else do
      let rest ← lcFixedEntries dict es idxs
      return (dict.drop (idx * es)).take es ++ rest

/-- `materialize_lc_fixed`. -/
def materializeLcFixed (dict : Bytes) (es : Nat) (idxs : Bytes) (iw ni : Nat) :
    Result Bytes :=
  if ni = 0 ∨ es = 0 then .ok []
  else if dict.length < es then
    .error (.text "LowCardinality dictionary smaller than one entry")
  else if ni * es ≥ usizeBound then
    .error (.protocol (.overflow "LowCardinality materialized size"))
  else if ni * es > maxColumnBytes then
    .error (.protocol (.limit "LowCardinality materialized column byte length" (ni * es)
      (limitText maxColumnBytes)))
  else lcFixedEntries dict es ((List.range ni).map fun i => readLcIdx idxs i iw)

/-- The string entries of a dictionary, without their lengths. -/
def lcStringDict : Nat → Bytes → Result (List Bytes)
  | 0, _ => .ok []
  | fuel + 1, dict =>
    if dict = [] then .ok []
    else match sliceVarint "truncated varint" dict with
      | (.ok len, rest) =>
        if len > rest.length then
          .error (.text "LowCardinality string dictionary is truncated")
        else do
          let entries ← lcStringDict fuel (rest.drop len)
          return rest.take len :: entries
      | (.error (.error e), _) => .error e
      | (.error .depth, _) => .error varintOverflow

/-- The string entries a list of indexes selects, with their lengths. -/
def lcStringEntries (entries : List Bytes) :
    List Nat → Nat → Result Bytes
  | [], _ => .ok []
  | idx :: idxs, total =>
    match entries[idx]? with
    | none => .error (.text "LowCardinality dictionary index out of bounds")
    | some entry => do
      let total ← checkedColumnBytes total entry.length "LowCardinality materialized column"
      let rest ← lcStringEntries entries idxs total
      return encodeVarint entry.length ++ entry ++ rest

/-- The wire form kept for an element type that is not expanded. -/
def lcUnexpanded (dict idxs : Bytes) (iw ni : Nat) : Bytes :=
  let st := match iw with
    | 1 => 0
    | 2 => 1
    | 4 => 2
    | _ => 3
  leBytes 8 1 ++ leBytes 8 st ++ leBytes 8 dict.length ++ dict ++ leBytes 8 ni ++ idxs

/-- `materialize_lc_inner` of `cursor.rs`: Time, Time64, Decimal, JSON and nested
types are not expanded. -/
def materializeLcInner (dict : Bytes) (inner : ColumnType) (idxs : Bytes)
    (iw ni : Nat) : Result Bytes :=
  if ni > 0 ∧ ni * iw ≥ usizeBound then
    .error (.protocol (.overflow "LowCardinality index byte length"))
  else if ni > 0 ∧ idxs.length < ni * iw then
    .error (.text ("LowCardinality index data truncated: need " ++ toString (ni * iw)
      ++ " bytes, have " ++ toString idxs.length))
  else match inner with
    | .uint8 | .int8 | .bool | .enum8 => materializeLcFixed dict 1 idxs iw ni
    | .uint16 | .int16 | .date | .enum16 => materializeLcFixed dict 2 idxs iw ni
    | .uint32 | .int32 | .float32 | .date32 | .dateTime | .ipv4 =>
      materializeLcFixed dict 4 idxs iw ni
    | .uint64 | .int64 | .float64 | .dateTime64 _ => materializeLcFixed dict 8 idxs iw ni
    | .uint128 | .int128 | .uuid | .ipv6 => materializeLcFixed dict 16 idxs iw ni
    | .uint256 | .int256 => materializeLcFixed dict 32 idxs iw ni
    | .string | .other _ => do
      let entries ← lcStringDict dict.length dict
      lcStringEntries entries ((List.range ni).map fun i => readLcIdx idxs i iw) 0
    | .fixedString n => materializeLcFixed dict n.toNat idxs iw ni
    | _ => .ok (lcUnexpanded dict idxs iw ni)

/-! ## §3. Columns. -/

section Column

variable {σ : Type} [ByteStream Error σ]

/-- `read_lc_async`; `column` reads the dictionary. -/
def readLcAsync (column : Text → Nat → Read σ Bytes) (inner : ColumnType)
    (rows : Nat) : Read σ Bytes :=
  if rows = 0 then pure []
  else do
    let header ← readExact 24
    let numKeys ← liftExcept (lcKeyCount (lcWords header).2.2)
    let idxWidth ← liftExcept (lcIdxWidth (lcWords header).1 (lcWords header).2.1)
    let dict ← (if numKeys > 0 then column inner.display numKeys else pure [])
    let ni ← readU64
    if ni ≠ rows then fail (lcCountError ni rows)
    else do
      let len ← liftExcept (checkedColumnLen ni idxWidth "LowCardinality index")
      let indexes ← readExact len
      if numKeys = 0 then pure []
      else liftExcept (materializeLcInner dict inner indexes idxWidth ni)

/-- The rows of a column whose type name the parser refuses: strings. -/
def readUnparsedRows : Nat → Nat → Read σ Bytes
  | 0, _ => pure []
  | left + 1, total => do
    let value ← readVarintAsync
    let len ← liftExcept (checkedStringLen value "string value length")
    let total ← liftExcept (checkedColumnBytes total len "string value length")
    let body ← readExact len
    let rest ← readUnparsedRows left total
    return encodeVarint len ++ body ++ rest

/-- A column read in one piece. -/
def readFixedColumn (rows width : Nat) (what : String) : Read σ Bytes := do
  let len ← liftExcept (checkedColumnLen rows width what)
  readExact len

/-- `read_column_async` on a type without subcolumns. -/
def readLeafAsync (ct : ColumnType) (rows : Nat) : Read σ Bytes :=
  match ct with
  | .nothing => readExact rows
  | .json => do
    let version ← readU64
    if version ≠ 1 ∧ version ≠ 4 then fail (jsonVersionError version)
    else readStringColumnWithPrefixes rows "JSON string length"
  | .aggregateFunction | .simpleAggregateFunction =>
    fail (.text "AggregateFunction type not yet supported in wire reader")
  | .string | .other _ => readStringColumnWithPrefixes rows "string value length"
  | .fixedString n => readFixedColumn rows n.toNat "FixedString column"
  | ct =>
    match ct.fixedWidth with
    | some w => readFixedColumn rows w "fixed-width column"
    | none => fail (.text ("unknown type " ++ String.ofList ct.display))

/-- `read_column_async` on a parsed type and at least one row; `column` is the
call one level deeper. -/
def readTypedAsync (column : Text → Nat → Read σ Bytes) (depth : Nat)
    (typeName : Text) (ct : ColumnType) (rows : Nat) : Read σ Bytes :=
  match ct with
  | .nullable inner => do
    let nulls ← readExact rows
    let values ← column inner.display rows
    return nulls ++ values
  | .array inner => do
    let offsets ← readOffsetsColumn rows "array offset"
    if offsets.2 > 0 then do
      let values ← column inner.display offsets.2
      return offsets.1 ++ values
    else return offsets.1
  | .map key value => do
    let offsets ← readOffsetsColumn rows "map offset"
    if offsets.2 > 0 then do
      let keys ← column key.display offsets.2
      let values ← column value.display offsets.2
      return offsets.1 ++ keys ++ values
    else return offsets.1
  | .tuple elems => do
    let parts ← collect (fun elem => column elem.display rows) elems
    return parts.flatten
  | .lowCardinality inner => readLcAsync column inner rows
  | .point => do
    let xs ← column "Float64".toList rows
    let ys ← column "Float64".toList rows
    return xs ++ ys
  | .ring => column "Array(Point)".toList rows
  | .polygon => column "Array(Ring)".toList rows
  | .multiPolygon => column "Array(Polygon)".toList rows
  -- the raw reader is not a deeper call of this function: it gets the full depth
  | .dynamic => recording (readColumnRawRecorded (depth + 1) typeName rows)
  | .variant types => recording do
      let state ← readColumnStatePrefixRecorded (depth + 1) (.variant types)
      readVariantBodyRawRecorded depth types state.variantStates rows
  | ct => readLeafAsync ct rows

/-- `read_column_async`; an empty column needs no depth. -/
def readColumnAsync : Nat → Text → Nat → Read σ Bytes
  | 0, _, rows => if rows = 0 then pure [] else tooDeep
  | depth + 1, typeName, rows =>
    if rows = 0 then pure []
    else match parseType typeName with
      | .error _ => readUnparsedRows rows 0
      | .ok ct => readTypedAsync (readColumnAsync depth) depth typeName ct rows

end Column

/-! ## §4. Blocks. -/

section Block

variable {σ : Type} [ByteStream Error σ]

/-- `read_block_header`. -/
def readBlockHeader (depth : Nat) : Read σ (Nat × Nat) := do
  let _table ← readStringAsync
  blockInfoLoop readVarintAsync readExact depth
  blockCounts readVarintAsync

/-- One column of a data block; its custom-serialization byte is not looked at. -/
def readBlockColumn (depth rows : Nat) : Read σ ColumnInfo := do
  let name ← readStringAsync
  let typeName ← readStringAsync
  let _custom ← readExact 1
  let data ← (if rows > 0 then readColumnAsync depth typeName rows else pure [])
  return { name := name, typeName := typeName, data := data }

/-- The columns of a data block. -/
def readBlockColumns (depth : Nat) (counts : Nat × Nat) : Read σ Block := do
  let columns ← collect (fun _ => readBlockColumn depth counts.2) (List.replicate counts.1 ())
  return { columns := columns, rows := counts.2 }

/-- `read_data_block`. -/
def readDataBlock (depth : Nat) : Read σ Block := do
  let counts ← readBlockHeader depth
  readBlockColumns depth counts

/-- `read_data_block_body`: a block after its table name. -/
def readDataBlockBody (depth : Nat) : Read σ Block := do
  blockInfoLoop readVarintAsync readExact depth
  let counts ← blockCounts readVarintAsync
  readBlockColumns depth counts

end Block

end StClickHouse
