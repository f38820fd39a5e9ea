/-
  StClickHouse.Sync.ColumnReader
  **THE COLUMN READERS OF THE SYNC ENGINE.**

  `sync/protocol/response.rs`: `read_column_data_into` reads a parsed column
  into an arena under a byte budget, `discard_column_data` walks it without
  keeping it.  Both dispatch on the parsed type; Dynamic and Variant columns go
  through the raw walker, which the discarding function does not have.
-/
import StClickHouse.Wire.RawColumn

namespace StClickHouse

open ByteReader RustText

/-! ## §1. `Debug` of a column type. -/

mutual

/-- The derived `Debug` text of a column type, as two error messages show it. -/
def debugText : ColumnType → String
  | .fixedString n => "FixedString(" ++ toString n.toNat ++ ")"
  | .dateTime64 scale => "DateTime64(" ++ toString scale.toNat ++ ")"
  | .time64 scale => "Time64(" ++ toString scale.toNat ++ ")"
  | .decimal precision scale =>
    "Decimal(" ++ toString precision.toNat ++ ", " ++ toString scale.toNat ++ ")"
  | .nullable inner => "Nullable(" ++ debugText inner ++ ")"
  | .array inner => "Array(" ++ debugText inner ++ ")"
  | .map k v => "Map(" ++ debugText k ++ ", " ++ debugText v ++ ")"
  | .tuple types => "Tuple([" ++ debugTexts types ++ "])"
  | .lowCardinality inner => "LowCardinality(" ++ debugText inner ++ ")"
  | .variant types => "Variant([" ++ debugTexts types ++ "])"
  | .other s => "Other(" ++ (String.ofList s).quote ++ ")"
  | ct => ct.simpleName

/-- The texts of a list of types, separated by commas. -/
def debugTexts : List ColumnType → String
  | [] => ""
  | [t] => debugText t
  | t :: ts => debugText t ++ ", " ++ debugTexts ts

end

/-! ## §2. The raw walker of the sync engine. -/

section Into

variable {σ : Type} [ByteStream Error σ]

/-- Length-prefixed strings, kept. -/
def stringsInto (rows : Nat) (lengthName : String) : Read (Recorded σ) Unit :=
  times rows do
    let value ← readVarintInto
    let len ← liftExcept (checkedStringLen value lengthName)
    let _ ← readExactInto len
    return ()

/-- `read_u64_into`. -/
def readU64Into : Read (Recorded σ) Nat := do
  let bs ← readExactInto 8
  return leNat bs

/-- The offsets of a raw column, one at a time. -/
def rawOffsetsInto (rows : Nat) (name : String) : Read (Recorded σ) Nat :=
  iterate (fun total => do
    let offset ← readU64Into
    liftExcept (checkedMonotonicOffset total offset name)) rows 0

/-- `read_offsets_into`: the offsets in one piece. -/
def readOffsetsInto (rows : Nat) (name : String) : Read (Recorded σ) Nat := do
  let nbytes ← liftExcept (checkedColumnLen rows 8 name)
  let offsets ← readExactInto nbytes
  liftExcept (scanOffsets name 0 offsets)

/-- The header of a raw LowCardinality column; the flags are not looked at. -/
def lcHeaderInto (header : Bytes) : Result (Nat × Nat) :=
  if (lcWords header).1 ≠ 1 then .error (lcVersionError (lcWords header).1)
  else do
    let numKeys ← lcKeyCount (lcWords header).2.2
    return (numKeys, 2 ^ ((lcWords header).2.1 % 4))

/-- The raw operations of `response.rs`. -/
def intoOps : RawOps (Recorded σ) where
  field := readExactInto
  bytes := readExactInto
  varint := readVarintInto
  jsonPath := do let _ ← readStringInto "JSON path length"; return ()
  typeName := readStringInto "dynamic type length"
  columnLen := checkedColumnLen
  offsets := rawOffsetsInto
  strings := stringsInto
  leaf := rawLeaf stringsInto readExactInto "raw capture does not support type "
  dynamicType := parseTypeAs "dynamic type"
  variantType := fun compact t =>
    parseTypeAs (if compact then "variant type" else "dynamic type") t.display
  lcHeader := lcHeaderInto
  emptyDynamicFirst := false

/-- `read_column_state_prefix_into`. -/
def readColumnStatePrefixInto (depth : Nat) (ct : ColumnType) :
    Read (Recorded σ) RawColumnState :=
  intoOps.statePrefix depth ct

/-- `read_column_body_raw_into`. -/
def readColumnBodyRawInto (depth : Nat) (ct : ColumnType) (state : RawColumnState) (rows : Nat) :
    Read (Recorded σ) Unit :=
  intoOps.bodyRaw depth ct state rows

end Into

/-! ## §3. LowCardinality columns. -/

namespace Sync

/-- `read_lc_index`. -/
def readLcIndex (data : Bytes) (row width : Nat) : Result Nat :=
  if row * width + width ≥ usizeBound then .error (.text "LowCardinality index overflow")
  else if row * width + width > data.length then
    .error (.text "LowCardinality index data is truncated")
  else match width with
    | 1 | 2 | 4 | 8 => .ok (leNat ((data.drop (row * width)).take width))
    | _ => .error (.text ("unsupported LowCardinality index width " ++ toString width))

/-- The entries a range of rows selects from a dictionary of `width`-byte entries. -/
def materializeLcFixedRows (dict : Bytes) (width : Nat) (indexes : Bytes) (idxWidth : Nat) :
    List Nat → Result Bytes
  | [] => .ok []
  | row :: rows => do
    let idx ← readLcIndex indexes row idxWidth
    if idx * width + width ≥ usizeBound then .error (.text "LowCardinality index overflow")
    else if idx * width + width > dict.length then
      .error (.text "LowCardinality dictionary index out of bounds")
    else do
      let rest ← materializeLcFixedRows dict width indexes idxWidth rows
      return (dict.drop (idx * width)).take width ++ rest

/-- `materialize_lc_fixed` of the sync engine. -/
def materializeLcFixed (dict : Bytes) (width : Nat) (indexes : Bytes) (idxWidth numIdx : Nat) :
    Result Bytes := do
  let _ ← checkedColumnLen numIdx width "LowCardinality materialized column"
  materializeLcFixedRows dict width indexes idxWidth (List.range numIdx)

/-- The string entries of a dictionary, with their lengths as they stand. -/
def lcStringDict : Nat → Bytes → Result (List Bytes)
  | 0, _ => .ok []
  | fuel + 1, dict =>
    if dict = [] then .ok []
    else match parseVarint dict with
      | (.ok len, rest) =>
        if len > rest.length then
          .error (.text "LowCardinality string dictionary is truncated")
        else do
          let entries ← lcStringDict fuel (rest.drop len)
          return dict.take (dict.length - rest.length + len) :: entries
      | (.error (.error e), _) => .error e
      | (.error .depth, _) => .error varintOverflow

/-- The string entries a range of rows selects. -/
def materializeLcStringRows (entries : List Bytes) (indexes : Bytes) (idxWidth : Nat) :
    List Nat → Nat → Result Bytes
  | [], _ => .ok []
  | row :: rows, total => do
    let idx ← readLcIndex indexes row idxWidth
    match entries[idx]? with
    | none => .error (.text "LowCardinality dictionary index out of bounds")
    | some entry => do
      let total ← checkedColumnBytes total entry.length "LowCardinality materialized column"
      let rest ← materializeLcStringRows entries indexes idxWidth rows total
      return entry ++ rest

/-- `materialize_lc_string` of the sync engine. -/
def materializeLcString (dict indexes : Bytes) (idxWidth numIdx : Nat) :
    Result Bytes := do
  let entries ← lcStringDict dict.length dict
  materializeLcStringRows entries indexes idxWidth (List.range numIdx) 0

/-- The null map bytes a range of rows selects. -/
def lcNullRows (nulls indexes : Bytes) (idxWidth : Nat) :
    List Nat → Result Bytes
  | [] => .ok []
  | row :: rows => do
    let idx ← readLcIndex indexes row idxWidth
    match nulls[idx]? with
    | none => .error (.text "LowCardinality nullable index out of bounds")
    | some null => do
      let rest ← lcNullRows nulls indexes idxWidth rows
      return null :: rest

/-- `materialize_low_cardinality_inner` on a type that is not Nullable. -/
def materializeLcPlain (dict : Bytes) (inner : ColumnType) (indexes : Bytes)
    (idxWidth numIdx : Nat) : Result Bytes :=
  match inner with
  | .uint8 | .int8 | .bool | .enum8 => materializeLcFixed dict 1 indexes idxWidth numIdx
  | .uint16 | .int16 | .date | .enum16 => materializeLcFixed dict 2 indexes idxWidth numIdx
  | .uint32 | .int32 | .float32 | .date32 | .dateTime | .time | .ipv4 =>
    materializeLcFixed dict 4 indexes idxWidth numIdx
  | .uint64 | .int64 | .float64 | .dateTime64 _ | .time64 _ =>
    materializeLcFixed dict 8 indexes idxWidth numIdx
  | .uint128 | .int128 | .uuid | .ipv6 => materializeLcFixed dict 16 indexes idxWidth numIdx
  | .uint256 | .int256 => materializeLcFixed dict 32 indexes idxWidth numIdx
  | .fixedString n => materializeLcFixed dict n.toNat indexes idxWidth numIdx
  | .string | .json | .other _ => materializeLcString dict indexes idxWidth numIdx
  | inner => .error (.text ("LowCardinality(" ++ String.ofList inner.display
      ++ ") materialization is not supported"))

/-- `materialize_lc_nullable`: the null map of the dictionary is as long as the
element width makes it.  A Nullable element has no width, so the values are
never Nullable themselves. -/
def materializeLcNullable (dict : Bytes) (inner : ColumnType) (indexes : Bytes)
    (idxWidth numIdx : Nat) : Result Bytes :=
  match inner.fixedWidth with
  | none =>
    .error (.text "LowCardinality Nullable variable-width materialization is not supported")
  | some width => do
    let dictRows := dict.length / (width + 1)
    let values ← materializeLcPlain (dict.drop dictRows) inner indexes idxWidth numIdx
    let _ ← checkedColumnBytes numIdx values.length "LowCardinality materialized column"
    let nulls ← lcNullRows (dict.take dictRows) indexes idxWidth (List.range numIdx)
    return nulls ++ values

/-- `materialize_low_cardinality_inner`. -/
def materializeLowCardinalityInner (dict : Bytes) (inner : ColumnType)
    (indexes : Bytes) (idxWidth numIdx : Nat) : Result Bytes :=
  match inner with
  | .nullable value => materializeLcNullable dict value indexes idxWidth numIdx
  | inner => materializeLcPlain dict inner indexes idxWidth numIdx

end Sync

/-! ## §4. Reading. -/

section Read

variable {σ : Type} [ByteStream Error σ]

/-- A fixed-width column, kept. -/
def readFixedInto (rows width : Nat) (what : String) : Read (Recorded σ) Unit := do
  let len ← liftExcept (checkedColumnLen rows width what)
  let _ ← readExactInto len
  return ()

/-- One byte a row: no length is computed. -/
def readBytesInto (rows : Nat) : Read (Recorded σ) Unit := do
  let _ ← readExactInto rows
  return ()

/-- `read_column_data_into` on a type without subcolumns. -/
def readLeafInto (ct : ColumnType) (rows : Nat) : Read (Recorded σ) Unit :=
  match ct with
  | .uint8 | .int8 | .bool | .enum8 => readBytesInto rows
  | .uint16 | .int16 | .date | .enum16 => readFixedInto rows 2 "fixed-width column"
  | .uint32 | .int32 | .float32 | .date32 | .dateTime | .time | .ipv4 =>
    readFixedInto rows 4 "fixed-width column"
  | .uint64 | .int64 | .float64 | .dateTime64 _ | .time64 _ =>
    readFixedInto rows 8 "fixed-width column"
  | .uint128 | .int128 | .uuid | .ipv6 => readFixedInto rows 16 "fixed-width column"
  | .uint256 | .int256 => readFixedInto rows 32 "fixed-width column"
  | .decimal precision _ =>
    decimalColumn (fun width => readFixedInto rows width "fixed-width column") precision
  | .nothing => readBytesInto rows
  | .string => stringsInto rows "string value length"
  | .json => do
    -- the version word is neither kept nor charged
    let version ← onStream readU64
    if version ≠ 1 ∧ version ≠ 4 then fail (jsonVersionError version)
    else stringsInto rows "JSON string length"
  | .fixedString n => readFixedInto rows n.toNat "FixedString column"
  | ct => fail (.text ("streaming read unsupported for column type " ++ debugText ct))

/-- `read_low_cardinality_into`; `column` reads the dictionary, which has a
recording and a budget of its own. -/
def readLowCardinalityInto (column : ColumnType → Nat → Read (Recorded σ) Unit)
    (inner : ColumnType) (rows : Nat) : Read (Recorded σ) Unit := do
  let header ← onStream (readExact 24)
  let idxWidth ← liftExcept (lcIdxWidth (lcWords header).1 (lcWords header).2.1)
  let numKeys ← liftExcept (lcKeyCount (lcWords header).2.2)
  let dict ← onStream (recording (column inner numKeys))
  let indexes ← onStream readU64
  if indexes ≠ rows then fail (lcCountError indexes rows)
  else do
    let len ← liftExcept (checkedColumnLen indexes idxWidth "LowCardinality index")
    charge len "column"
    let indexData ← onStream (readExact len)
    let data ← liftExcept
      (Sync.materializeLowCardinalityInner dict inner indexData idxWidth indexes)
    record data

/-- `read_column_data_into` on at least one row; `column` is the call one level
deeper. -/
def readTypedInto (column : ColumnType → Nat → Read (Recorded σ) Unit) (depth : Nat)
    (ct : ColumnType) (rows : Nat) : Read (Recorded σ) Unit :=
  match ct with
  | .nullable inner => do
    let _ ← readExactInto rows
    column inner rows
  | .array inner => do
    let total ← readOffsetsInto rows "array offset"
    column inner total
  | .map key value => do
    let total ← readOffsetsInto rows "map offset"
    column key total
    column value total
  | .tuple elems => forEach (fun elem => column elem rows) elems
  | .lowCardinality inner => readLowCardinalityInto column inner rows
  | .point => do
    column .float64 rows
    column .float64 rows
  | .ring => column (.array .point) rows
  | .polygon => column (.array .ring) rows
  | .multiPolygon => column (.array .polygon) rows
  | .dynamic => do
    let state ← intoOps.dynamicState (readColumnStatePrefixInto depth)
    intoOps.dynamicBody (readColumnBodyRawInto depth) state rows
  | .variant types => do
    let states ← collect (readColumnStatePrefixInto depth) types
    intoOps.variantBody (readColumnBodyRawInto depth) types states rows
  | ct => readLeafInto ct rows

/-- `read_column_data_into`; an empty column needs no depth. -/
def readColumnDataInto : Nat → ColumnType → Nat → Read (Recorded σ) Unit
  | 0, _, rows => if rows = 0 then pure () else tooDeep
  | depth + 1, ct, rows =>
    if rows = 0 then pure () else readTypedInto (readColumnDataInto depth) depth ct rows

end Read

end StClickHouse
