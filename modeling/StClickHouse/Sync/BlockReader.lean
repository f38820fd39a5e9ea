/-
  StClickHouse.Sync.BlockReader
  **THE BLOCK READERS OF THE SYNC ENGINE.**

  `sync/protocol/response.rs` has three readers of a block body:
  `read_block_body` keeps it, `discard_block_body` counts its rows, and
  `parse_block_body` slices a buffered body with the shared skipper.
  `parse_block_body_shared` differs from the last one only in how the slice is
  represented.
-/
import StClickHouse.Buffer.SkipColumn
import StClickHouse.Sync.ColumnReader

namespace StClickHouse

open ByteReader RustText List

/-! ## §1. Column types. -/

/-- The names `parse_column_type` knows without the parser. -/
def columnTypeTable : List (Text × ColumnType) :=
  [("UInt8".toList, .uint8), ("UInt16".toList, .uint16), ("UInt32".toList, .uint32),
    ("UInt64".toList, .uint64), ("Int8".toList, .int8), ("Int16".toList, .int16),
    ("Int32".toList, .int32), ("Int64".toList, .int64), ("Float32".toList, .float32),
    ("Float64".toList, .float64), ("String".toList, .string), ("Date".toList, .date),
    ("DateTime".toList, .dateTime), ("UUID".toList, .uuid), ("Bool".toList, .bool),
    ("IPv4".toList, .ipv4), ("IPv6".toList, .ipv6), ("Date32".toList, .date32),
    ("UInt128".toList, .uint128), ("UInt256".toList, .uint256), ("Int128".toList, .int128),
    ("Int256".toList, .int256)]

/-- `parse_column_type`. -/
def parseColumnType (typeName : Text) : Result ColumnType :=
  match columnTypeTable.lookup typeName with
  | some ct => .ok ct
  | none => parseTypeAs "type" typeName

/-! ## §2. From a stream. -/

section Stream

variable {σ : Type} [ByteStream Error σ]

/-- Name, type name and custom-serialization byte of a column, then its type. -/
def readColumnHeader : Read σ (Text × Text × ColumnType) := do
  let name ← readString
  let typeName ← readString
  let custom ← readByte
  if custom ≠ 0 then fail (customSerializationError name)
  else do
    let ct ← liftExcept (parseColumnType typeName)
    return (name, typeName, ct)

/-- One column of `read_block_body`, with a fresh budget. -/
def readBodyColumn (depth rows : Nat) : Read σ ColumnInfo := do
  let header ← readColumnHeader
  let data ← recording (readColumnDataInto depth header.2.2 rows)
  return { name := header.1, typeName := header.2.1, data := data }

/-- `read_block_body`. -/
def readBlockBody (depth : Nat) : Read σ Block := do
  blockInfoLoop readVarint readExact depth
  let counts ← blockCounts readVarint
  -- the empty block marker, which has no columns to read
  if counts.1 = 0 ∧ counts.2 = 0 then return { columns := [], rows := 0 }
  else do
    let columns ← collect (fun _ => readBodyColumn depth counts.2) (List.replicate counts.1 ())
    return { columns := columns, rows := counts.2 }

end Stream

/-! ## §3. From a buffer. -/

/-- The bytes a walk over a buffer passes. -/
def passed (x : Read Slice Unit) : Read Slice Bytes := fun s =>
  match x s with
  | (.ok _, rest) => (.ok (s.take (s.length - rest.length)), rest)
  | (.error e, rest) => (.error e, rest)

/-- `materialized_column_data_start`, as the column data it selects: a JSON
column loses its version word, and JSON below the top level is refused. -/
def materializedColumnData (ct : ColumnType) (rows : Nat) (bytes : Bytes) :
    Result Bytes :=
  if rows > 0 ∧ containsNestedJson ct = true then
    .error (.text ("nested JSON columns are not supported in buffered block reads (column type "
      ++ String.ofList ct.display ++ "); use uncompressed reads or query_raw"))
  else match ct with
    | .json => .ok (if rows = 0 then bytes else bytes.drop 8)
    | _ => .ok bytes

/-- `read_low_cardinality_from_buffer`; `column` skips the dictionary. -/
def readLowCardinalityFromBuffer (column : ColumnType → Nat → Read Slice Unit)
    (inner : ColumnType) (rows : Nat) : Read Slice Bytes :=
  if rows = 0 then pure []
  else do
    let header ← parseBytes 24
    let idxWidth ← liftExcept (lcIdxWidth (lcWords header).1 (lcWords header).2.1)
    let numKeys ← liftExcept (lcKeyCount (lcWords header).2.2)
    let dict ← passed (column inner numKeys)
    let indexes ← readU64Le
    if indexes ≠ rows then fail (lcCountError indexes rows)
    else do
      let len ← liftExcept (checkedColumnLen indexes idxWidth "LowCardinality index")
      let indexData ← parseBytes len
      liftExcept (Sync.materializeLowCardinalityInner dict inner indexData idxWidth indexes)

/-- The data of a buffered column; the dictionary of a LowCardinality column is
skipped one call deeper. -/
def parseColumnData (depth : Nat) (ct : ColumnType) (rows : Nat) :
    Read Slice Bytes :=
  match ct with
  | .lowCardinality inner => readLowCardinalityFromBuffer (skipColumnData (depth - 1)) inner rows
  | ct => do
    let bytes ← passed (skipColumnData depth ct rows)
    liftExcept (materializedColumnData ct rows bytes)

/-- One column of `parse_block_body`; its custom-serialization byte is not
looked at. -/
def parseBodyColumn (depth rows : Nat) : Read Slice ColumnInfo := do
  let name ← parseString
  let typeName ← parseString
  let _custom ← parseBytes 1
  let ct ← liftExcept (parseTypeAs "type" typeName)
  let data ← parseColumnData depth ct rows
  return { name := name, typeName := typeName, data := data }

/-- `parse_block_body`. -/
def parseBlockBody (depth : Nat) : Read Slice Block := do
  blockInfoLoop parseVarint advancePos depth
  let counts ← blockCounts parseVarint
  let columns ← collect (fun _ => parseBodyColumn depth counts.2) (List.replicate counts.1 ())
  return { columns := columns, rows := counts.2 }

end StClickHouse
