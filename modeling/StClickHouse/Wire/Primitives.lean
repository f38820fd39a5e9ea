/-
  StClickHouse.Wire.Primitives
  **BYTES, VARINTS, STRINGS AND OFFSETS.**

  The leaf readers of the native protocol, for the three ways the crate reads
  it: from a stream (`connection/io.rs`, `shared/wire.rs`), from a stream into
  a recording (`raw_block_reader.rs`, `sync/protocol/response.rs`) and from a
  buffer (`shared/wire.rs`).  The column readers are built from these only.
-/
import StClickHouse.Lib.RustText
import StClickHouse.Wire.Limits

namespace StClickHouse

open ByteReader RustText List

/-! ## §1. Little-endian words and fixed-size chunks. -/

/-- The number a little-endian byte string denotes. -/
def leNat : Bytes → Nat
  | [] => 0
  | b :: bs => b.toNat + 256 * leNat bs

/-- The `n` low bytes of a number, lowest first. -/
def leBytes : Nat → Nat → Bytes
  | 0, _ => []
  | n + 1, value => UInt8.ofNat (value % 256) :: leBytes n (value / 256)

/-- The first `n` chunks of `k` bytes. -/
def takeChunks (k : Nat) : Nat → Bytes → List Bytes
  | 0, _ => []
  | n + 1, bs => bs.take k :: takeChunks k n (bs.drop k)

/-- `chunks_exact(k)`: the whole chunks, without the remainder. -/
def chunksExact (k : Nat) (bs : Bytes) : List Bytes :=
  takeChunks k (bs.length / k) bs

/-- The scan over a buffer of Array or Map offsets: each is checked against the
one before it, and the last one is the inner row count. -/
def scanOffsets (name : String) (total : Nat) (offsets : Bytes) : Result Nat :=
  (chunksExact 8 offsets).foldlM (fun total chunk => checkedMonotonicOffset total (leNat chunk) name)
    total

/-! ## §2. Varints. -/

/-- A varint with more than 64 bits. -/
def varintOverflow : Error := .text "varint overflow"

/-- The varint loop: `left` more bytes may come, the next one at `shift`.
`exhausted` is what the reader does where no further byte may come. -/
def varintLoop {σ : Type} (next : Read σ UInt8) (exhausted : Read σ Nat) :
    Nat → Nat → Nat → Read σ Nat
  | 0, _, _ => exhausted
  | left + 1, shift, acc => do
    let byte ← next
    if shift = 63 ∧ byte.toNat % 128 > 1 then fail varintOverflow
    else if byte.toNat < 128 then return acc ||| (byte.toNat % 128) <<< shift
    else varintLoop next exhausted left (shift + 7) (acc ||| (byte.toNat % 128) <<< shift)

/-- `encode_varint`: seven bits a byte, lowest first; ten bytes carry 64 bits. -/
def encodeVarintFuel : Nat → Nat → Bytes
  | 0, _ => []
  | fuel + 1, value =>
    if value < 128 then [UInt8.ofNat value]
    else UInt8.ofNat (value % 128 + 128) :: encodeVarintFuel fuel (value / 128)

/-- `encode_varint`. -/
def encodeVarint (value : Nat) : Bytes := encodeVarintFuel 10 value

/-- `varint_len`: the number of bytes `encode_varint` writes. -/
def varintLenFuel : Nat → Nat → Nat
  | 0, _ => 0
  | fuel + 1, value => if value < 128 then 1 else varintLenFuel fuel (value / 128) + 1

/-- `varint_len`. -/
def varintLen (value : Nat) : Nat := varintLenFuel 10 value

/-! ## §3. Readers of a stream. -/

section Stream

variable {σ : Type} [ByteStream Error σ]

/-- One byte. -/
def readByte : Read σ UInt8 := do
  let bs ← readExact 1
  return bs.headD 0

/-- A little-endian `u64`. -/
def readU64 : Read σ Nat := do
  let bs ← readExact 8
  return leNat bs

/-- The rest of a varint whose first byte has been read. -/
def varintAfter (first : UInt8) : Read σ Nat :=
  if first.toNat < 128 then pure first.toNat
  else varintLoop readByte (fail varintOverflow) 9 7 (first.toNat % 128)

/-- `read_varint_async`. -/
def readVarintAsync : Read σ Nat := do
  let first ← readByte
  varintAfter first

/-- `wire::read_varint`. -/
def readVarint : Read σ Nat := varintLoop readByte (fail varintOverflow) 10 0 0

/-- `read_string_async`. -/
def readStringAsync : Read σ Text := do
  let value ← readVarintAsync
  let len ← liftExcept (checkedStringLen value "string length")
  let buf ← readExact len
  match fromUtf8 buf with
  | .ok s => return s
  | .error e => fail (.text ("utf8: " ++ e.render))

/-- The string length check of `shared/wire.rs`. -/
def wireStringLen (value : Nat) : Result Nat :=
  if value > maxStringBytes then
    .error (.protocol (.limit "string length" value
      ("clickhouse-cpp limit " ++ toString maxStringBytes)))
  else .ok value

/-- `wire::read_string`. -/
def readString : Read σ Text := do
  let value ← readVarint
  let len ← liftExcept (wireStringLen value)
  let buf ← readExact len
  match fromUtf8 buf with
  | .ok s => return s
  | .error e => fail (.text ("invalid utf8: " ++ e.render))

/-- Largest value read together with the first length byte of the next row. -/
def stringColMergedMax : Nat := 4096

/-- The first length byte of a row, where the row before has not taken it in. -/
def firstLengthByte : Option UInt8 → Read σ UInt8
  | some b => pure b
  | none => readByte

/-- The rows of `read_string_column_with_prefixes` still to read.  `pending` is
the first length byte of the next row where the read before has taken it in. -/
def readStringRows (lengthName : String) :
    Nat → Option UInt8 → Nat → Read σ Bytes
  | 0, _, _ => pure []
  | left + 1, pending, total => do
    let first ← firstLengthByte pending
    let value ← varintAfter first
    let len ← liftExcept (checkedStringLen value lengthName)
    let total ← liftExcept (checkedColumnBytes total (varintLen len + len) lengthName)
    if len > stringColMergedMax then do
      -- a large value: one bulk read, no lookahead
      let body ← readExact len
      let rest ← readStringRows lengthName left none total
      return encodeVarint len ++ body ++ rest
    else if left = 0 then do
      -- the last row has no lookahead, and no read at all when it is empty
      let body ← (if len > 0 then readExact len else pure [])
      return encodeVarint len ++ body
    else do
      let scratch ← readExact (len + 1)
      let rest ← readStringRows lengthName left (some (scratch.getD len 0)) total
      return encodeVarint len ++ scratch.take len ++ rest

/-- `read_string_column_with_prefixes`: the rows with their lengths re-encoded. -/
def readStringColumnWithPrefixes (rows : Nat) (lengthName : String) :
    Read σ Bytes :=
  readStringRows lengthName rows none 0

/-- `read_offsets_column`: the offset bytes and the inner row count. -/
def readOffsetsColumn (rows : Nat) (name : String) : Read σ (Bytes × Nat) := do
  let nbytes ← liftExcept (checkedColumnLen rows 8 name)
  let offsets ← readExact nbytes
  let total ← liftExcept (scanOffsets name 0 offsets)
  return (offsets, total)

end Stream

/-! ## §4. Readers that record what they read. -/

/-- A stream, the bytes recorded from it, and what is left of the byte budget
of the column. -/
structure Recorded (σ : Type) where
  stream : σ
  out : Bytes
  budget : Nat
  deriving Repr, DecidableEq

section Recorded

variable {σ : Type} {α : Type}

/-- Read the stream and record nothing. -/
def onStream (x : Read σ α) : Read (Recorded σ) α := fun r =>
  match x r.stream with
  | (res, s) => (res, { r with stream := s })

/-- Append to the recording. -/
def record (bs : Bytes) : Read (Recorded σ) Unit := fun r =>
  (.ok (), { r with out := r.out ++ bs })

/-- `charge_budget`. -/
def charge (len : Nat) (what : String) : Read (Recorded σ) Unit := fun r =>
  match chargeBudget r.budget len what with
  | .ok budget => (.ok (), { r with budget := budget })
  | .error e => (.error (.error e), r)

/-- Run a recording reader with an empty recording and a fresh column budget,
and give what it has recorded. -/
def recording (x : Read (Recorded σ) Unit) : Read σ Bytes := fun s =>
  match x ⟨s, [], maxColumnBytes⟩ with
  | (.ok _, r) => (.ok r.out, r.stream)
  | (.error e, r) => (.error e, r.stream)

variable [ByteStream Error σ]

/-- `len` bytes, capped, charged and recorded; `what` names the column in the
messages of the engine. -/
def takeRecorded (what : String) (len : Nat) : Read (Recorded σ) Bytes :=
  if len > maxColumnBytes then
    fail (.protocol (.limit (what ++ " byte length") len (limitText maxColumnBytes)))
  else do
    charge len what
    let bs ← onStream (readExact len)
    record bs
    return bs

/-- A varint whose bytes are charged and recorded one by one. -/
def varintRecorded (what : String) : Read (Recorded σ) Nat :=
  varintLoop
    (do
      let byte ← onStream readByte
      charge 1 what
      record [byte]
      return byte)
    (fail varintOverflow) 10 0 0

/-- `read_exact_recorded`. -/
def readExactRecorded (len : Nat) : Read (Recorded σ) Bytes :=
  takeRecorded "raw column" len

/-- `read_varint_recorded`. -/
def readVarintRecorded : Read (Recorded σ) Nat := varintRecorded "raw column"

/-- `read_string_recorded`. -/
def readStringRecorded (lengthName : String) : Read (Recorded σ) Text := do
  let value ← readVarintRecorded
  let len ← liftExcept (checkedStringLen value lengthName)
  let buf ← readExactRecorded len
  match fromUtf8 buf with
  | .ok s => return s
  | .error e => fail (.text ("utf8 in " ++ lengthName ++ ": " ++ e.render))

/-- `read_exact_into`: a read of nothing is no read. -/
def readExactInto (len : Nat) : Read (Recorded σ) Bytes :=
  if len = 0 then pure [] else takeRecorded "column" len

/-- `read_varint_into`. -/
def readVarintInto : Read (Recorded σ) Nat := varintRecorded "column"

/-- `read_string_into`. -/
def readStringInto (name : String) : Read (Recorded σ) Text := do
  let value ← readVarintInto
  let len ← liftExcept (checkedStringLen value name)
  let buf ← readExactInto len
  match fromUtf8 buf with
  | .ok s => return s
  | .error e => fail (.text ("invalid UTF-8 string: " ++ e.render))

end Recorded

/-! ## §5. Readers of a buffer. -/

/-- The part of a buffer from the read position on. -/
abbrev Slice := Bytes

/-- `n` bytes of the buffer, or `msg` with the position unchanged. -/
def sliceTake (msg : String) (n : Nat) : Read Slice Bytes := fun s =>
  if n ≤ s.length then (.ok (s.take n), s.drop n) else (.error (.error (.text msg)), s)

/-- `parse_bytes`. -/
def parseBytes (n : Nat) : Read Slice Bytes :=
  sliceTake "unexpected end of buffer parsing bytes" n

/-- The next byte of a varint in a buffer. -/
def sliceByte (msg : String) : Read Slice UInt8 := do
  let bs ← sliceTake msg 1
  return bs.headD 0

/-- A varint in a buffer: the eleventh byte is taken before it is refused. -/
def sliceVarint (msg : String) : Read Slice Nat :=
  varintLoop (sliceByte msg) (do let _ ← sliceByte msg; fail varintOverflow) 10 0 0

/-- `parse_varint`. -/
def parseVarint : Read Slice Nat := sliceVarint "unexpected end of buffer parsing varint"

/-- `parse_string_bytes`. -/
def parseStringBytes : Read Slice Bytes := do
  let value ← parseVarint
  let len ← liftExcept (wireStringLen value)
  parseBytes len

/-- The text of the next `len` bytes; the position moves only where it is one. -/
def sliceText (len : Nat) : Read Slice Text := fun s =>
  if len ≤ s.length then
    match fromUtf8 (s.take len) with
    | .ok text => (.ok text, s.drop len)
    | .error _ => (.error (.error (.text "invalid utf8 in response")), s)
  else (.error (.error (.text "unexpected end of buffer parsing string")), s)

/-- `parse_string`. -/
def parseString : Read Slice Text := do
  let value ← parseVarint
  let len ← liftExcept (wireStringLen value)
  sliceText len

/-- `advance_pos`. -/
def advancePos (n : Nat) : Read Slice Bytes :=
  sliceTake "unexpected end of buffer skipping column data" n

/-- `checked_len` of the slice skipper, which is capped. -/
def skipCheckedLen (rows width : Nat) : Result Nat :=
  checkedColumnLen rows width "column byte length"

/-- `skip_offsets`. -/
def skipOffsets (rows : Nat) (name : String) : Read Slice Nat := do
  let nbytes ← liftExcept (skipCheckedLen rows 8)
  let offsets ← sliceTake "unexpected end of buffer parsing array offsets" nbytes
  liftExcept (scanOffsets name 0 offsets)

/-- `skip_string_rows`. -/
def skipStringRows (rows : Nat) (lengthName : String) : Read Slice Unit :=
  times rows do
    let value ← parseVarint
    let len ← liftExcept (checkedStringLen value lengthName)
    let _ ← advancePos len
    return ()

/-! ## §6. BlockInfo, the LowCardinality header, the JSON version. -/

/-- The BlockInfo loop: tagged fields up to the tag 0; an unknown tag ends it
too.  `fuel` bounds the number of fields. -/
def blockInfoLoop {σ : Type} (varint : Read σ Nat)
    (bytes : Nat → Read σ Bytes) : Nat → Read σ Unit
  | 0 => tooDeep
  | fuel + 1 => do
    let d ← varint
    if d = 1 then do
      let _ ← bytes 1
      blockInfoLoop varint bytes fuel
    else if d = 2 then do
      let _ ← bytes 4
      blockInfoLoop varint bytes fuel
    else if d = 3 then do
      let _ ← varint
      blockInfoLoop varint bytes fuel
    else return ()

/-- The key serialization version of a LowCardinality column is not 1. -/
def lcVersionError (version : Nat) : Error :=
  .text ("unsupported LowCardinality key serialization version " ++ toString version)

/-- `lc_idx_width`: the index width of a LowCardinality header. -/
def lcIdxWidth (version serialType : Nat) : Result Nat :=
  if version ≠ 1 then .error (lcVersionError version)
  else if serialType.testBit 8 then
    .error (.text "LowCardinality global dictionaries are not supported")
  else if ¬ serialType.testBit 9 then
    .error (.text "LowCardinality additional keys flag is missing")
  else .ok (2 ^ (serialType % 4))

/-- The three words of the 24-byte LowCardinality header: version, serialization
type, key count. -/
def lcWords (header : Bytes) : Nat × Nat × Nat :=
  (leNat (header.take 8), leNat ((header.drop 8).take 8), leNat ((header.drop 16).take 8))

/-- The key count of a LowCardinality header. -/
def lcKeyCount (numKeys : Nat) : Result Nat :=
  checkedCount numKeys "LowCardinality key" maxJsonDynamicItems

/-- The index count of a LowCardinality column differs from its row count. -/
def lcCountError (indexes rows : Nat) : Error :=
  .text ("LowCardinality index count " ++ toString indexes ++ " does not match row count "
    ++ toString rows)

/-- The version word of a materialized JSON column is not 1 or 4. -/
def jsonVersionError (version : Nat) : Error :=
  .text ("materialized JSON reads require string serialization version 1 or 4, got "
    ++ toString version
    ++ "; enable output_format_native_write_json_as_string=1 or use query_raw")

/-! ## §7. Blocks. -/

/-- A column of a block.  (`lc_materialized` is always empty.) -/
structure ColumnInfo where
  name : Text
  typeName : Text
  data : Bytes
  deriving Repr, DecidableEq

/-- A block of rows. -/
structure Block where
  columns : List ColumnInfo
  rows : Nat
  deriving Repr, DecidableEq

/-- The column and row counts of a block. -/
def blockCounts {σ : Type} (varint : Read σ Nat) : Read σ (Nat × Nat) := do
  let cols ← varint
  let cols ← liftExcept (checkedCount cols "block column" maxBlockColumns)
  let rows ← varint
  let rows ← liftExcept (checkedCount rows "block row" maxBlockRows)
  return (cols, rows)

/-- A custom serialization is announced for a column. -/
def customSerializationError (name : Text) : Error :=
  .text ("unsupported custom serialization for column '" ++ String.ofList name ++ "'")

/-! ## §8. Words written and offsets scanned in pieces. -/

theorem leBytes_length (n value : Nat) : (leBytes n value).length = n := by
  induction n generalizing value with
  | zero => rfl
  | succ n ih => exact congrArg Nat.succ (ih (value / 256))

theorem leNat_leBytes {n value : Nat} (h : value < 256 ^ n) : leNat (leBytes n value) = value := by
  induction n generalizing value with
  | zero =>
    have hzero : value = 0 := by simpa using h
    rw [hzero]
    rfl
  | succ n ih =>
    have hdiv : value / 256 < 256 ^ n := by
      rw [Nat.pow_succ] at h
      exact Nat.div_lt_of_lt_mul (by omega)
    show (UInt8.ofNat (value % 256)).toNat + 256 * leNat (leBytes n (value / 256)) = value
    rw [ih hdiv, UInt8.toNat_ofNat_of_lt' (show value % 256 < 256 from Nat.mod_lt value (by decide))]
    omega

variable {a : Bytes}

theorem takeChunks_append {k : Nat} (m n : Nat) (b : Bytes) :
    a.length = m * k → takeChunks k (m + n) (a ++ b) = takeChunks k m a ++ takeChunks k n b := by
  induction m generalizing n a b with
  | zero =>
    intro hlen
    have ha : a = [] := length_eq_zero_iff.mp (by omega)
    rw [ha, Nat.zero_add]
    rfl
  | succ m ih =>
    intro hlen
    have hk : k ≤ a.length := by rw [hlen, Nat.succ_mul]; omega
    have hdrop : (a.drop k).length = m * k := by
      rw [length_drop, hlen, Nat.succ_mul]; omega
    rw [Nat.succ_add]
    show (a ++ b).take k :: takeChunks k (m + n) ((a ++ b).drop k) = _
    rw [take_append_of_le_length hk, drop_append_of_le_length hk, ih n b hdrop]
    rfl

theorem chunksExact_append {k : Nat} (hk : 0 < k) (b : Bytes) (ha : k ∣ a.length) :
    chunksExact k (a ++ b) = chunksExact k a ++ chunksExact k b := by
  obtain ⟨m, hm⟩ := ha
  have hlen : a.length = m * k := by rw [hm, Nat.mul_comm]
  have hdiv : a.length / k = m := by rw [hm, Nat.mul_div_cancel_left m hk]
  have hsum : (a ++ b).length / k = m + b.length / k := by
    rw [length_append, hm, Nat.mul_add_div hk]
  unfold chunksExact
  rw [hsum, hdiv, takeChunks_append m _ b hlen]

/-- A scan over two buffers is the scan over the first, then over the second. -/
theorem scanOffsets_append {name : String} {total : Nat} (b : Bytes) (ha : 8 ∣ a.length) :
    scanOffsets name total (a ++ b)
      = scanOffsets name total a >>= fun total' => scanOffsets name total' b := by
  unfold scanOffsets
  rw [chunksExact_append (by decide) b ha, foldlM_append]

theorem scanOffsets_single {name : String} {total : Nat} {chunk : Bytes}
    (h : chunk.length = 8) :
    scanOffsets name total chunk = checkedMonotonicOffset total (leNat chunk) name := by
  have hchunks : chunksExact 8 chunk = [chunk] := by
    unfold chunksExact
    rw [h]
    show [chunk.take 8] = [chunk]
    rw [take_of_length_le (by omega)]
  unfold scanOffsets
  rw [hchunks]
  simp only [foldlM_cons, foldlM_nil, bind_pure]

end StClickHouse
