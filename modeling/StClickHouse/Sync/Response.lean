/-
  StClickHouse.Sync.Response
  **THE RESPONSE LOOPS OF THE SYNC CLIENT.**

  The free functions of `sync/client.rs` that read a response packet by packet, over any
  reader: the materialised blocks, the visited blocks, the row count (which is also how a
  response is drained), and the wait for the table structure of an INSERT.  They are one
  loop with different handlers.
-/
import StClickHouse.Sync.Discard
import StClickHouse.Async.Select

namespace StClickHouse

open ByteReader RustText

/-! ## §1. What the loops need of a reader. -/

/-- A reader with a clock and a way to write: `Read + Write` and the deadline. -/
class Duplex (σ : Type) where
  /-- `Instant::now() > deadline`. -/
  expired : Read σ Bool
  /-- `write_native_packet`. -/
  writeNative : Bytes → Read σ Unit

export Duplex (expired writeNative)

/-- Another error in place of the one a read fails with. -/
def mapError {σ α : Type} (f : Error → Error) (x : Read σ α) : Read σ α := fun s =>
  match x s with
  | (.error (.error e), s') => (.error (.error (f e)), s')
  | out => out

namespace Sync

section Stream

variable {σ : Type} [ByteStream Error σ]

/-! ## §2. Packet bodies. -/

/-- `wire::read_string_bytes`. -/
def readStringBytes : Read σ Bytes := do
  let value ← readVarint
  let len ← liftExcept (wireStringLen value)
  readExact len

/-- `read_string_lossy`. -/
def readStringLossy : Read σ String := do
  let bytes ← readStringBytes
  return String.ofList (fromUtf8Lossy bytes)

/-- The loop of `read_exception_packet`. -/
def exceptionLevels : Nat → Option (Int × String) → List String → Read σ Error
  | 0, _, _ => tooDeep
  | depth + 1, root, messages => do
    let code ← readExact 4
    let name ← readStringLossy
    let msg ← readStringLossy
    let _stack ← readStringBytes
    let root := root.getD (leInt32 code, name)
    let messages := messages ++ [name ++ " (code " ++ toString (leInt32 code) ++ "): " ++ msg]
    let nested ← readByte
    if nested = 0 then
      return .serverError root.1 root.2 (String.intercalate " | nested: " messages)
    else exceptionLevels depth (some root) messages

/-- `Err(read_exception_packet(reader))`: the server's exception, or whatever kept it from
    being read. -/
def readExceptionPacket {α : Type} (depth : Nat) : Read σ α := do
  let e ← exceptionLevels depth none []
  fail e

/-- Which optional fields a revision has. -/
def clientWriteInfo : Nat := 54420
def serverQueryTimeInProgress : Nat := 54460
def totalBytesInProgress : Nat := 54463
def rowsBeforeAggregation : Nat := 54469

/-- A field that is present from a revision on. -/
def whenSince (rev gate : Nat) (x : Read σ Unit) : Read σ Unit :=
  if gate ≤ rev then x else pure ()

/-- `skip_progress_packet`; the copies for fixed revisions are the same function. -/
def skipProgressPacket (rev : Nat) : Read σ Unit := do
  let _rows ← readVarint
  let _bytes ← readVarint
  let _totalRows ← readVarint
  whenSince rev clientWriteInfo do
    let _writtenRows ← readVarint
    let _writtenBytes ← readVarint
    return ()
  whenSince rev serverQueryTimeInProgress do
    let _elapsedNs ← readVarint
    return ()
  whenSince rev totalBytesInProgress do
    let _totalBytesToRead ← readVarint
    return ()

/-- `skip_profile_info_packet`, likewise. -/
def skipProfileInfoPacket (rev : Nat) : Read σ Unit := do
  let _rows ← readVarint
  let _blocks ← readVarint
  let _bytes ← readVarint
  let _appliedLimit ← readByte
  let _rowsBeforeLimit ← readVarint
  let _calculatedRowsBeforeLimit ← readByte
  whenSince rev rowsBeforeAggregation do
    let _appliedAggregation ← readByte
    let _rowsBeforeAggregation ← readVarint
    return ()

/-- `discard_exact` of `client.rs`. -/
def discardExactBy1024 (len : Nat) : Read σ Unit := discardWindows 1024 len len

/-- `checked_mul(16)`. -/
def checkedMul16 (count : Nat) (what : String) : Result Nat :=
  if count * 16 ≥ usizeBound then .error (.protocol (.overflow (what ++ " byte length")))
  else .ok (count * 16)

/-- `skip_part_uuids_packet`. -/
def skipPartUuidsPacket : Read σ Unit := do
  let count ← readVarint
  let len ← liftExcept (checkedMul16 count "PartUUIDs")
  discardExactBy1024 len

/-- `skip_merge_tree_part_info`. -/
def skipMergeTreePartInfo : Read σ Unit := do
  let _version ← readU64
  let _partitionId ← readString
  let _minBlock ← readU64
  let _maxBlock ← readU64
  let _level ← readU64
  let _mutation ← readU64
  let _useLegacyMaxLevel ← readByte
  return ()

/-- `skip_mark_ranges`. -/
def skipMarkRanges : Read σ Unit := do
  let count ← readU64
  let len ← liftExcept (checkedMul16 count "parallel replica mark ranges")
  discardExactBy1024 len

/-- `skip_ranges_in_data_parts_description`, of the protocol version 7. -/
def skipRangesInDataPartsDescription : Read σ Unit := do
  let count ← readVarint
  times count (do
    skipMergeTreePartInfo
    skipMarkRanges
    let _rows ← readVarint
    let _projectionName ← readString
    let _minMarksPerTask ← readVarint
    return ())

/-- `skip_parallel_read_announcement`. -/
def skipParallelReadAnnouncement : Read σ Unit := do
  let _version ← readU64
  let _mode ← readByte
  skipRangesInDataPartsDescription
  let _replicaNum ← readU64
  let _markSegmentSize ← readU64
  let _initialParticipatingReplicas ← readVarint
  let _minMarksPerRequest ← readVarint
  let _streamId ← readString
  return ()

/-- `read_parallel_read_request_stream_id`. -/
def readParallelReadRequestStreamId : Read σ Text := do
  let _version ← readU64
  let _mode ← readByte
  let _replicaNum ← readU64
  let _minMarksPerRequest ← readU64
  skipRangesInDataPartsDescription
  readString

/-! ## §3. Bodies that may be compressed. -/

/-- A body read through a `DecompressingReader` with the given buffer. -/
def throughFrames {α : Type} (env : Env) (body : Read (Inflating σ) α) (buf : Bytes)
    (plain : Bool) (produced : Nat) : Read σ α := fun s =>
  match body ⟨env.codec, env.depth, s, buf, plain, produced, []⟩ with
  | (res, z) => (res, z.inner)

/-- Whatever keeps the first frame from being decoded is reported as invalid data. -/
def invalidData (_ : Error) : Error := .io .invalidData

/-- `decompressing(reader)` and a body read through it.  What does not look like a frame is
    read as it stands. -/
def decompressing {α : Type} (env : Env) (body : Read (Inflating σ) α) : Read σ α := do
  let first ← mapError invalidData (readExact 1)
  let rest ← mapError invalidData (readExact checksumLen)
  let sniff := first ++ rest
  match CompressionMethod.fromByte (sniff.getD checksumLen 0) with
  | none => throughFrames env body sniff true 0
  | some _ => do
    let tail ← mapError invalidData (readExact (frameHeaderTotal - checksumLen - 1))
    let frame := sniff ++ tail
    if compressedSize frame < headerLen then throughFrames env body frame true 0
    else if compressedSize frame > maxFrameSize then fail (.io .invalidData)
    else do
      let rest ← mapError invalidData (readExact (compressedSize frame - headerLen))
      match decodeFrameBytes env.codec (frame ++ rest) with
      | .error _ => fail (.io .invalidData)
      | .ok payload =>
        match checkedBlockBytes 0 payload.length with
        | none => fail (.io .invalidData)
        | some produced => throughFrames env body payload false produced

/-- A block body, compressed or not. -/
def maybeDecompressing {α : Type} (env : Env) (compressed : Bool)
    (body : ∀ {τ : Type} [ByteStream Error τ], Read τ α) : Read σ α :=
  if compressed then decompressing env body else body

variable (env : Env)

/-- `read_block_from`. -/
def readBlockFrom (compressed : Bool) : Read σ Block := do
  let _table ← readString
  maybeDecompressing env compressed (readBlockBody env.depth)

/-- `discard_block_from`. -/
def discardBlockFrom (compressed : Bool) : Read σ Nat := do
  let _table ← readString
  maybeDecompressing env compressed (discardBlockBody env.depth)

/-- `read_tagged_block_body_from`. -/
def readTaggedBlockBodyFrom (compressed : Bool) : Read σ Unit := do
  let _tag ← readString
  let _block ← maybeDecompressing env compressed (readBlockBody env.depth)
  return ()

/-- `discard_tagged_block_body_from`. -/
def discardTaggedBlockBodyFrom (compressed : Bool) : Read σ Unit := do
  let _tag ← readString
  let _rows ← maybeDecompressing env compressed (discardBlockBody env.depth)
  return ()

/-- The two strings of a TableColumns packet. -/
def readTableColumns : Read σ Unit := do
  let _table ← readString
  let _columns ← readString
  return ()

/-- `read_table_columns_from`: here the strings are compressed, too. -/
def readTableColumnsFrom (compressed : Bool) : Read σ Unit :=
  maybeDecompressing env compressed readTableColumns

/-- A Log packet, which is never compressed. -/
def readLog : Read σ Unit := do
  let _tag ← readString
  let _block ← readBlockBody env.depth
  return ()

/-- A Log packet, discarded. -/
def discardLog : Read σ Unit := do
  let _tag ← readString
  let _rows ← discardBlockBody env.depth
  return ()

end Stream

/-! ## §4. The loops. -/

section Loops

variable {σ : Type} [ByteStream Error σ] [Duplex σ]

/-- `handle_coordinator_packet`. -/
def handleCoordinatorPacket (packetType : Nat) : Read σ Bool :=
  if packetType = 13 then do
    writeNative emptyClusterFunctionReadTaskResponse
    return true
  else if packetType = 15 then do
    skipParallelReadAnnouncement
    return true
  else if packetType = 16 then do
    let streamId ← readParallelReadRequestStreamId
    writeNative (finishedMergeTreeReadTaskResponse streamId)
    return true
  else return false

/-- What the loops differ in: the header, the Data packets, the other packets with a block,
    EndOfStream, and the text for an unknown packet. -/
structure Handlers (σ H R : Type) where
  header : Read σ Nat
  onData : H → Read σ (Turn H R)
  onSide : Read σ Unit
  onLog : Read σ Unit
  onTagged : Read σ Unit
  onEnd : H → Result R
  unknown : String

/-- What all loops read in a response the same way. -/
structure Reply where
  rev : Nat
  compressed : Bool
  deriving Repr, DecidableEq

variable {H R : Type}

/-- What is done with a packet of the given type. -/
def Handlers.packet (env : Env) (reply : Reply) (p : Handlers σ H R) (h : H) (packetType : Nat) :
    Read σ (Turn H R) :=
  match packetType with
  | 1 => p.onData h
  | 2 => readExceptionPacket env.depth
  | 3 => do
    skipProgressPacket reply.rev
    return .more h
  | 4 => return .more h
  | 5 => do
    let r ← liftExcept (p.onEnd h)
    return .done r
  | 6 => do
    skipProfileInfoPacket reply.rev
    return .more h
  | 7 | 8 => do
    p.onSide
    return .more h
  | 10 => do
    p.onLog
    return .more h
  | 14 => do
    p.onTagged
    return .more h
  | 12 => do
    skipPartUuidsPacket
    return .more h
  | 11 => do
    readTableColumnsFrom env reply.compressed
    return .more h
  | 17 => do
    let _timezone ← readString
    return .more h
  | other => do
    if ← handleCoordinatorPacket other then return .more h
    else fail (.text (p.unknown ++ ": " ++ toString other))

/-- One packet of a response. -/
def Handlers.turn (env : Env) (reply : Reply) (p : Handlers σ H R) (h : H) :
    Read σ (Turn H R) := do
  let packetType ← p.header
  p.packet env reply h packetType

/-- A read timeout at a packet boundary. -/
def timedOutText : Error → Error
  | .io .timedOut => .text "response read timed out"
  | e => e

/-- The header of the three response loops. -/
def responseHeader : Read σ Nat := do
  if ← expired then fail (.text "response read deadline exceeded")
  else mapError timedOutText readVarint

/-- `read_response_blocks`. -/
def blocksHandlers (env : Env) (reply : Reply) :
    Handlers σ (List Block × ResponseBudget) (List Block) where
  header := responseHeader
  onData h := do
    let block ← readBlockFrom env reply.compressed
    let budget ← liftExcept (chargeBlock h.2 block.payloadBytes)
    return .more (h.1 ++ [block], budget)
  onSide := do
    let _block ← readBlockFrom env reply.compressed
    return ()
  onLog := readLog env
  onTagged := readTaggedBlockBodyFrom env reply.compressed
  onEnd h := .ok h.1
  unknown := "unknown packet type"

/-- `read_response_block_views`: the visitor is given the blocks one after the other and may
    fail; it is told how many it has seen. -/
def viewsHandlers (env : Env) (reply : Reply) (visitor : Nat → Block → Result Unit) :
    Handlers σ Nat Unit where
  header := responseHeader
  onData seen := do
    let block ← readBlockFrom env reply.compressed
    liftExcept (visitor seen block)
    return .more (seen + 1)
  onSide := do
    let _rows ← discardBlockFrom env reply.compressed
    return ()
  onLog := discardLog env
  onTagged := discardTaggedBlockBodyFrom env reply.compressed
  onEnd _ := .ok ()
  unknown := "unknown packet type"

/-- The running total of `read_response_row_count`. -/
def addRows (rows more : Nat) : Result Nat :=
  if rows + more ≥ usizeBound then .error (.text "row count overflow") else .ok (rows + more)

/-- `read_response_row_count`. -/
def rowCountHandlers (env : Env) (reply : Reply) : Handlers σ Nat Nat where
  header := responseHeader
  onData rows := do
    let more ← discardBlockFrom env reply.compressed
    let rows ← liftExcept (addRows rows more)
    return .more rows
  onSide := do
    let _rows ← discardBlockFrom env reply.compressed
    return ()
  onLog := discardLog env
  onTagged := discardTaggedBlockBodyFrom env reply.compressed
  onEnd rows := .ok rows
  unknown := "unknown packet type"

/-- `wait_for_insert_table_structure_from_reader`, which ends with the first Data packet. -/
def structureHandlers (env : Env) (reply : Reply) : Handlers σ Unit Unit where
  header := do
    if ← expired then fail (.text "insert table-structure deadline exceeded")
    else readVarint
  onData _ := do
    let _block ← readBlockFrom env reply.compressed
    return .done ()
  onSide := do
    let _block ← readBlockFrom env reply.compressed
    return ()
  onLog := readLog env
  onTagged := readTaggedBlockBodyFrom env reply.compressed
  onEnd _ := .error (.text "unexpected EndOfStream before insert data")
  unknown := "unknown packet type while starting insert"

variable (env : Env) (reply : Reply)

/-- `read_response_blocks`. -/
def readResponseBlocks (budget : ResponseBudget) (fuel : Nat) : Read σ (List Block) :=
  loop ((blocksHandlers env reply).turn env reply) fuel ([], budget)

/-- `read_response_block_views`. -/
def readResponseBlockViews (visitor : Nat → Block → Result Unit) (fuel : Nat) :
    Read σ Unit :=
  loop ((viewsHandlers env reply visitor).turn env reply) fuel 0

/-- `read_response_row_count`. -/
def readResponseRowCount (fuel : Nat) : Read σ Nat :=
  loop ((rowCountHandlers env reply).turn env reply) fuel 0

/-- `wait_for_insert_table_structure_from_reader`. -/
def waitForInsertTableStructure (fuel : Nat) : Read σ Unit :=
  loop ((structureHandlers env reply).turn env reply) fuel ()

end Loops

/-! ## §5. `tables_status` and `ping`. -/

/-- `TableStatus`. -/
structure TableStatus where
  isReplicated : Bool
  absoluteDelay : Nat
  isReadonly : Bool
  deriving Repr, DecidableEq

section Status

variable {σ : Type} [ByteStream Error σ]

/-- Most entries of one response. -/
def maxTableStatusEntries : Nat := 0x00FFFFFF

/-- First revisions with table states, and with the read-only flag. -/
def tablesStatusRevision : Nat := 54226
def tableReadOnlyCheck : Nat := 54467

/-- `read_table_status`. -/
def readTableStatus (rev : Nat) : Read σ TableStatus := do
  let flag ← readByte
  if flag = 0 then return ⟨false, 0, false⟩
  else do
    let delay ← readVarint
    if tableReadOnlyCheck ≤ rev then do
      let readonly ← readVarint
      return ⟨true, delay, readonly ≠ 0⟩
    else return ⟨true, delay, false⟩

/-- `read_tables_status_response`; of two entries of one name the later counts. -/
def readTablesStatusResponse (rev : Nat) : Read σ (List ((Text × Text) × TableStatus)) := do
  if rev < tablesStatusRevision then
    fail (.text ("TablesStatus requires protocol revision >= " ++ toString tablesStatusRevision))
  else do
    let count ← readVarint
    let count ← liftExcept (checkedLimit "TablesStatus entry count" count maxTableStatusEntries)
    collect (fun _ => do
      let database ← readString
      let table ← readString
      let status ← readTableStatus rev
      return ((database, table), status)) (List.replicate count ())

/-- The packet `tables_status` has been answered with. -/
def tablesStatusPacket (depth rev packetType : Nat) :
    Read σ (List ((Text × Text) × TableStatus)) :=
  match packetType with
  | 2 => readExceptionPacket depth
  | 9 => readTablesStatusResponse rev
  | packetType => fail (.text ("expected TablesStatusResponse packet, got " ++ toString packetType))

/-- What `tables_status` reads. -/
def tablesStatusReply (depth rev : Nat) : Read σ (List ((Text × Text) × TableStatus)) := do
  let packetType ← readVarint
  tablesStatusPacket depth rev packetType

/-- What `ping` reads. -/
def pingReply : Read σ Unit := do
  let pkt ← readByte
  if pkt = 4 then return () else fail (.text "expected Pong")

end Status

end Sync

end StClickHouse
