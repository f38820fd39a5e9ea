/-
  StClickHouse.Async.Packets
  **THE BODIES OF THE SERVER'S PACKETS.**

  The readers of `connection/io.rs`, `connection/server_packets.rs` and the
  compressed half of `connection/block_reader.rs`: what follows a packet type in
  a response.  The protocol revision is the crate's own, so the fields that
  depend on it are all present.
-/
import StClickHouse.Async.Discard
import StClickHouse.Wire.Frame

namespace StClickHouse

open ByteReader RustText

/-! ## §1. The connection a response is read from.

  The bytes the server has sent and will send, after chunk framing, and what the
  world answers to each timed wait and each write.  The answers are data of the
  state, so that "for every byte stream, every delay and every write failure" is
  "for every `Net`".  Callbacks of the caller are recorded as events. -/

/-- How one timed wait ends. -/
inductive Wait where
  /-- The awaited read finishes first. -/
  | inTime
  /-- The limit runs out after some bytes have been taken; they are lost. -/
  | late (taken : Nat)
  /-- No time is left when the wait would begin. -/
  | expired
  deriving Repr, DecidableEq

/-- `Progress`. -/
structure Progress where
  rows : Nat
  bytes : Nat
  totalRows : Nat
  writtenRows : Nat
  writtenBytes : Nat
  deriving Repr, DecidableEq

/-- `Profile`. -/
structure Profile where
  rows : Nat
  blocks : Nat
  bytes : Nat
  rowsBeforeLimit : Nat
  appliedLimit : Bool
  calculatedRowsBeforeLimit : Bool
  deriving Repr, DecidableEq

/-- A call of one of the caller's callbacks. -/
inductive Event where
  | progress (p : Progress)
  | profile (p : Profile)
  | log (b : Block)
  | profileEvents (b : Block)
  | timezoneUpdate (s : Text)
  | partUuids (uuids : List Bytes)
  deriving Repr, DecidableEq

/-- `QueryCallbacks`: which callbacks are set. -/
structure QueryCallbacks where
  onProgress : Bool := false
  onProfile : Bool := false
  onLog : Bool := false
  onProfileEvents : Bool := false
  onTimezoneUpdate : Bool := false
  onPartUuids : Bool := false
  deriving Repr, DecidableEq

/-- A connection. -/
structure Net where
  /-- The bytes still to come. -/
  incoming : Bytes
  /-- The error of a read past them. -/
  fault : IoKind := .unexpectedEof
  /-- The timed waits to come; past the end of the list all are in time. -/
  waits : List Wait := []
  /-- How the writes and flushes to come end; past the end of the list all succeed. -/
  writes : List (Option IoKind) := []
  /-- What has been written. -/
  sent : List Bytes := []
  events : List Event := []
  deriving Repr, DecidableEq

/-- A read past the end takes what is left. -/
instance : ByteStream Error Net where
  readExact n := fun s =>
    if n ≤ s.incoming.length then
      (.ok (s.incoming.take n), { s with incoming := s.incoming.drop n })
    else (.error (.error (.io s.fault)), { s with incoming := [] })

/-- `timeout(limit, x)`. -/
instance : Timed Net where
  within x := fun s =>
    match s.waits with
    | [] => (do return some (← x)) s
    | .inTime :: waits => (do return some (← x)) { s with waits := waits }
    | .late taken :: waits =>
      (.ok none, { s with waits := waits, incoming := s.incoming.drop taken })
    | .expired :: waits => (.ok none, { s with waits := waits })

namespace Net

/-- Has the deadline passed?  Asked before a wait. -/
def outOfTime : Read Net Bool := fun s =>
  match s.waits with
  | .expired :: waits => (.ok true, { s with waits := waits })
  | _ => (.ok false, s)

/-- `flush`, and the outcome of any write. -/
def flush : Read Net Unit := fun s =>
  match s.writes with
  | some kind :: writes => (.error (.error (.io kind)), { s with writes := writes })
  | none :: writes => (.ok (), { s with writes := writes })
  | [] => (.ok (), s)

/-- `write_packet`. -/
def writePacket (packet : Bytes) : Read Net Unit := do
  flush
  fun s => (.ok (), { s with sent := s.sent ++ [packet] })

/-- A packet, written and flushed. -/
def send (packet : Bytes) : Read Net Unit := do
  writePacket packet
  flush

/-- Call a callback if it is set. -/
def emit (isSet : Bool) (event : Event) : Read Net Unit := fun s =>
  (.ok (), if isSet then { s with events := s.events ++ [event] } else s)

end Net

/-! ## §2. Bodies read from any stream. -/

section Stream

variable {σ : Type} [ByteStream Error σ]

/-- `read_progress_packet`. -/
def readProgressPacket : Read σ Progress := do
  let rows ← readVarintAsync
  let bytes ← readVarintAsync
  let totalRows ← readVarintAsync
  let writtenRows ← readVarintAsync
  let writtenBytes ← readVarintAsync
  let _elapsedNs ← readVarintAsync
  let _totalBytesToRead ← readVarintAsync
  return ⟨rows, bytes, totalRows, writtenRows, writtenBytes⟩

/-- `read_profile_info_packet`. -/
def readProfileInfoPacket : Read σ Profile := do
  let rows ← readVarintAsync
  let blocks ← readVarintAsync
  let bytes ← readVarintAsync
  let appliedLimit ← readByte
  let rowsBeforeLimit ← readVarintAsync
  let calculated ← readByte
  let _appliedAggregation ← readByte
  let _rowsBeforeAggregation ← readVarintAsync
  return ⟨rows, blocks, bytes, rowsBeforeLimit, appliedLimit ≠ 0, calculated ≠ 0⟩

/-- Largest count of part UUIDs in one packet. -/
def maxPartUuids : Nat := 1048576

/-- `read_part_uuids_packet`. -/
def readPartUuidsPacket : Read σ (List Bytes) := do
  let count ← readVarintAsync
  let count ← liftExcept (checkedCount count "PartUUID" maxPartUuids)
  collect (fun _ => readExact 16) (List.replicate count ())

/-- `discard_exact` of `io.rs`. -/
def discardExactIo (len : Nat) : Read σ Unit := discardWindows 8192 len len

/-- `read_string_lossy_async`. -/
def readStringLossyAsync : Read σ String := do
  let value ← readVarintAsync
  let len ← liftExcept (checkedStringLen value "string length")
  if len > 1048576 then do
    discardExactIo len
    return "<large string " ++ toString len ++ "b>"
  else do
    let buf ← readExact len
    return String.ofList (fromUtf8Lossy buf)

/-- Most levels of one exception chain. -/
def maxExceptionChainDepth : Nat := 1000

/-- A little-endian `i32`. -/
def leInt32 (bs : Bytes) : Int :=
  if leNat bs < 2 ^ 31 then leNat bs else leNat bs - 2 ^ 32

/-- The loop of `read_exception`, with the levels it may still read. -/
def exceptionChain : Nat → Option (Int × String) → List String → Read σ Error
  | 0, _, _ => fail (.text ("exception nesting too deep: more than "
      ++ toString maxExceptionChainDepth ++ " levels"))
  | levels + 1, root, messages => do
    let code ← readExact 4
    let name ← readStringLossyAsync
    let msg ← readStringLossyAsync
    let _stack ← readStringLossyAsync
    let root := root.getD (leInt32 code, name)
    let messages := messages
      ++ [name ++ " (code " ++ toString (leInt32 code) ++ "): " ++ msg]
    let nested ← readByte
    if nested = 0 then
      return .serverError root.1 root.2 (String.intercalate " | nested: " messages)
    else exceptionChain levels (some root) messages

/-- `read_exception`: the error the exception stands for. -/
def readException : Read σ Error := exceptionChain maxExceptionChainDepth none []

/-- `skip_merge_tree_part_info`. -/
def skipMergeTreePartInfo : Read σ Unit := do
  let _version ← readU64
  let _partitionId ← readStringAsync
  let _minBlock ← readU64
  let _maxBlock ← readU64
  let _level ← readU64
  let _mutation ← readU64
  let _useLegacyMaxLevel ← readByte
  return ()

/-- `skip_mark_ranges`. -/
def skipMarkRanges : Read σ Unit := do
  let count ← readU64
  let len ← liftExcept (checkedLen count 16)
  discardExactIo len

/-- `skip_ranges_in_data_parts_description`. -/
def skipRangesInDataPartsDescription : Read σ Unit := do
  let count ← readVarintAsync
  times count (do
    skipMergeTreePartInfo
    skipMarkRanges
    let _rows ← readVarintAsync
    let _projectionName ← readStringAsync
    let _minMarksPerTask ← readVarintAsync
    return ())

/-- `skip_parallel_read_announcement`. -/
def skipParallelReadAnnouncement : Read σ Unit := do
  let _version ← readU64
  let _mode ← readByte
  skipRangesInDataPartsDescription
  let _replicaNum ← readU64
  let _markSegmentSize ← readU64
  let _minMarksPerRequest ← readVarintAsync
  let _streamId ← readStringAsync
  return ()

/-- `read_parallel_read_request_stream_id`. -/
def readParallelReadRequestStreamId : Read σ Text := do
  let _version ← readU64
  let _mode ← readByte
  let _replicaNum ← readU64
  let _minMarksPerRequest ← readU64
  skipRangesInDataPartsDescription
  readStringAsync

/-- `unsupported_server_packet`: the error for a packet type that is not handled. -/
def unsupportedServerPacket (packetType : Nat) : Read σ Error :=
  if packetType = 9 then
    return .text ("unexpected TablesStatusResponse packet; table-status requests are not issued "
      ++ "by this client")
  else if packetType = 13 then
    return .text ("server sent ReadTaskRequest; cluster-function read-task responses are not "
      ++ "supported by this client")
  else if packetType = 15 then
    return .text ("server sent MergeTreeAllRangesAnnouncement; parallel-replica coordinator "
      ++ "packets are not supported by this client")
  else if packetType = 16 then
    return .text ("server sent MergeTreeReadTaskRequest; parallel-replica read-task responses "
      ++ "are not supported by this client")
  else if packetType = 18 then do
    let challenge ← readStringAsync
    return .text ("server sent SSHChallenge" ++ (if challenge = [] then "" else " packet")
      ++ "; SSH-key authentication is not supported by this client")
  else return .text ("unknown packet type: " ++ toString packetType)

end Stream

/-! ## §3. Bodies that may be compressed. -/

/-- The foreign compressors, and the model's bound on recursion and loops. -/
structure Env where
  codec : Codec
  depth : Nat

section Compressed

variable {σ : Type} [ByteStream Error σ] [Timed σ]

/-- `read_data_block_compressed`. -/
def readDataBlockCompressed (env : Env) : Read σ Block := do
  let _tableName ← readStringAsync
  Inflating.inflate env.codec env.depth (readDataBlockBody env.depth)

/-- `read_data_block_maybe_compressed`. -/
def readDataBlockMaybeCompressed (env : Env) (compressed : Bool) : Read σ Block :=
  if compressed then readDataBlockCompressed env else readDataBlock env.depth

/-- `discard_data_block_compressed`. -/
def discardDataBlockCompressed (env : Env) : Read σ Nat := do
  let _tableName ← readStringAsync
  Inflating.inflate env.codec env.depth (discardDataBlockBody env.depth)

/-- `discard_data_block_maybe_compressed`. -/
def discardDataBlockMaybeCompressed (env : Env) (compressed : Bool) : Read σ Nat :=
  if compressed then discardDataBlockCompressed env else discardDataBlock env.depth

/-- The two strings of a TableColumns packet. -/
def readTableColumns {τ : Type} [ByteStream Error τ] : Read τ Unit := do
  let _name ← readStringAsync
  let _types ← readStringAsync
  return ()

/-- `read_table_columns_packet`. -/
def readTableColumnsPacket (env : Env) (compressed : Bool) : Read σ Unit :=
  if compressed then Inflating.inflate env.codec env.depth readTableColumns else readTableColumns

end Compressed

/-! ## §4. Bodies that call back or answer. -/

/-- `read_timezone_update`. -/
def readTimezoneUpdate (callbacks : QueryCallbacks) : Read Net Unit := do
  let timezone ← readStringAsync
  Net.emit callbacks.onTimezoneUpdate (.timezoneUpdate timezone)

/-- `read_part_uuids_update`. -/
def readPartUuidsUpdate (callbacks : QueryCallbacks) : Read Net Unit := do
  let uuids ← readPartUuidsPacket
  Net.emit callbacks.onPartUuids (.partUuids uuids)

/-- `build_empty_cluster_function_read_task_response`. -/
def emptyClusterFunctionReadTaskResponse : Bytes :=
  encodeVarint 9 ++ encodeVarint 1 ++ encodeVarint 0

/-- `build_finished_merge_tree_read_task_response`. -/
def finishedMergeTreeReadTaskResponse (streamId : Text) : Bytes :=
  encodeVarint 10 ++ leBytes 8 7 ++ [0x31] ++ encodeVarint 0
    ++ encodeVarint (toUtf8 streamId).length ++ toUtf8 streamId

/-- `handle_coordinator_packet`: whether the type is one it handles. -/
def handleCoordinatorPacket (packetType : Nat) : Read Net Bool :=
  if packetType = 13 then do
    Net.send emptyClusterFunctionReadTaskResponse
    return true
  else if packetType = 15 then do
    skipParallelReadAnnouncement
    return true
  else if packetType = 16 then do
    let streamId ← readParallelReadRequestStreamId
    Net.send (finishedMergeTreeReadTaskResponse streamId)
    return true
  else return false

end StClickHouse
