/-
  StClickHouse.Sync.QueryStream
  **A STREAMED RESPONSE OF THE SYNC CLIENT.**

  `QueryStream` (`sync/client.rs`) hands a response out block by block.  It parses packets
  out of a buffer; a packet that cannot be parsed is taken for one that has not arrived in
  full, so the position goes back to where the packet starts and more bytes are read.  The
  body of a compressed packet is read through the buffer and the socket at once.
-/
import StClickHouse.Sync.Client

namespace StClickHouse

open ByteReader RustText

namespace Sync

/-! ## §1. More bytes. -/

/-- `read_exact`, with the bytes it has read also where it fails. -/
def readInto : Nat → Nat → Transport → Readout Unit × Bytes × Transport
  | _, 0, t => (.ok (), [], t)
  | 0, _ + 1, t => (.error .depth, [], t)
  | fuel + 1, n + 1, t =>
    match Transport.read (n + 1) t with
    | (.ok [], t) => (.error (.error (.io .unexpectedEof)), [], t)
    | (.ok (b :: bs), t) =>
      match readInto fuel (n + 1 - (b :: bs).length) t with
      | (res, more, t) => (res, (b :: bs) ++ more, t)
    | (.error e, t) => (.error e, [], t)

/-- What an attempt to get more bytes ends with. -/
inductive Pull where
  | bytes (got : Bytes)
  | closed
  /-- The read failed, or that of the length of a chunk. -/
  | failed (e : Stop Error)
  /-- A chunk is too long. -/
  | tooLong (len : Nat)
  /-- The read of a chunk failed; the room for it is in the buffer, as far as it has been
      filled and behind that with zeros. -/
  | torn (room : Bytes) (e : Stop Error)
  deriving Repr, DecidableEq

/-- The next chunk that is not empty. -/
def pullChunk : Nat → Transport → Pull × Transport
  | 0, t => (.failed .depth, t)
  | turns + 1, t =>
    match (readExact 4 : Read Transport Bytes) t with
    | (.error e, t) => (.failed e, t)
    | (.ok header, t) =>
      if leNat header = 0 then pullChunk turns t
      else if leNat header > maxChunkLen then (.tooLong (leNat header), t)
      else match readInto (leNat header) (leNat header) t with
        | (.ok (), got, t) => (.bytes got, t)
        | (.error e, got, t) =>
          (.torn (got ++ List.replicate (leNat header - got.length) 0) e, t)

/-- More bytes: a chunk, or what one read gives. -/
def pull (cfg : Config) (t : Transport) : Pull × Transport :=
  if cfg.chunkedRecv then pullChunk cfg.fuel t
  else match Transport.read cfg.readBufferSize t with
    | (.ok [], t) => (.closed, t)
    | (.ok (b :: bs), t) => (.bytes (b :: bs), t)
    | (.error e, t) => (.failed e, t)

/-- `StreamBytes`: the bytes of the buffer that have not been consumed, and the socket. -/
structure StreamBytes where
  cfg : Config
  rest : Bytes
  transport : Transport

namespace StreamBytes

/-- `refill`: whether there are more bytes. -/
def refill : Read StreamBytes Bool := fun b =>
  match pull b.cfg b.transport with
  | (.bytes got, t) => (.ok true, { b with rest := b.rest ++ got, transport := t })
  | (.closed, t) => (.ok false, { b with transport := t })
  | (.failed e, t) => (.error e, { b with transport := t })
  | (.tooLong _, t) => (.error (.error (.io .invalidData)), { b with transport := t })
  | (.torn room e, t) => (.error e, { b with rest := b.rest ++ room, transport := t })

/-- Serve from the buffer. -/
def serve (room : Nat) : Read StreamBytes Bytes := fun b =>
  (.ok (b.rest.take room), { b with rest := b.rest.drop room })

/-- `Read::read`. -/
def read (room : Nat) : Read StreamBytes Bytes := fun b =>
  if room = 0 then (.ok [], b)
  else if b.rest = [] then (do
    if ← refill then serve room else return []) b
  else serve room b

instance : ByteStream Error StreamBytes where
  readExact n := readExactBy read n n

end StreamBytes

/-- `QueryStream`. -/
structure QueryStream where
  bytes : StreamBytes
  done : Bool

namespace QueryStream

/-- A new stream over a duplicate of the socket. -/
def new (cfg : Config) (t : Transport) : QueryStream := ⟨⟨cfg, [], t⟩, false⟩

/-- The stream at another place of its buffer. -/
def moved (q : QueryStream) (rest : Bytes) : QueryStream :=
  { q with bytes := { q.bytes with rest := rest } }

/-- `StreamBytes::borrow`. -/
def onBytes {α : Type} (x : Read StreamBytes α) : Read QueryStream α := fun q =>
  match x q.bytes with
  | (res, b) => (res, { q with bytes := b })

/-- Write to the socket. -/
def onControl {α : Type} (x : Read Control α) : Read QueryStream α := fun q =>
  match Transport.onControl x q.bytes.transport with
  | (res, t) => (res, { q with bytes := { q.bytes with transport := t } })

/-- `fill_buffer`.  A closed connection and a read that has timed out set `done`; nothing is
    reported. -/
def fillBuffer : Read QueryStream Unit := fun q =>
  let onto (t : Transport) (rest : Bytes) : StreamBytes := ⟨q.bytes.cfg, rest, t⟩
  match pull q.bytes.cfg q.bytes.transport with
  | (.bytes got, t) => (.ok (), { q with bytes := onto t (q.bytes.rest ++ got) })
  | (.closed, t) => (.ok (), ⟨onto t q.bytes.rest, true⟩)
  | (.failed (.error (.io .timedOut)), t) => (.ok (), ⟨onto t q.bytes.rest, true⟩)
  | (.failed (.error (.io .wouldBlock)), t) => (.ok (), { q with bytes := onto t q.bytes.rest })
  | (.failed (.error (.io .unexpectedEof)), t) =>
    -- only a chunk length is read exactly
    if q.bytes.cfg.chunkedRecv then (.ok (), ⟨onto t q.bytes.rest, true⟩)
    else (.error (.error (.io .unexpectedEof)), { q with bytes := onto t q.bytes.rest })
  | (.failed e, t) => (.error e, { q with bytes := onto t q.bytes.rest })
  | (.tooLong len, t) =>
    (.error (.error (.text ("chunk length " ++ toString len ++ " exceeds maximum "
      ++ toString maxChunkLen))), { q with bytes := onto t q.bytes.rest })
  | (.torn room e, t) => (.error e, { q with bytes := onto t (q.bytes.rest ++ room) })

end QueryStream

/-! ## §2. Packets in the buffer. -/

/-- `parse_exception_chain`, with the levels that may follow. -/
def parseExceptionChain : Nat → Option (Int × String) → List String → Read Slice Error
  | 0, _, _ => fail (.text ("exception nesting too deep: more than 1000 levels"))
  | levels + 1, root, messages => do
    let code ← sliceTake "unexpected end of buffer parsing i32" 4
    let name ← parseStringBytes
    let msg ← parseStringBytes
    let _stack ← parseStringBytes
    let name := String.ofList (fromUtf8Lossy name)
    let root := root.getD (leInt32 code, name)
    let messages := messages ++ [name ++ " (code " ++ toString (leInt32 code) ++ "): "
      ++ String.ofList (fromUtf8Lossy msg)]
    let nested ← parseBytes 1
    if nested.headD 0 = 0 then
      return .serverError root.1 root.2 (String.intercalate " | nested: " messages)
    else parseExceptionChain levels (some root) messages

/-- `parse_block`. -/
def parseBlock (depth : Nat) : Read Slice Block := do
  let _table ← parseString
  parseBlockBody depth

/-- The varints of a Progress packet. -/
def progressFields (rev : Nat) : Nat :=
  3 + (if clientWriteInfo ≤ rev then 2 else 0) + (if serverQueryTimeInProgress ≤ rev then 1 else 0)
    + if totalBytesInProgress ≤ rev then 1 else 0

/-- A varint whose value is not used. -/
def skipVarint : Read Slice Unit := do
  let _value ← parseVarint
  return ()

/-- `skip_part_uuids_buffer`. -/
def skipPartUuidsBuffer : Read Slice Unit := do
  let count ← parseVarint
  let len ← liftExcept (checkedMul16 count "PartUUIDs")
  let _uuids ← sliceTake "unexpected end of PartUUIDs packet" len
  return ()

/-- `parse_u8`. -/
def parseU8 : Read Slice UInt8 := do
  let bs ← parseBytes 1
  return bs.headD 0

/-- `skip_merge_tree_part_info_buffer`. -/
def skipMergeTreePartInfoBuffer : Read Slice Unit := do
  let _version ← readU64Le
  let _partitionId ← parseString
  let _minBlock ← readU64Le
  let _maxBlock ← readU64Le
  let _level ← readU64Le
  let _mutation ← readU64Le
  let _useLegacyMaxLevel ← parseU8
  return ()

/-- `skip_mark_ranges_buffer`. -/
def skipMarkRangesBuffer : Read Slice Unit := do
  let count ← readU64Le
  let len ← liftExcept (checkedMul16 count "parallel replica mark ranges")
  let _ranges ← sliceTake "unexpected end of parallel replica mark ranges" len
  return ()

/-- `skip_ranges_in_data_parts_description_buffer`, of the protocol version 7. -/
def skipRangesInDataPartsDescriptionBuffer : Read Slice Unit := do
  let count ← parseVarint
  times count (do
    skipMergeTreePartInfoBuffer
    skipMarkRangesBuffer
    skipVarint
    let _projectionName ← parseString
    skipVarint)

/-- `skip_parallel_read_announcement_buffer`. -/
def skipParallelReadAnnouncementBuffer : Read Slice Unit := do
  let _version ← readU64Le
  let _mode ← parseU8
  skipRangesInDataPartsDescriptionBuffer
  let _replicaNum ← readU64Le
  let _markSegmentSize ← readU64Le
  skipVarint
  skipVarint
  let _streamId ← parseString
  return ()

/-- `read_parallel_read_request_stream_id_buffer`. -/
def readParallelReadRequestStreamIdBuffer : Read Slice Text := do
  let _version ← readU64Le
  let _mode ← parseU8
  let _replicaNum ← readU64Le
  let _minMarksPerRequest ← readU64Le
  skipRangesInDataPartsDescriptionBuffer
  parseString

/-- What a packet asks the stream to do. -/
inductive Packet where
  | block (b : Block)
  | skipped
  | finished
  | exception (e : Error)
  /-- The packet is answered. -/
  | answered (answer : Bytes)
  | unknown (packetType : Nat)
  deriving DecidableEq

/-- A packet with nothing for the caller. -/
def skips (x : Read Slice Unit) : Read Slice Packet := do
  x
  return .skipped

/-- A tag and a block body, as Log and ProfileEvents packets have. -/
def skipTaggedBlock (depth : Nat) : Read Slice Unit := do
  let _tag ← parseString
  let _block ← parseBlockBody depth
  return ()

/-- The body of a packet that is parsed out of the buffer.  ProfileInfo (6) is parsed by
    `profileInfo`, and so are the compressed packets by `compressedPacket`. -/
def bufferedPacket (cfg : Config) (packetType : Nat) : Read Slice Packet :=
  match packetType with
  | 1 => do
    let b ← parseBlock cfg.env.depth
    return .block b
  | 2 => do
    let e ← parseExceptionChain 1000 none []
    return .exception e
  | 3 => skips (times (progressFields cfg.reply.rev) skipVarint)
  | 4 => return .skipped
  | 5 => return .finished
  | 7 | 8 => skips (do
      let _block ← parseBlock cfg.env.depth
      return ())
  | 10 | 14 => skips (skipTaggedBlock cfg.env.depth)
  | 11 => skips (do
      let _table ← parseString
      let _columns ← parseString
      return ())
  | 12 => skips skipPartUuidsBuffer
  | 13 => return .answered emptyClusterFunctionReadTaskResponse
  | 15 => skips skipParallelReadAnnouncementBuffer
  | 16 => do
    let streamId ← readParallelReadRequestStreamIdBuffer
    return .answered (finishedMergeTreeReadTaskResponse streamId)
  | 17 => skips (do
      let _name ← parseString
      return ())
  | packetType => return .unknown packetType

/-- The packets whose bodies are compressed. -/
def compressedType (packetType : Nat) : Bool :=
  packetType = 1 || packetType = 7 || packetType = 8 || packetType = 11 || packetType = 14

/-- The value a body has been read to, and `into_pending`: what is left of the frames. -/
def withPending {σ α : Type} (body : Read (Inflating σ) α) :
    Read (Inflating σ) (α × Bytes) := do
  let a ← body
  fun z => (.ok (a, z.buf), z)

namespace QueryStream

/-- The end of a turn of `read_next_block`. -/
abbrev StreamTurn := Turn Unit (Option Block)

/-- The position is where the packet starts; more bytes are read. -/
def again : Read QueryStream StreamTurn := do
  fillBuffer
  return .more ()

/-- What a packet asks for. -/
def handle : Packet → Read QueryStream StreamTurn
  | .block b => return .done (some b)
  | .skipped => return .more ()
  | .finished => fun q => (.ok (.done none), { q with done := true })
  | .exception e => fun q => (.error (.error e), { q with done := true })
  | .answered answer => do
    onControl (Control.writeNative answer)
    return .more ()
  | .unknown packetType =>
    fail (.text ("unknown packet type in stream: " ++ toString packetType))

/-- A truncated exception is the one packet that is not waited for at the end of the
    stream: the fill has to bring something. -/
def againException : Read QueryStream StreamTurn := fun q =>
  match fillBuffer q with
  | (.ok (), q') =>
    if q'.bytes.rest.length = q.bytes.rest.length then
      (.error (.error (.text "truncated exception packet in query stream")),
        { q' with done := true })
    else (.ok (.more ()), q')
  | (.error e, q') => (.error e, q')

/-- A packet out of the buffer: what cannot be parsed is waited for.  `q` is the stream at
    the start of the packet, `body` what follows the packet type. -/
def parsed (packetType : Nat) (body : Bytes) : Read QueryStream StreamTurn := fun q =>
  match bufferedPacket q.bytes.cfg packetType body with
  | (.ok packet, rest) => handle packet (q.moved rest)
  | (.error (.error (.protocol _)), _) =>
    if packetType = 2 then againException q else again q
  | (.error e, rest) => (.error e, q.moved rest)

/-- The last two fields of a ProfileInfo packet, from `cursor` on; `q` is the stream at the
    start of the packet. -/
def aggregationFields (q : QueryStream) (cursor : Bytes) :
    Readout StreamTurn × QueryStream :=
  match cursor with
  | [] => again q
  | _ :: cursor =>
    match parseVarint cursor with
    | (.error (.error (.protocol _)), _) => again q
    | (_, rest) => (.ok (.more ()), q.moved rest)

/-- The revision has those fields. -/
def hasAggregationFields (q : QueryStream) : Prop :=
  rowsBeforeAggregation ≤ q.bytes.cfg.reply.rev

instance (q : QueryStream) : Decidable q.hasAggregationFields := by
  unfold hasAggregationFields
  infer_instance

/-- A ProfileInfo packet that ends before one of its two flags.  The position goes back and
    more bytes are read, but `ok` is still set, so the last two fields are read next, where
    the packet starts. -/
def profileInfoCut : Read QueryStream StreamTurn := fun q =>
  match fillBuffer q with
  | (.ok (), q') =>
    if q'.hasAggregationFields then aggregationFields q' q'.bytes.rest else (.ok (.more ()), q')
  | (.error e, q') => (.error e, q')

/-- A ProfileInfo packet; `body` is what follows the packet type. -/
def profileInfo (body : Bytes) : Read QueryStream StreamTurn := fun q =>
  match times 3 skipVarint body with
  | (.error (.error (.protocol _)), _) => again q
  | (_, []) => profileInfoCut q
  | (_, _appliedLimit :: body) =>
    match parseVarint body with
    | (.error (.error (.protocol _)), _) => again q
    | (_, []) => profileInfoCut q
    | (_, _calculatedRowsBeforeLimit :: body) =>
      if q.hasAggregationFields then aggregationFields q body
      else (.ok (.more ()), q.moved body)

/-- The name before the body of a compressed packet.  It is parsed once more after a fill,
    from where the first attempt has stopped. -/
def compressedName : Read QueryStream Unit := fun q =>
  match parseString q.bytes.rest with
  | (.ok _, rest) => (.ok (), q.moved rest)
  | (.error .depth, rest) => (.error .depth, q.moved rest)
  | (.error (.error _), rest) =>
    match fillBuffer (q.moved rest) with
    | (.error e, q') => (.error e, q')
    | (.ok (), q') =>
      match parseString q'.bytes.rest with
      | (.ok _, rest) => (.ok (), q'.moved rest)
      | (.error e, rest) => (.error e, q'.moved rest)

/-- What was left of the frames goes in front of the buffer. -/
def putBack (pending : Bytes) : Read QueryStream Unit := fun q =>
  (.ok (), q.moved (pending ++ q.bytes.rest))

/-- `read_compressed_block`; `read_compressed_tagged_block` is the same. -/
def readCompressedBlock : Read QueryStream Block := fun q => (do
  compressedName
  let out ← onBytes (decompressing q.bytes.cfg.env (withPending (readBlockBody q.bytes.cfg.env.depth)))
  putBack out.2
  return out.1 : Read QueryStream Block) q

/-- `read_compressed_table_columns`. -/
def readCompressedTableColumns : Read QueryStream Unit := fun q =>
  onBytes (decompressing q.bytes.cfg.env readTableColumns) q

/-- A compressed packet; the stream is behind the packet type. -/
def compressedPacket (packetType : Nat) : Read QueryStream StreamTurn :=
  if packetType = 11 then do
    readCompressedTableColumns
    return .more ()
  else do
    let b ← readCompressedBlock
    return if packetType = 1 then .done (some b) else .more ()

/-- One turn of the loop of `read_next_block`. -/
def turn : Read QueryStream StreamTurn := fun q =>
  if q.bytes.rest = [] then again q
  else match parseVarint q.bytes.rest with
    | (.error (.error (.protocol _)), _) => again q
    | (.error e, rest) => (.error e, q.moved rest)
    | (.ok packetType, body) =>
      if q.bytes.cfg.reply.compressed = true ∧ compressedType packetType = true then
        compressedPacket packetType (q.moved body)
      else if packetType = 6 then profileInfo body q
      else parsed packetType body q

/-- `read_next_block`, with the turns its loop may take. -/
def readNextBlock (fuel : Nat) : Read QueryStream (Option Block) := fun q =>
  if q.done then (.ok none, q) else loop (fun _ => turn) fuel () q

end QueryStream

end Sync

end StClickHouse
