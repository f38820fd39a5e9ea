/-
  StClickHouse.Async.Select
  **THE RESPONSE OF A SELECT.**

  `read_select_response` and its five handlers (`connection/select_response.rs`), and
  the raw block they may capture (`connection/raw_block_reader.rs`).  The conversion of
  a block to rows is the caller's row type, so it is a parameter.
-/
import StClickHouse.Async.Response

namespace StClickHouse

open ByteReader RustText

/-! ## §1. Raw blocks. -/

/-- `RawBlock`. -/
structure RawBlock where
  tableName : Text
  columns : Nat
  rows : Nat
  data : Bytes
  deriving Repr, DecidableEq

section Raw

variable {σ : Type} [ByteStream Error σ] {α : Type}

/-- A recorded read with a given recording and budget; both are handed back. -/
def recordWith (x : Read (Recorded σ) α) (out : Bytes) (budget : Nat) :
    Read σ (α × Bytes × Nat) := fun s =>
  match x ⟨s, out, budget⟩ with
  | (.ok a, r) => (.ok (a, r.out, r.budget), r.stream)
  | (.error e, r) => (.error e, r.stream)

/-- The BlockInfo of a raw block; an unknown field is refused here. -/
def blockInfoRecorded : Nat → Read (Recorded σ) Unit
  | 0 => tooDeep
  | fuel + 1 => do
    let dim ← readVarintRecorded
    if dim = 0 then return ()
    else if dim = 1 then do
      let _ ← readExactRecorded 1
      blockInfoRecorded fuel
    else if dim = 2 then do
      let _ ← readExactRecorded 4
      blockInfoRecorded fuel
    else if dim = 3 then do
      let _ ← readVarintRecorded
      blockInfoRecorded fuel
    else fail (.text ("unknown BlockInfo field " ++ toString dim))

/-- What the column loop of a raw block carries: the recording, the budget of the names
and the budget of the other metadata. -/
structure RawProgress where
  raw : Bytes
  nameBudget : Nat
  metaBudget : Nat

/-- One column of a raw block; its data has a budget of its own. -/
def rawBlockColumn (depth rows : Nat) (p : RawProgress) : Read σ RawProgress := do
  let (_, raw, nameBudget) ← recordWith (readStringRecorded "column name length") p.raw p.nameBudget
  let (typeName, raw, nameBudget) ←
    recordWith (readStringRecorded "column type length") raw nameBudget
  let (_, raw, metaBudget) ← recordWith (readExactRecorded 1) raw p.metaBudget
  if rows > 0 then do
    let (_, raw, _) ← recordWith (readColumnRawRecorded depth typeName rows) raw maxColumnBytes
    return ⟨raw, nameBudget, metaBudget⟩
  else return ⟨raw, nameBudget, metaBudget⟩

/-- `read_raw_data_block`. -/
def readRawDataBlock (depth : Nat) : Read σ RawBlock := do
  let (tableName, _, nameBudget) ←
    recordWith (readStringRecorded "table name length") [] maxColumnBytes
  let (_, raw, metaBudget) ← recordWith (blockInfoRecorded depth) [] maxColumnBytes
  let (columns, raw, metaBudget) ← recordWith readVarintRecorded raw metaBudget
  let columns ← liftExcept (checkedCount columns "block column" maxBlockColumns)
  let (rows, raw, metaBudget) ← recordWith readVarintRecorded raw metaBudget
  let rows ← liftExcept (checkedCount rows "block row" maxBlockRows)
  let p ← iterate (rawBlockColumn depth rows) columns ⟨raw, nameBudget, metaBudget⟩
  return ⟨tableName, columns, rows, p.raw⟩

end Raw

/-! ## §2. Handlers. -/

/-- `ResponseBudget`. -/
structure ResponseBudget where
  limit : Nat
  used : Nat
  deriving Repr, DecidableEq

/-- `charge_block`: a breach reports the total it would have reached. -/
def chargeBlock (budget : ResponseBudget) (bytes : Nat) : Result ResponseBudget :=
  if budget.used + bytes ≥ usizeBound then
    .error (.responseTooLarge budget.limit budget.used)
  else if budget.used + bytes > budget.limit then
    .error (.responseTooLarge budget.limit (budget.used + bytes))
  else .ok { budget with used := budget.used + bytes }

/-- `Block::payload_bytes`. -/
def Block.payloadBytes (block : Block) : Nat := (block.columns.map fun c => c.data.length).sum

/-- `SelectResponseHandler`: what is done with a Data packet, with a Log or ProfileEvents
packet, and at EndOfStream. -/
structure SelectHandler (H R : Type) where
  onData : Env → Bool → H → Read Net H
  onLogPacket : Env → Bool → QueryCallbacks → Nat → Read Net Unit
  finish : H → Result R

/-- `on_log_packet` where a handler does not override it. -/
def onLogPacket (env : Env) (compressed : Bool) (callbacks : QueryCallbacks) (packetType : Nat) :
    Read Net Unit :=
  if packetType = 10 then do
    let block ← readDataBlock env.depth
    Net.emit callbacks.onLog (.log block)
  else do
    let block ← readDataBlockMaybeCompressed env compressed
    Net.emit callbacks.onProfileEvents (.profileEvents block)

/-- The state of `FirstBlockHandler`. -/
structure FirstBlock where
  first : Option Block
  extraBlocks : Bool
  budget : ResponseBudget
  deriving Repr, DecidableEq

/-- `FirstBlockHandler`. -/
def firstBlockHandler : SelectHandler FirstBlock Block where
  onData env compressed h :=
    if h.first.isSome then do
      let rows ← discardDataBlockMaybeCompressed env compressed
      return if rows > 0 then { h with extraBlocks := true } else h
    else do
      let block ← readDataBlockMaybeCompressed env compressed
      if block.rows > 0 then do
        let budget ← liftExcept (chargeBlock h.budget block.payloadBytes)
        return { h with first := some block, budget := budget }
      else return h
  onLogPacket := onLogPacket
  finish h :=
    if h.extraBlocks then
      .error (.text
        "query returned multiple non-empty data blocks; use .blocks() to fetch all of them")
    else match h.first with
      | some block => .ok block
      | none => .error (.text "no data blocks")

/-- `BlocksHandler`. -/
def blocksHandler : SelectHandler (List Block × ResponseBudget) (List Block) where
  onData env compressed h := do
    let block ← readDataBlockMaybeCompressed env compressed
    if block.rows > 0 then do
      let budget ← liftExcept (chargeBlock h.2 block.payloadBytes)
      return (h.1 ++ [block], budget)
    else return h
  onLogPacket := onLogPacket
  finish h := .ok h.1

/-- `AllRowsHandler<T>`; `readAll` is `row::read_all::<T>`. -/
def allRowsHandler {T : Type} (readAll : Block → Result (List T)) :
    SelectHandler (List T × ResponseBudget) (List T) where
  onData env compressed h := do
    let block ← readDataBlockMaybeCompressed env compressed
    if block.rows > 0 then do
      let budget ← liftExcept (chargeBlock h.2 block.payloadBytes)
      let rows ← liftExcept (readAll block)
      return (h.1 ++ rows, budget)
    else return h
  onLogPacket := onLogPacket
  finish h := .ok h.1

/-- `RowCountHandler`: nothing is materialized, a ProfileEvents block only for its
callback. -/
def rowCountHandler : SelectHandler Nat Nat where
  onData env compressed h := do
    let rows ← discardDataBlockMaybeCompressed env compressed
    if h + rows ≥ usizeBound then fail (.protocol (.overflow "row count")) else return h + rows
  onLogPacket env compressed callbacks packetType :=
    if packetType = 10 then do
      let block ← readDataBlock env.depth
      Net.emit callbacks.onLog (.log block)
    else if callbacks.onProfileEvents then do
      let block ← readDataBlockMaybeCompressed env compressed
      Net.emit callbacks.onProfileEvents (.profileEvents block)
    else do
      let _ ← discardDataBlockMaybeCompressed env compressed
      return ()
  finish h := .ok h

/-- `RawBlocksHandler`: it does not look at the compression flag. -/
def rawBlocksHandler : SelectHandler (List RawBlock × ResponseBudget) (List RawBlock) where
  onData env _compressed h := do
    let block ← readRawDataBlock env.depth
    if block.rows > 0 then do
      let budget ← liftExcept (chargeBlock h.2 block.data.length)
      return (h.1 ++ [block], budget)
    else return h
  onLogPacket env _compressed callbacks _packetType := do
    let block ← readDataBlock env.depth
    Net.emit callbacks.onLog (.log block)
    Net.emit callbacks.onProfileEvents (.profileEvents block)
  finish h := .ok h.1

/-! ## §3. The loop. -/

section Loop

variable {H R : Type} (env : Env) (lim : Limits) (callbacks : QueryCallbacks)
  (handler : SelectHandler H R)

/-- The packets that do not end the response. -/
def selectBody (packetType : Nat) (h : H) : Read Net H :=
  match packetType with
  | 1 => handler.onData env lim.compressed h
  | 3 => do
    let progress ← readProgressPacket
    Net.emit callbacks.onProgress (.progress progress)
    return h
  | 4 => return h
  | 6 => do
    let profile ← readProfileInfoPacket
    Net.emit callbacks.onProfile (.profile profile)
    return h
  | 10 | 14 => do
    handler.onLogPacket env lim.compressed callbacks packetType
    return h
  | 17 => do
    readTimezoneUpdate callbacks
    return h
  | 12 => do
    readPartUuidsUpdate callbacks
    return h
  | packetType => do
    if ← handleCoordinatorPacket packetType then return h
    else
      let e ← unsupportedServerPacket packetType
      fail e

/-- One packet of `read_select_response`. -/
def selectTurn (h : H) : Read Net (Turn H R) := do
  match ← readPacketType env lim "receive timeout while reading query response" with
  | 5 => do
    let r ← liftExcept (handler.finish h)
    return .done r
  | 2 => do
    let e ← readException
    fail e
  | packetType => do
    let h ← selectBody env lim callbacks handler packetType h
    return .more h

/-- `read_select_response`. -/
def readSelectResponse (fuel : Nat) (h : H) : Read Net R :=
  loop (selectTurn env lim callbacks handler) fuel h

end Loop

end StClickHouse
