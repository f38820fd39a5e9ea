/-
  StClickHouse.Async.RowStream
  **THE BLOCKS BEHIND A ROW CURSOR.**

  `read_query_blocks` (`connection/row_stream_reader.rs`) and the task that runs it for
  `rows`: the blocks that reach the cursor's channel, and the error that ends it, if
  any.  The cursor is there to the end and does not cancel.
-/
import StClickHouse.Async.Response

namespace StClickHouse

open ByteReader RustText

section

variable (env : Env) (lim : Limits) (callbacks : QueryCallbacks)

/-- The Cancel packet; its errors are dropped. -/
def sendCancel : Read Net Unit := do
  ignore (Net.writePacket [3])
  ignore Net.flush

/-- The packet type; past the deadline a Cancel packet is sent and nothing is drained. -/
def rowsHeader : Read Net Nat := do
  let elapsed ← (if lim.deadline then Net.outOfTime else pure false)
  if elapsed then do
    sendCancel
    fail (.timeout "query exceeded deadline")
  else
    match ← within (readVarintAsync (σ := Net)) with
    | some packetType => return packetType
    | none =>
      if lim.deadline then do
        sendCancel
        fail (.timeout "query exceeded deadline")
      else fail (.timeout "receive timeout while streaming query response")

/-- The packets that do not end the response; `sent` are the blocks so far. -/
def rowsBody (packetType : Nat) (sent : List Block) : Read Net (List Block) :=
  match packetType with
  | 1 => do
    let block ← readDataBlockMaybeCompressed env lim.compressed
    return if block.rows > 0 then sent ++ [block] else sent
  | 3 => do
    let progress ← readProgressPacket
    Net.emit callbacks.onProgress (.progress progress)
    return sent
  | 4 => return sent
  | 6 => do
    let _ ← readProfileInfoPacket
    return sent
  | 10 => do
    let _ ← readDataBlock env.depth
    return sent
  | 14 => do
    let _ ← readDataBlockMaybeCompressed env lim.compressed
    return sent
  | 17 => do
    readTimezoneUpdate callbacks
    return sent
  | 12 => do
    readPartUuidsUpdate callbacks
    return sent
  | packetType => do
    if ← handleCoordinatorPacket packetType then return sent
    else
      let e ← unsupportedServerPacket packetType
      fail e

/-- What a cursor receives: the blocks, and the error that ends them. -/
abbrev Received := List Block × Option Error

/-- `read_query_blocks` as a walk. -/
def rowsWalk : PacketWalk (List Block) Received where
  header := rowsHeader lim
  body packetType sent := do
    let sent ← rowsBody env lim callbacks packetType sent
    return .more sent
  lenient := fun _ => false
  finish sent := .ok (sent, none)

/-- One packet: every error goes to the channel, behind the blocks. -/
def rowsTurn (sent : List Block) : Read Net (Turn (List Block) Received) := do
  match ← attempt ((rowsWalk env lim callbacks).turn sent) with
  | .ok t => return t
  | .error e => return .done (sent, some e)

/-- `read_query_blocks`, as the cursor sees it. -/
def readQueryBlocks (fuel : Nat) (sent : List Block) : Read Net Received :=
  loop (rowsTurn env lim callbacks) fuel sent

end

end StClickHouse
