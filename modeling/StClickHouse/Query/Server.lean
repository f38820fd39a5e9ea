/-
  StClickHouse.Query.Server
  **THE PACKET AS THE SERVER READS IT.**

  The server is not part of the crate, so this module says what is expected of it: it
  reads the fields of a query packet in the order of the protocol, takes the Data
  packets under the compression flag it has just read, and stops at an empty block.
  What it does with the data of a column is a parameter.
-/
import StClickHouse.Query.Packet
import StClickHouse.Wire.Framed
import StClickHouse.Wire.Varint

namespace StClickHouse

open ByteReader RustText List

/-! ## §1. Quoted values. -/

/-- The character an escape stands for. -/
def escapeChar (e : UInt8) : UInt8 :=
  if e = 0x74 then 0x09 else if e = 0x6E then 0x0A else if e = 0x72 then 0x0D
  else if e = 0x62 then 0x08 else if e = 0x66 then 0x0C else if e = 0x30 then 0x00 else e

/-- The byte that two hexadecimal digits stand for. -/
def hexByteOf (high low : UInt8) : UInt8 :=
  UInt8.ofNat (fromHexDigit high.toNat * 16 + fromHexDigit low.toNat)

/-- A quoted string, from behind its opening quote to its closing one. -/
def readQuoted : Bytes → Option Bytes
  | [] => none
  | b :: rest =>
    if b = 0x27 then (if rest.isEmpty then some [] else none)
    else if b = 0x5C then
      match rest with
      | [] => none
      | e :: rest =>
        if e = 0x78 then
          match rest with
          | high :: low :: rest => (hexByteOf high low :: ·) <$> readQuoted rest
          | _ => none
        else (escapeChar e :: ·) <$> readQuoted rest
    else (b :: ·) <$> readQuoted rest

/-- A text field: a backslash escapes the next character. -/
def readEscaped : Bytes → Bytes
  | [] => []
  | b :: rest =>
    if b = 0x5C then
      match rest with
      | [] => []
      | e :: rest => escapeChar e :: readEscaped rest
    else b :: readEscaped rest

/-- The value of a parameter: a quoted text field, where `\N` is NULL. -/
def unquote : Bytes → Option (Option Bytes)
  | [] => none
  | q :: rest =>
    if q = 0x27 then
      (fun text => if text = [0x5C, 0x4E] then none else some (readEscaped text)) <$>
        readQuoted rest
    else none

/-- What is left of a quoted byte once the quoting is undone. -/
def escapeByte (b : UInt8) : Bytes :=
  if b = 0x09 then [0x5C, 0x09] else if b = 0x0A then [0x5C, 0x0A]
  else if b = 0x5C then [0x5C, 0x5C] else [b]

theorem readQuoted_plain {b : UInt8} (hquote : b ≠ 0x27) (hslash : b ≠ 0x5C) (rest : Bytes) :
    readQuoted (b :: rest) = (b :: ·) <$> readQuoted rest := by
  rw [readQuoted.eq_def]
  dsimp only
  rw [if_neg hquote, if_neg hslash]

theorem readQuoted_escape {e : UInt8} (he : e ≠ 0x78) (rest : Bytes) :
    readQuoted (0x5C :: e :: rest) = (escapeChar e :: ·) <$> readQuoted rest := by
  rw [readQuoted.eq_def]
  dsimp only
  rw [if_neg (by decide), if_pos rfl, if_neg he]

theorem readQuoted_hex (high low : UInt8) (rest : Bytes) :
    readQuoted (0x5C :: 0x78 :: high :: low :: rest)
      = (hexByteOf high low :: ·) <$> readQuoted rest := by
  rw [readQuoted.eq_def]
  dsimp only
  rw [if_neg (by decide), if_pos rfl, if_pos rfl]

theorem readQuoted_quoteByte (b : UInt8) (rest : Bytes) :
    readQuoted (quoteByte b ++ rest) = (escapeByte b ++ ·) <$> readQuoted rest := by
  -- a byte in hexadecimal, a byte escaped twice, or a byte as it stands
  have hhex : ∀ high low : UInt8, hexByteOf high low = b ∧
      quoteByte b = [0x5C, 0x78, high, low] ∧ escapeByte b = [b] →
      readQuoted (quoteByte b ++ rest) = (escapeByte b ++ ·) <$> readQuoted rest := by
    intro high low ⟨hb, hquote, hescape⟩
    rw [hquote, hescape]
    show readQuoted (0x5C :: 0x78 :: high :: low :: rest) = _
    rw [readQuoted_hex, hb]
    rfl
  have htwice : ∀ e : UInt8, e ≠ 0x78 → escapeChar e = b ∧
      quoteByte b = [0x5C, 0x5C, 0x5C, e] ∧ escapeByte b = [0x5C, b] →
      readQuoted (quoteByte b ++ rest) = (escapeByte b ++ ·) <$> readQuoted rest := by
    intro e he ⟨hb, hquote, hescape⟩
    rw [hquote, hescape]
    show readQuoted (0x5C :: 0x5C :: 0x5C :: e :: rest) = _
    rw [readQuoted_escape (by decide), readQuoted_escape he, hb]
    cases readQuoted rest <;> rfl
  by_cases h0 : b = 0
  · exact hhex 0x30 0x30 (by rw [h0]; decide)
  by_cases h8 : b = 8
  · exact hhex 0x30 0x38 (by rw [h8]; decide)
  by_cases h9 : b = 0x09
  · exact htwice 0x74 (by decide) (by rw [h9]; decide)
  by_cases h10 : b = 0x0A
  · exact htwice 0x6E (by decide) (by rw [h10]; decide)
  by_cases h27 : b = 0x27
  · exact hhex 0x32 0x37 (by rw [h27]; decide)
  by_cases h5C : b = 0x5C
  · exact htwice 0x5C (by decide) (by rw [h5C]; decide)
  unfold quoteByte escapeByte
  rw [if_neg h0, if_neg h8, if_neg h9, if_neg h10, if_neg h27, if_neg h5C, if_neg h9, if_neg h10,
    if_neg h5C, singleton_append, readQuoted_plain h27 h5C]
  rfl

variable (value : Bytes)

theorem readQuoted_quote :
    readQuoted (value.flatMap quoteByte ++ [0x27]) = some (value.flatMap escapeByte) := by
  induction value with
  | nil => rfl
  | cons b value ih =>
    rw [flatMap_cons, append_assoc, readQuoted_quoteByte, ih]
    rfl

theorem readEscaped_escape :
    readEscaped (value.flatMap escapeByte) = value := by
  induction value with
  | nil => rfl
  | cons b value ih =>
    have htwice : escapeByte b = [0x5C, b] → escapeChar b = b →
        readEscaped ((b :: value).flatMap escapeByte) = b :: value := by
      intro hescape hb
      rw [flatMap_cons, hescape]
      show escapeChar b :: readEscaped (value.flatMap escapeByte) = _
      rw [hb, ih]
    by_cases h9 : b = 0x09
    · exact htwice (by rw [h9]; decide) (by rw [h9]; decide)
    by_cases h10 : b = 0x0A
    · exact htwice (by rw [h10]; decide) (by rw [h10]; decide)
    by_cases h5C : b = 0x5C
    · exact htwice (by rw [h5C]; decide) (by rw [h5C]; decide)
    have hplain : escapeByte b = [b] := by
      unfold escapeByte
      rw [if_neg h9, if_neg h10, if_neg h5C]
    rw [flatMap_cons, hplain, singleton_append, readEscaped.eq_def]
    dsimp only
    rw [if_neg h5C, ih]

theorem escape_ne_null : value.flatMap escapeByte ≠ [0x5C, 0x4E] := by
  intro heq
  have hvalue := congrArg readEscaped heq
  rw [readEscaped_escape] at hvalue
  rw [hvalue] at heq
  exact absurd heq (by decide)

/-- **A quoted value is read back.** -/
theorem unquote_quote :
    unquote ([0x27] ++ value.flatMap quoteByte ++ [0x27]) = some (some value) := by
  show unquote (0x27 :: (value.flatMap quoteByte ++ [0x27])) = _
  rw [unquote, if_pos rfl, readQuoted_quote]
  show some (if value.flatMap escapeByte = [0x5C, 0x4E] then none
    else some (readEscaped (value.flatMap escapeByte))) = _
  rw [if_neg (escape_ne_null value), readEscaped_escape]

theorem length_quote :
    ([0x27] ++ value.flatMap quoteByte ++ [0x27] : Bytes).length = quotedLen value := by
  have hbyte : ∀ b : UInt8, (quoteByte b).length
      = if b = 0 ∨ b = 8 ∨ b = 0x09 ∨ b = 0x0A ∨ b = 0x27 ∨ b = 0x5C then 4 else 1 := by
    intro b
    unfold quoteByte
    split_ifs <;> simp_all
  unfold quotedLen
  simp only [length_append, length_flatMap, hbyte, length_singleton]
  omega

/-! ## §2. The reading of a packet. -/

/-- A column as the server has it. -/
structure WireColumn where
  name : Bytes
  typeName : Bytes
  data : Bytes
  deriving Repr, DecidableEq

/-- An external table as the server has it. -/
structure WireTable where
  name : Bytes
  columns : List WireColumn
  rows : Nat
  deriving Repr, DecidableEq

/-- A query as the server has it. -/
structure WireQuery where
  sql : Bytes
  params : List (Bytes × Option Bytes)
  tables : List WireTable
  deriving Repr, DecidableEq

/-- A server: its compressors, and its reader of the data of a column, by type name and
row count. -/
structure Server where
  codec : Codec
  readColumn : Bytes → Nat → Read Bytes Bytes

namespace Server

/-- A string is bytes. -/
def string : Read Bytes Bytes := do
  let len ← readVarint
  readExact len

/-- A setting; an empty name ends the settings. -/
def setting : Read Bytes (Option (Bytes × Bytes)) := do
  let name ← string
  if name = [] then return none
  else do
    let _flags ← readVarint
    let value ← string
    return some (name, value)

/-- A parameter; an empty name ends the parameters. -/
def parameter : Read Bytes (Option (Bytes × Option Bytes)) := do
  let name ← string
  if name = [] then return none
  else do
    let _flags ← readVarint
    let quoted ← string
    match unquote quoted with
    | some value => return some (name, value)
    | none => fail (.text "cannot parse quoted string")

/-- A field that is there from a revision on. -/
def since (rev gate : Nat) (field : Read Bytes Unit) :
    Read Bytes Unit :=
  if gate ≤ rev then field else return ()

/-- Read and forget. -/
def skip {α : Type} (x : Read Bytes α) : Read Bytes Unit := do
  let _ ← x
  return ()

/-- The client info of the initial query. -/
def clientInfo (rev : Nat) : Read Bytes Unit := do
  skip readVarint
  skip string
  skip string
  skip string
  since rev Revision.initialQueryStartTime (skip (readExact 8))
  skip readByte
  skip string
  skip string
  skip string
  skip readVarint
  skip readVarint
  skip readVarint
  since rev Revision.quotaKeyInClientInfo (skip string)
  since rev Revision.distributedDepth (skip readVarint)
  since rev Revision.versionPatch (skip readVarint)
  since rev Revision.openTelemetry (skip readByte)
  since rev Revision.parallelReplicas (do skip readVarint; skip readVarint; skip readVarint)
  since rev Revision.queryAndLineNumbers (do skip readVarint; skip readVarint)
  since rev Revision.jwtInInterserver (skip readByte)

variable (server : Server)

/-- A column of a block. -/
def column (rows : Nat) : Read Bytes WireColumn := do
  let name ← string
  let typeName ← string
  skip readByte
  let data ← server.readColumn typeName rows
  return ⟨name, typeName, data⟩

/-- A block: its BlockInfo, its counts and its columns. -/
def block (fuel : Nat) : Read Bytes (List WireColumn × Nat) := do
  blockInfoLoop readVarint readExact fuel
  let columns ← readVarint
  let rows ← readVarint
  let columns ← collect (fun _ => server.column rows) (List.replicate columns ())
  return (columns, rows)

/-- A block in a frame, which it fills. -/
def framedBlock (fuel : Nat) (payload : Bytes) :
    Read Bytes (List WireColumn × Nat) :=
  match server.block fuel payload with
  | (.ok block, []) => return block
  | (.ok _, _ :: _) => fail (.compression "frame not read to its end")
  | (.error (.error e), _) => fail e
  | (.error .depth, _) => tooDeep

/-- A Data packet, under the compression flag of the query; an empty block ends the
external tables. -/
def table (fuel flag : Nat) : Read Bytes (Option WireTable) := do
  let code ← readVarint
  if code ≠ 2 then fail (.text "unexpected packet")
  else do
    let name ← string
    let (columns, rows) ←
      if flag = 1 then (decodeFrame server.codec >>= server.framedBlock fuel)
      else server.block fuel
    return if columns = [] ∧ rows = 0 then none else some ⟨name, columns, rows⟩

/-- What stands before the compression flag. -/
def head (rev fuel : Nat) : Read Bytes Unit := do
  skip readVarint
  skip string
  since rev Revision.clientInfo (clientInfo rev)
  skip (readUntil setting fuel)
  since rev Revision.externallyGrantedRoles (skip string)
  since rev Revision.interserverSecret (skip string)
  skip readVarint

/-- The parameters of a query. -/
def parameters (rev fuel : Nat) : Read Bytes (List (Bytes × Option Bytes)) :=
  if Revision.parameters ≤ rev then readUntil parameter fuel else return []

/-- A query packet. -/
def query (rev fuel : Nat) : Read Bytes WireQuery := do
  head rev fuel
  let flag ← readVarint
  let sql ← string
  let params ← parameters rev fuel
  let tables ← readUntil (server.table fuel flag) fuel
  return ⟨sql, params, tables⟩

/-- **The reading of a whole packet.**  No loop takes more turns than the packet has
bytes. -/
def decode (rev : Nat) (packet : Bytes) : Readout WireQuery × Bytes :=
  server.query rev (packet.length + 1) packet

end Server

end StClickHouse
