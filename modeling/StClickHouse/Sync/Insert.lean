/-
  StClickHouse.Sync.Insert
  **AN INSERT OF THE SYNC CLIENT.**

  `begin_insert`, `send_data` and `end_insert` (`sync/client.rs`) share one connection with
  everything else the client does.  `send_data` checks the block against the schema of the
  table first, and a schema that is not in the cache is fetched by a query.

      only_data_travels  — so between `begin_insert` and the terminator there is only data
      describe_travels   — a `send_data` that does need one
-/
import StClickHouse.Async.InsertSession
import StClickHouse.Column.Context
import StClickHouse.Query.QueryId
import StClickHouse.Sync.Client

namespace StClickHouse

open ByteReader RustText List

namespace Sync

/-! ## §1. Table names. -/

/-- The character identifiers are quoted with. -/
def backquote : Char := '\x60'

/-- `split_identifier_path`, with the characters still to come. -/
def splitIdentifierPath (path : Text) (parts : List Text) (part : Text) (quoted : Bool) :
    Text → Result (List Text)
  | [] =>
    if quoted then
      .error (.text ("unterminated quoted identifier in '" ++ String.ofList path ++ "'"))
    else if trim part = [] then
      .error (.text ("invalid table name '" ++ String.ofList path ++ "'"))
    else .ok (parts ++ [trim part])
  | [ch] =>
    if ch = backquote then splitIdentifierPath path parts part (!quoted) []
    else if ch = '.' ∧ quoted = false then
      if trim part = [] then
        .error (.text ("invalid table name '" ++ String.ofList path ++ "'"))
      else splitIdentifierPath path (parts ++ [trim part]) [] quoted []
    else splitIdentifierPath path parts (part ++ [ch]) quoted []
  | ch :: next :: chars =>
    if ch = backquote then
      -- a doubled quote within quotes stands for itself
      if quoted = true ∧ next = backquote then
        splitIdentifierPath path parts (part ++ [backquote]) quoted chars
      else splitIdentifierPath path parts part (!quoted) (next :: chars)
    else if ch = '.' ∧ quoted = false then
      if trim part = [] then
        .error (.text ("invalid table name '" ++ String.ofList path ++ "'"))
      else splitIdentifierPath path (parts ++ [trim part]) [] quoted (next :: chars)
    else splitIdentifierPath path parts (part ++ [ch]) quoted (next :: chars)

/-- `quote_identifier`. -/
def quoteIdentifier (identifier : Text) : Text :=
  [backquote] ++ identifier.flatMap (fun ch => if ch = backquote then [ch, ch] else [ch])
    ++ [backquote]

/-- `quote_identifier_path`. -/
def quoteIdentifierPath (path : Text) : Result Text := do
  let parts ← splitIdentifierPath path [] [] false (trim path)
  if parts = [] then .error (.text "empty table name")
  else return List.intercalate ['.'] (parts.map quoteIdentifier)

/-! ## §2. Query packets. -/

/-- The configuration of a client; the fields of `calls` are those its calls use. -/
structure ClientConfig where
  calls : Config
  settings : Settings
  compression : Option CompressionMethod
  validateSchema : Bool
  initialUser : Text
  initialAddress : Text
  osUser : Text
  clientHostname : Text
  clientName : Text
  clientVersionMajor : Nat
  clientVersionMinor : Nat
  clientVersionPatch : Nat
  quotaKey : Text
  replies : calls.reply.compressed = compression.isSome

namespace ClientConfig

/-- `negotiated_revision`. -/
def rev (cfg : ClientConfig) : Nat := cfg.calls.reply.rev

def codec (cfg : ClientConfig) : Codec := cfg.calls.env.codec

/-- `build_client_info_template`. -/
def clientInfoTemplate (cfg : ClientConfig) : ClientInfoTemplate where
  beforeInitialQueryId := [1] ++ writeString cfg.initialUser
  afterInitialQueryId :=
    writeString cfg.initialAddress
      ++ since cfg.rev Revision.initialQueryStartTime (leBytes 8 0)
      ++ [1] ++ writeString cfg.osUser ++ writeString cfg.clientHostname
      ++ writeString cfg.clientName
      ++ encodeVarint cfg.clientVersionMajor ++ encodeVarint cfg.clientVersionMinor
      ++ encodeVarint cfg.rev
      ++ since cfg.rev Revision.quotaKeyInClientInfo (writeString cfg.quotaKey)
      ++ since cfg.rev Revision.distributedDepth (encodeVarint 0)
      ++ since cfg.rev Revision.versionPatch (encodeVarint cfg.clientVersionPatch)
      ++ since cfg.rev Revision.openTelemetry [0]
      ++ since cfg.rev Revision.parallelReplicas
          (encodeVarint 0 ++ encodeVarint 0 ++ encodeVarint 0)
      ++ since cfg.rev Revision.queryAndLineNumbers (encodeVarint 0 ++ encodeVarint 0)
      ++ since cfg.rev Revision.jwtInInterserver [0]

/-- `write_empty_data_block_for`, with the compression of the client. -/
def emptyDataBlock (cfg : ClientConfig) : Bytes := writeEmptyDataFor cfg.codec cfg.compression

end ClientConfig

/-- The settings of `write_serialized_settings_overlay`, in the order they are written. -/
def overlaidSettings (base overlay : Settings) (rev : Nat) : List (Text × Text) :=
  (if Revision.sparseSerialization ≤ rev
      ∧ ¬ base.containsKey ratioOfDefaultsForSparseSerialization
      ∧ ¬ overlay.containsKey ratioOfDefaultsForSparseSerialization then
    [(ratioOfDefaultsForSparseSerialization, ['1'])] else [])
  ++ (if ¬ base.containsKey outputFormatNativeWriteJsonAsString
      ∧ ¬ overlay.containsKey outputFormatNativeWriteJsonAsString then
    [(outputFormatNativeWriteJsonAsString, ['1'])] else [])
  ++ (base.entries.filter fun entry => !overlay.containsKey entry.1) ++ overlay.entries

/-- `write_serialized_settings_overlay`. -/
def writeSerializedSettingsOverlay (base overlay : Settings) (rev : Nat) : Bytes :=
  (overlaidSettings base overlay rev).flatMap writeSetting ++ writeString []

/-- `HashMap::new`. -/
def noSettings : Settings := ⟨[], nodup_nil⟩

/-- `QueryPacketTemplate`. -/
structure QueryPacketTemplate where
  /-- The packet type, `prefix` in the source. -/
  head : Bytes
  clientInfo : Option ClientInfoTemplate
  beforeQuery : Bytes
  /-- How much of `beforeQuery` is the settings block. -/
  settingsLen : Nat
  selectSuffix : Bytes
  insertSuffix : Bytes

variable (cfg : ClientConfig)

/-- The compression flag of a client. -/
def ClientConfig.flag : Nat := if cfg.compression.isSome then 1 else 0

/-- What stands between the settings and the query. -/
def ClientConfig.afterSettings : Bytes :=
  since cfg.rev Revision.externallyGrantedRoles (writeString [])
    ++ since cfg.rev Revision.interserverSecret (writeString [])
    ++ encodeVarint 2 ++ encodeVarint cfg.flag

/-- `build_query_packet_template`. -/
def buildQueryPacketTemplate : QueryPacketTemplate where
  head := encodeVarint 1
  clientInfo := if Revision.clientInfo ≤ cfg.rev then some cfg.clientInfoTemplate else none
  beforeQuery := writeSerializedSettingsOverlay cfg.settings noSettings cfg.rev ++ cfg.afterSettings
  settingsLen := (writeSerializedSettingsOverlay cfg.settings noSettings cfg.rev).length
  selectSuffix := since cfg.rev Revision.parameters (writeString []) ++ cfg.emptyDataBlock
  insertSuffix := since cfg.rev Revision.parameters (writeString [])

/-- The part of a client that its query packets depend on.  `refresh_query_template` runs
    after every change, so the template is always the one of the configuration. -/
structure PacketBuilder where
  config : ClientConfig
  queryTemplate : QueryPacketTemplate
  refreshed : queryTemplate = buildQueryPacketTemplate config

/-- A query to build a packet for; `settings` is the overlay. -/
structure QueryRequest where
  queryId : Bytes
  query : Text
  includeEmptyBlock : Bool
  params : List QueryParameter
  settings : Settings

namespace PacketBuilder

/-- A client that has connected. -/
def connect (cfg : ClientConfig) : PacketBuilder := ⟨cfg, buildQueryPacketTemplate cfg, rfl⟩

/-- `build_query_packet_inner`. -/
def buildQueryPacketInner (b : PacketBuilder) (r : QueryRequest) : Bytes :=
  b.queryTemplate.head ++ writeStringBytes r.queryId
    ++ (match b.queryTemplate.clientInfo with
      | some info => info.beforeInitialQueryId ++ writeStringBytes r.queryId
          ++ info.afterInitialQueryId
      | none => [])
    ++ (if r.settings.entries.isEmpty then b.queryTemplate.beforeQuery
      else writeSerializedSettingsOverlay b.config.settings r.settings b.config.rev
        ++ b.queryTemplate.beforeQuery.drop b.queryTemplate.settingsLen)
    ++ writeString r.query
    ++ (if r.params.isEmpty && r.includeEmptyBlock then b.queryTemplate.selectSuffix
      else if r.params.isEmpty then b.queryTemplate.insertSuffix
      else (if b.config.rev < Revision.parameters then writeString []
          else writeQueryParameters r.params)
        ++ if r.includeEmptyBlock then b.config.emptyDataBlock else [])

end PacketBuilder

/-- `build_query_packet`. -/
def ClientConfig.buildQueryPacket (queryId : Bytes) (query : Text) : Bytes :=
  (PacketBuilder.connect cfg).buildQueryPacketInner ⟨queryId, query, true, [], noSettings⟩

/-! ## §3. The client. -/

/-- A client.  The process and the count its next queries find are data, because the count
    is shared by all clients of a process. -/
structure SyncClient where
  transport : Transport
  schemaCache : List (Text × TableSchema)
  tickets : List (Nat × Nat)
  deriving DecidableEq

namespace SyncClient

/-- The bytes the transport has taken so far. -/
def written (c : SyncClient) : Bytes := c.transport.control.outlet.written

/-- Use the connection. -/
def onTransport {α : Type} (x : Read Transport α) : Read SyncClient α := fun c =>
  match x c.transport with
  | (res, t) => (res, { c with transport := t })

/-- Write. -/
def onControl {α : Type} (x : Read Control α) : Read SyncClient α :=
  onTransport (Transport.onControl x)

/-- `next_query_id`, for a process and a count. -/
def queryIdOf (ticket : Nat × Nat) : Bytes :=
  QueryId.nextQueryIdWithPrefix QueryId.Counter.standard.text ticket.1 ticket.2

/-- `next_query_id`. -/
def nextQueryId : Read SyncClient Bytes := fun c =>
  (.ok (queryIdOf (c.tickets.headD (0, 0))),
    { c with tickets := c.tickets.tail })

/-- The blocks a call has returned. -/
def blocksOf : Value → List Block
  | .blocks blocks => blocks
  | _ => []

variable (cfg : ClientConfig)

/-- `query`. -/
def query (sql : Text) : Read SyncClient (List Block) := do
  let queryId ← nextQueryId
  let value ← onTransport (Call.run cfg.calls (.query none (cfg.buildQueryPacket queryId sql)))
  return blocksOf value

/-- `Block::column::<String>`; the columns of DESCRIBE are Strings. -/
def stringColumn (block : Block) (name : String) : Readout StringColumnData :=
  match block.columns.find? (fun col => col.name == name.toList) with
  | none => .error (.error (.text ("column '" ++ name ++ "' not found")))
  | some info => (readStringColumn ⟨block.rows, 0, info.data⟩).1

/-- The columns one block of DESCRIBE describes. -/
def describedColumns (block : Block) : Readout (List TableColumn) := do
  let names ← stringColumn block "name"
  let types ← stringColumn block "type"
  (List.range block.rows).mapM fun row => do
    return ⟨← names.getString row, ← types.getString row⟩

/-- `fetch_schema_for_table`. -/
def fetchSchemaForTable (table : Text) : Read SyncClient TableSchema :=
  match quoteIdentifierPath table with
  | .error e => fail e
  | .ok quoted => do
    let blocks ← query cfg ("DESCRIBE TABLE ".toList ++ quoted)
    fun c =>
      match blocks.mapM describedColumns with
      | .ok columns => (.ok ⟨columns.flatten⟩, c)
      | .error e => (.error e, c)

/-- `schema_cache.insert`. -/
def cacheSchema (table : Text) (schema : TableSchema) : Read SyncClient Unit := fun c =>
  (.ok (), { c with
    schemaCache := (table, schema) :: c.schemaCache.filter fun entry => entry.1 ≠ table })

/-- `schema_for_table`. -/
def schemaForTable (table : Text) : Read SyncClient TableSchema :=
  fun c =>
    match c.schemaCache.lookup table with
    | some schema => (.ok schema, c)
    | none => (do
        let schema ← fetchSchemaForTable cfg table
        cacheSchema table schema
        return schema : Read SyncClient TableSchema) c

/-- `validate_insert_block`. -/
def validateInsertBlock (table : Text) (block : Block) : Read SyncClient Unit :=
  if cfg.validateSchema = false ∨ table = [] then return ()
  else do
    let schema ← schemaForTable cfg table
    match schema.validateInsertBlock table block with
    | .ok () => return ()
    | .error e => fail e

/-- `begin_insert`. -/
def beginInsert (sql : Text) : Read SyncClient Unit := do
  let queryId ← nextQueryId
  let _done ← onTransport
    (Call.run cfg.calls (.beginInsert (cfg.buildQueryPacket queryId sql)))
  return ()

end SyncClient

/-- The slices of `send_data_vectored`. -/
def vectoredSlices (table : Text) (block : Block) : List Bytes :=
  (encodeVarint 2 ++ writeString table ++ encodeVarint 1 ++ [0] ++ encodeVarint 2
      ++ [0xFF, 0xFF, 0xFF, 0xFF] ++ encodeVarint 0 ++ encodeVarint block.columns.length
      ++ encodeVarint block.rows)
    :: block.columns.flatMap fun col =>
        [writeString col.name ++ writeString col.typeName ++ [0]]
          ++ if col.data.isEmpty then [] else [col.data]

/-- The writes of `send_data_vectored`; `write_all_vectored` writes its slices one behind
    the other. -/
def vectoredParts (chunked : Bool) (slices : List Bytes) :
    Result (List Bytes) :=
  if chunked then
    let len := (slices.map List.length).sum
    if len ≥ 2 ^ 32 then
      .error (.text ("chunked packet too large: " ++ toString len ++ " bytes"))
    else .ok [leBytes 4 len, slices.flatten, leBytes 4 0]
  else .ok [slices.flatten]

namespace SyncClient

/-- The writes of a Data packet. -/
def dataParts (cfg : ClientConfig) (chunked : Bool) (table : Text) (block : Block) :
    Result (List Bytes) :=
  match cfg.compression with
  | some method => do
    packetParts chunked (← writeDataPacketCompressed cfg.codec table block method)
  | none => vectoredParts chunked (vectoredSlices table block)

/-- The writes of a packet, if it could be built. -/
def writeData (cfg : ClientConfig) (table : Text) (block : Block) : Read Control Unit :=
  fun c =>
    match dataParts cfg c.chunkedSend table block with
    | .ok parts => Control.write parts c
    | .error e => (.error (.error e), c)

/-- `send_data`. -/
def sendData (cfg : ClientConfig) (table : Text) (block : Block) : Read SyncClient Unit := do
  validateInsertBlock cfg table block
  onControl (do
    writeData cfg table block
    Control.flush)

/-- The first half of `end_insert`: the terminator. -/
def writeTerminator (cfg : ClientConfig) : Read SyncClient Unit :=
  onControl (Control.writeNative cfg.emptyDataBlock)

/-- `end_insert`. -/
def endInsert (cfg : ClientConfig) : Read SyncClient Unit := do
  writeTerminator cfg
  let _done ← onTransport (Call.receive cfg.calls (.endInsert cfg.emptyDataBlock))
  return ()

end SyncClient

/-! ## §4. What a `send_data` writes. -/

/-- The Data packet of a block, as it stands in the stream. -/
def dataPacketOf (table : Text) (block : Block) : Result Bytes :=
  match cfg.compression with
  | some method => writeDataPacketCompressed cfg.codec table block method
  | none => .ok (writeDataPacket table block)

theorem vectoredSlices_flatten (table : Text) (block : Block) :
    (vectoredSlices table block).flatten = writeDataPacket table block := by
  have hcols : ∀ cols : List ColumnInfo,
      (cols.flatMap fun col => [writeString col.name ++ writeString col.typeName ++ [0]]
          ++ if col.data.isEmpty then [] else [col.data]).flatten = cols.flatMap writeColumnInfo := by
    intro cols
    induction cols with
    | nil => rfl
    | cons col cols ih =>
      rw [flatMap_cons, flatten_append, ih, flatMap_cons]
      congr 1
      unfold writeColumnInfo
      by_cases hdata : col.data = [] <;> simp [hdata]
  unfold vectoredSlices
  rw [flatten_cons, hcols]
  unfold writeDataPacket writeBlock blockInfoBytes
  simp only [append_assoc]

theorem vectoredParts_eq (chunked : Bool) (slices : List Bytes) :
    vectoredParts chunked slices = packetParts chunked slices.flatten := by
  unfold vectoredParts packetParts
  rw [length_flatten]

theorem dataParts_eq (chunked : Bool) (table : Text) (block : Block) :
    SyncClient.dataParts cfg chunked table block
      = dataPacketOf cfg table block >>= packetParts chunked := by
  unfold SyncClient.dataParts dataPacketOf
  cases cfg.compression with
  | some method => rfl
  | none =>
    rw [vectoredParts_eq, vectoredSlices_flatten]
    rfl

/-- A packet on the wire, with its framing. -/
def onWire (chunked : Bool) (packet : Result Bytes) : Bytes :=
  match packet >>= packetParts chunked with
  | .ok parts => parts.flatten
  | .error _ => []

/-- What a write leaves of a connection: more bytes have been taken, some of those it was
    given and all of them where it succeeds. -/
theorem Control.write_taken (parts : List Bytes) (c : Control) :
    ∃ o taken, (Control.write parts c).2 = { c with outlet := o } ∧
      o.written = c.outlet.written ++ taken ∧
      ((Control.write parts c).1 = .ok () → taken = parts.flatten) := by
  unfold Control.write
  by_cases hshut : c.shut = true
  · rw [if_pos hshut]
    exact ⟨c.outlet, [], rfl, (append_nil _).symm, nofun⟩
  rw [if_neg hshut]
  obtain ⟨taken, hwritten, _, hall⟩ := @Outlet.writeParts_taken false parts c.outlet
  rcases hout : c.outlet.writeParts false parts with ⟨out, o⟩
  rw [hout] at hwritten hall
  cases out with
  | ok => exact ⟨o, taken, rfl, hwritten, fun _ => hall rfl⟩
  | error e | dropped => exact ⟨o, taken, rfl, hwritten, nofun⟩

/-- Nothing of a packet is torn: no write is made, or all the writes and the flush behind
    them are taken, or the first write is refused without a byte. -/
def Untorn (c : Control) (parts : List Bytes) : Prop :=
  c.shut = true ∨ c.outlet.takes false (parts.length + 1) = true ∨ c.outlet.refuses false = true

instance (c : Control) (parts : List Bytes) : Decidable (Untorn c parts) := by
  unfold Untorn
  infer_instance

/-- The writes of a packet and the flush. -/
def put (parts : List Bytes) : Read Control Unit := do
  Control.write parts
  Control.flush

/-- **A packet that is not torn is on the wire whole where the writes succeed, and else not
    at all.** -/
theorem put_untorn {c : Control} {part : Bytes} {parts : List Bytes}
    (h : Untorn c (part :: parts)) :
    ∃ o, (put (part :: parts) c).2 = { c with outlet := o } ∧ o.written = c.outlet.written ++
      (match (put (part :: parts) c).1 with
        | .ok () => (part :: parts).flatten
        | .error _ => []) := by
  have hput : ∀ {res : Readout Unit} {c' : Control},
      Control.write (part :: parts) c = (res, c') →
      put (part :: parts) c = (match res with
        | .ok () => Control.flush c'
        | .error e => (.error e, c')) := by
    intro res c' hrun
    unfold put
    rw [bind_apply, hrun]
    cases res <;> rfl
  by_cases hshut : c.shut = true
  · have hrun : Control.write (part :: parts) c = (.error (.error (.io .other)), c) := by
      unfold Control.write
      rw [if_pos hshut]
    rw [hput hrun]
    exact ⟨c.outlet, rfl, (append_nil _).symm⟩
  rcases (h.resolve_left hshut) with htakes | hrefuses
  · obtain ⟨hok, hflush⟩ := @Outlet.writeParts_takes false (part :: parts) c.outlet 1 htakes
    obtain ⟨taken, hwritten, _, hall⟩ := @Outlet.writeParts_taken false (part :: parts) c.outlet
    rcases hout : c.outlet.writeParts false (part :: parts) with ⟨out, o⟩
    rw [hout] at hok hflush hwritten hall
    obtain rfl : out = .ok := hok
    have hrun : Control.write (part :: parts) c = (.ok (), { c with outlet := o }) := by
      unfold Control.write
      rw [if_neg hshut, hout]
    obtain ⟨hdone, _⟩ := Outlet.writeAll_takes hflush []
    obtain ⟨last, hlast, hnone, _⟩ := @Outlet.writeAll_taken false o []
    have hend : Control.flush { c with outlet := o }
        = (.ok (), { c with outlet := (o.writeAll false []).2 }) := by
      unfold Control.flush Control.write Outlet.writeParts
      rw [if_neg hshut]
      rcases hw : o.writeAll false [] with ⟨out, o'⟩
      rw [hw] at hdone
      obtain rfl : out = .ok := hdone
      rfl
    rw [hput hrun]
    rw [hend]
    refine ⟨_, rfl, ?_⟩
    rw [hlast, prefix_nil.mp hnone, append_nil, hwritten, hall rfl]
  · obtain ⟨hne, hsame⟩ := @Outlet.writeParts_refuses false c.outlet part parts hrefuses
    rcases hout : c.outlet.writeParts false (part :: parts) with ⟨out, o⟩
    rw [hout] at hne hsame
    have hfail : ∃ stop, Control.write (part :: parts) c = (.error stop, { c with outlet := o }) := by
      unfold Control.write
      rw [if_neg hshut, hout]
      cases out with
      | ok => exact absurd rfl hne
      | error e | dropped => exact ⟨_, rfl⟩
    obtain ⟨stop, hrun⟩ := hfail
    rw [hput hrun]
    exact ⟨o, rfl, by rw [append_nil]; exact hsame⟩

/-- The schema of the table is at hand, or none is asked for: the block is not checked, or
    the schema is in the cache, or the table name is refused. -/
def NeedsNoQuery (c : SyncClient) (table : Text) : Prop :=
  cfg.validateSchema = false ∨ table = [] ∨ (c.schemaCache.lookup table).isSome = true ∨
    (quoteIdentifierPath table).isOk = false

variable {cfg : ClientConfig} {c : SyncClient}

theorem validateInsertBlock_quiet {table : Text} (h : NeedsNoQuery cfg c table) (block : Block) :
    (SyncClient.validateInsertBlock cfg table block c).2 = c := by
  unfold SyncClient.validateInsertBlock
  by_cases hskip : cfg.validateSchema = false ∨ table = []
  · rw [if_pos hskip]
    rfl
  rw [if_neg hskip, bind_apply]
  rcases h with hoff | hempty | hcached | hrefused
  · exact absurd (.inl hoff) hskip
  · exact absurd (.inr hempty) hskip
  · obtain ⟨schema, hfound⟩ := Option.isSome_iff_exists.mp hcached
    unfold SyncClient.schemaForTable
    rw [hfound]
    dsimp only
    cases schema.validateInsertBlock table block <;> rfl
  unfold SyncClient.schemaForTable SyncClient.fetchSchemaForTable
  cases hfound : c.schemaCache.lookup table with
  | some schema =>
    dsimp only
    cases schema.validateInsertBlock table block <;> rfl
  | none =>
    rcases hquoted : quoteIdentifierPath table with e | quoted
    · rfl
    rw [hquoted] at hrefused
    cases hrefused

/-- A `send_data` that needs no query and whose packet is not torn. -/
def SendsQuietly (cfg : ClientConfig) (c : SyncClient) (table : Text) (block : Block) : Prop :=
  NeedsNoQuery cfg c table ∧
    ∀ parts, SyncClient.dataParts cfg c.transport.control.chunkedSend table block = .ok parts →
      Untorn c.transport.control parts

/-- **It writes its packet where it returns Ok, and nothing where it does not.** -/
theorem sendData_quiet {table : Text} {block : Block} (h : SendsQuietly cfg c table block) :
    ∃ o, (SyncClient.sendData cfg table block c).2
        = { c with transport := { c.transport with
            control := { c.transport.control with outlet := o } } } ∧
      o.written = c.written ++
        (match (SyncClient.sendData cfg table block c).1 with
          | .ok () => onWire c.transport.control.chunkedSend (dataPacketOf cfg table block)
          | .error _ => []) := by
  have hstays := validateInsertBlock_quiet h.1 block
  unfold SyncClient.sendData
  rw [bind_apply]
  rcases hcheck : SyncClient.validateInsertBlock cfg table block c with ⟨res, c'⟩
  rw [hcheck] at hstays
  obtain rfl : c' = c := hstays
  rcases res with e | _
  · exact ⟨_, rfl, (append_nil _).symm⟩
  dsimp only
  unfold SyncClient.onControl SyncClient.onTransport Transport.onControl
  have huntorn := h.2
  rw [dataParts_eq] at huntorn
  unfold onWire
  cases hparts : dataPacketOf cfg table block
      >>= packetParts c'.transport.control.chunkedSend with
  | error e =>
    have hrun : (do SyncClient.writeData cfg table block; Control.flush :
        Read Control Unit) c'.transport.control
        = (.error (.error e), c'.transport.control) := by
      rw [bind_apply]
      unfold SyncClient.writeData
      rw [dataParts_eq, hparts]
    rw [hrun]
    exact ⟨_, rfl, (append_nil _).symm⟩
  | ok parts =>
    have hrun : (do SyncClient.writeData cfg table block; Control.flush :
        Read Control Unit) c'.transport.control
        = put parts c'.transport.control := by
      rw [bind_apply]
      unfold SyncClient.writeData
      rw [dataParts_eq, hparts]
      rfl
    obtain ⟨_, _, hpacket⟩ := bind_eq_ok hparts
    obtain ⟨part, more, rfl⟩ := packetParts_ne_nil hpacket
    obtain ⟨o, hput, hwritten⟩ := put_untorn (huntorn _ hparts)
    rw [hrun]
    refine ⟨o, ?_, ?_⟩
    · rw [← hput]
    · exact hwritten

/-! ## §5. An INSERT. -/

/-- A call between `begin_insert` and `end_insert`. -/
inductive InsertCall where
  | sendData (table : Text) (block : Block)
  | clearSchemaCache

/-- An INSERT under way, with the blocks whose `send_data` has returned Ok. -/
structure Inserting where
  client : SyncClient
  sent : List (Text × Block)
  deriving DecidableEq

/-- One call. -/
def Inserting.step (cfg : ClientConfig) (s : Inserting) : InsertCall → Option Inserting
  | .sendData table block =>
    match SyncClient.sendData cfg table block s.client with
    | (.ok (), c) => some ⟨c, s.sent ++ [(table, block)]⟩
    | (.error _, c) => some ⟨c, s.sent⟩
  | .clearSchemaCache => some ⟨{ s.client with schemaCache := [] }, s.sent⟩

/-- The condition on a call. -/
def Inserting.Quiet (cfg : ClientConfig) (s : Inserting) : InsertCall → Prop
  | .sendData table block => SendsQuietly cfg s.client table block
  | .clearSchemaCache => True

/-- The packets of the blocks, on the wire. -/
def dataOnWire (cfg : ClientConfig) (chunked : Bool) (sent : List (Text × Block)) : Bytes :=
  sent.flatMap fun entry => onWire chunked (dataPacketOf cfg entry.1 entry.2)

/-- What has been written since `begin_insert` are the packets of the blocks sent. -/
structure OnlyData (cfg : ClientConfig) (c : SyncClient) (s : Inserting) : Prop where
  framing : s.client.transport.control.chunkedSend = c.transport.control.chunkedSend
  written : s.client.written
    = c.written ++ dataOnWire cfg c.transport.control.chunkedSend s.sent

theorem OnlyData.step {s s' : Inserting} {call : InsertCall}
    (h : OnlyData cfg c s) (hquiet : s.Quiet cfg call) (hstep : s.step cfg call = some s') :
    OnlyData cfg c s' := by
  cases call with
  | clearSchemaCache =>
    cases hstep
    exact ⟨h.framing, h.written⟩
  | sendData table block =>
    obtain ⟨o, hafter, hwritten⟩ := sendData_quiet hquiet
    unfold Inserting.step at hstep
    dsimp only at hstep
    rcases hrun : SyncClient.sendData cfg table block s.client with ⟨res, client⟩
    rw [hrun] at hstep hafter hwritten
    obtain rfl : client = _ := hafter
    cases res with
    | error e =>
      cases hstep
      refine ⟨h.framing, ?_⟩
      rw [← h.written]
      exact hwritten.trans (append_nil _)
    | ok _ =>
      cases hstep
      refine ⟨h.framing, ?_⟩
      unfold dataOnWire
      rw [flatMap_append, ← append_assoc]
      refine hwritten.trans ?_
      rw [h.written, h.framing]
      simp [dataOnWire]

theorem writeTerminator_ok {c c' : SyncClient}
    (h : SyncClient.writeTerminator cfg c = (.ok (), c')) :
    c'.written = c.written ++ onWire c.transport.control.chunkedSend (.ok cfg.emptyDataBlock) := by
  unfold SyncClient.writeTerminator SyncClient.onControl SyncClient.onTransport
    Transport.onControl at h
  rcases hrun : Control.writeNative cfg.emptyDataBlock c.transport.control with ⟨res, control⟩
  rw [hrun] at h
  cases h
  obtain ⟨_, mid, hpacket, hflush⟩ := bind_eq_ok_iff.mp hrun
  have hparts : ∃ parts, packetParts c.transport.control.chunkedSend cfg.emptyDataBlock = .ok parts
      ∧ Control.write parts c.transport.control = (.ok (), mid) := by
    unfold Control.writePacket at hpacket
    split at hpacket
    · exact ⟨_, ‹_›, hpacket⟩
    · cases hpacket
  obtain ⟨parts, hparts, hwrite⟩ := hparts
  obtain ⟨o, taken, hmid, hwritten, hall⟩ := Control.write_taken parts c.transport.control
  obtain ⟨o', last, hend, hlast, hnone⟩ := Control.write_taken [[]] mid
  have hflush' : Control.write [[]] mid = (.ok (), control) := hflush
  rw [hwrite] at hmid hall
  rw [hflush'] at hend hnone
  have hcontrol : control = { mid with outlet := o' } := hend
  have hwhole : onWire c.transport.control.chunkedSend (.ok cfg.emptyDataBlock)
      = parts.flatten := by
    show (match packetParts c.transport.control.chunkedSend cfg.emptyDataBlock with
      | .ok parts => parts.flatten
      | .error _ => []) = _
    rw [hparts]
  have hmid' : mid = { c.transport.control with outlet := o } := hmid
  show control.outlet.written = _
  rw [hcontrol, hwhole, hlast, hnone rfl, hmid', hwritten, hall rfl]
  exact append_nil _

/-- **Only data travels inside an INSERT** in which no `send_data` needs a query and no
    packet is torn: what has been written since `begin_insert` are the packets of the
    `send_data` calls that returned Ok, in their order, and behind them the terminator. -/
theorem only_data_travels {cfg : ClientConfig} {sql : Text} {c₀ c : SyncClient}
    (_hbegin : SyncClient.beginInsert cfg sql c₀ = (.ok (), c)) {calls : List InsertCall}
    {s : Inserting} (hrun : Run (Inserting.step cfg) (Inserting.Quiet cfg) ⟨c, []⟩ calls s) :
    s.client.written = c.written ++ dataOnWire cfg c.transport.control.chunkedSend s.sent ∧
      ∀ c', SyncClient.writeTerminator cfg s.client = (.ok (), c') →
        c'.written = c.written ++ dataOnWire cfg c.transport.control.chunkedSend s.sent
          ++ onWire c.transport.control.chunkedSend (.ok cfg.emptyDataBlock) := by
  have hdata : OnlyData cfg c s :=
    hrun.invariant (I := OnlyData cfg c) (fun _ _ _ h hquiet hstep => h.step hquiet hstep)
      ⟨rfl, (append_nil _).symm⟩
  refine ⟨hdata.written, ?_⟩
  intro c' hend
  rw [writeTerminator_ok hend, hdata.written, hdata.framing]

/-- A client without compression that checks its blocks. -/
def validatingConfig : ClientConfig where
  calls := plainConfig
  settings := ⟨[], nodup_nil⟩
  compression := none
  validateSchema := true
  initialUser := []
  initialAddress := "0.0.0.0:0".toList
  osUser := []
  clientHostname := []
  clientName := []
  clientVersionMajor := 26
  clientVersionMinor := 4
  clientVersionPatch := 0
  quotaKey := []
  replies := rfl

/-- The answer to `begin_insert`: the structure of a table with a column `x` of type
    `UInt8`. -/
def structureAnswer : Segment := .bytes 1 [0, 0, 1, 0, 1, 120, 5, 85, 73, 110, 116, 56, 0]

/-- The answer to DESCRIBE: the same column as a row of two Strings. -/
def describeAnswer : Segment :=
  .bytes 1 ([0, 0, 2, 1] ++ writeString "name".toList ++ writeString "String".toList ++ [0]
    ++ writeString "x".toList ++ writeString "type".toList ++ writeString "String".toList ++ [0]
    ++ writeString "UInt8".toList ++ [5])

/-- The client after `begin_insert`, with a cache. -/
def begun (arrivals : List Segment) (cache : List (Text × TableSchema)) : SyncClient :=
  (SyncClient.beginInsert validatingConfig "INSERT INTO t VALUES".toList
    ⟨openSocket (structureAnswer :: arrivals), cache, [(1, 0)]⟩).2

/-- The schema of the table `t`. -/
def cached : List (Text × TableSchema) := [("t".toList, ⟨[⟨"x".toList, "UInt8".toList⟩]⟩)]

/-- A block that does not fit it. -/
def strangeRow : Block := ⟨[⟨"y".toList, "UInt8".toList, [7]⟩], 1⟩

/-- The INSERT after a block that fits. -/
def oneSent : Inserting :=
  ⟨(SyncClient.sendData validatingConfig "t".toList InsertSession.oneRow (begun [] cached)).2,
    [("t".toList, InsertSession.oneRow)]⟩

/-- A schema in the cache, a block that fits it and one that does not. -/
theorem only_data_travels_cached :
    Run (Inserting.step validatingConfig) (Inserting.Quiet validatingConfig)
        ⟨begun [] cached, []⟩
        [.sendData "t".toList InsertSession.oneRow, .sendData "t".toList strangeRow] oneSent ∧
      oneSent.client.written
        = (begun [] cached).written ++ writeDataPacket "t".toList InsertSession.oneRow := by
  have hbegin : SyncClient.beginInsert validatingConfig "INSERT INTO t VALUES".toList
      ⟨openSocket [structureAnswer], cached, [(1, 0)]⟩ = (.ok (), begun [] cached) := by
    decide +kernel
  have hfits : Inserting.step validatingConfig ⟨begun [] cached, []⟩
      (.sendData "t".toList InsertSession.oneRow) = some oneSent := by
    decide +kernel
  have hfitsNot : Inserting.step validatingConfig oneSent (.sendData "t".toList strangeRow)
      = some oneSent := by
    decide +kernel
  have hquiet : Inserting.Quiet validatingConfig ⟨begun [] cached, []⟩
      (.sendData "t".toList InsertSession.oneRow) :=
    .intro (.inr (.inr (.inl (by decide +kernel))))
      fun _ _ => .inr (.inl (Outlet.takes_all (by decide +kernel)))
  have hquietToo : Inserting.Quiet validatingConfig oneSent (.sendData "t".toList strangeRow) :=
    .intro (.inr (.inr (.inl (by decide +kernel))))
      fun _ _ => .inr (.inl (Outlet.takes_all (by decide +kernel)))
  have hrun : Run (Inserting.step validatingConfig) (Inserting.Quiet validatingConfig)
      ⟨begun [] cached, []⟩
      [.sendData "t".toList InsertSession.oneRow, .sendData "t".toList strangeRow] oneSent :=
    .cons hquiet hfits (.cons hquietToo hfitsNot (.nil _))
  have hdata : dataOnWire validatingConfig (begun [] cached).transport.control.chunkedSend
      oneSent.sent = writeDataPacket "t".toList InsertSession.oneRow := by
    decide +kernel
  obtain ⟨hwritten, _⟩ := only_data_travels hbegin hrun
  rw [hdata] at hwritten
  exact ⟨hrun, hwritten⟩

/-- **A query travels inside the INSERT**: the schema is not in the cache, and `send_data`
    asks for it before it writes its packet. -/
theorem describe_travels :
    SyncClient.beginInsert validatingConfig "INSERT INTO t VALUES".toList
        ⟨openSocket [structureAnswer, describeAnswer], [], [(1, 0)]⟩
      = (.ok (), begun [describeAnswer] []) ∧
    (Inserting.step validatingConfig ⟨begun [describeAnswer] [], []⟩
        (.sendData "t".toList InsertSession.oneRow)).map
        (fun s => (s.sent, s.client.written))
      = some ([("t".toList, InsertSession.oneRow)],
          (begun [describeAnswer] []).written
            ++ validatingConfig.buildQueryPacket (SyncClient.queryIdOf (0, 0))
                ("DESCRIBE TABLE ".toList ++ quoteIdentifier "t".toList)
            ++ writeDataPacket "t".toList InsertSession.oneRow) := by
  decide +kernel

end Sync

end StClickHouse
