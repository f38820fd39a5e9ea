/-
  StClickHouse.Query.Packet
  **THE PACKET A QUERY IS SENT IN.**

  `connection/query_packet.rs`, the writers of `connection/io.rs`, `client_info.rs`,
  `shared/parameters.rs` and `shared/block_writer.rs`, and the choice of template in
  `send_select_query`.  A writer that appends to a buffer is the bytes it appends;
  capacities are left out.
-/
import StClickHouse.Wire.Frame

namespace StClickHouse

open ByteReader RustText List

/-! ## §1. Strings, blocks and Data packets. -/

theorem length_le_flatMap {α : Type} {write : α → Bytes} {as : List α}
    (h : ∀ a ∈ as, write a ≠ []) : as.length ≤ (as.flatMap write).length := by
  induction as with
  | nil => exact Nat.zero_le _
  | cons a as ih =>
    have hrest := ih fun b hb => h b (mem_cons_of_mem _ hb)
    have hfirst := length_pos_of_ne_nil (h a mem_cons_self)
    rw [flatMap_cons, length_append, length_cons]
    omega

theorem encodeVarint_ne_nil (n : Nat) : encodeVarint n ≠ [] := by
  unfold encodeVarint encodeVarintFuel
  split <;> exact cons_ne_nil _ _

/-- `wire::write_string_bytes`. -/
def writeStringBytes (value : Bytes) : Bytes := encodeVarint value.length ++ value

/-- `wire::write_string`. -/
def writeString (s : Text) : Bytes := writeStringBytes (toUtf8 s)

theorem toUtf8_ne_nil {s : Text} (h : s ≠ []) : toUtf8 s ≠ [] := by
  rcases s with _ | ⟨c, s⟩
  · exact absurd rfl h
  intro hnil
  have hchar : String.utf8EncodeChar c = [] := (append_eq_nil_iff.mp hnil).1
  have hlen := congrArg List.length hchar
  rw [String.length_utf8EncodeChar] at hlen
  exact absurd hlen (ne_of_gt c.utf8Size_pos)

/-- The BlockInfo every writer writes: no overflow rows, bucket -1. -/
def blockInfoBytes : Bytes :=
  encodeVarint 1 ++ [0] ++ encodeVarint 2 ++ [0xFF, 0xFF, 0xFF, 0xFF] ++ encodeVarint 0

/-- One column of `write_block`; the custom-serialization byte is always 0. -/
def writeColumnInfo (col : ColumnInfo) : Bytes :=
  writeString col.name ++ writeString col.typeName ++ [0] ++ col.data

/-- `write_block`. -/
def writeBlock (block : Block) : Bytes :=
  blockInfoBytes ++ encodeVarint block.columns.length ++ encodeVarint block.rows
    ++ block.columns.flatMap writeColumnInfo

/-- `write_data_packet`.  Writing to a `Vec` does not fail. -/
def writeDataPacket (tableName : Text) (block : Block) : Bytes :=
  encodeVarint 2 ++ writeString tableName ++ writeBlock block

/-- `Block::empty`. -/
def Block.empty : Block := ⟨[], 0⟩

/-- `write_empty_block_body`. -/
def writeEmptyBlockBody : Bytes :=
  blockInfoBytes ++ encodeVarint 0 ++ encodeVarint 0

/-- `write_empty_data`. -/
def writeEmptyData : Bytes := encodeVarint 2 ++ writeString [] ++ writeEmptyBlockBody

/-- `write_empty_data_for`.  A frame that cannot be encoded is left out. -/
def writeEmptyDataFor (codec : Codec) : Option CompressionMethod → Bytes
  | some .lz4 => framed .lz4
  | some .zstd => framed .zstd
  | some .none => writeEmptyData
  | none => writeEmptyData
where
  framed (method : CompressionMethod) : Bytes :=
    encodeVarint 2 ++ writeString [] ++
      match encodeFrame codec writeEmptyBlockBody method with
      | .ok frame => frame
      | .error _ => []

/-- `compression_flag`. -/
def compressionFlag : Option CompressionMethod → Nat
  | some .lz4 => 1
  | some .zstd => 1
  | some .none => 0
  | none => 0

/-! ## §2. Parameters. -/

/-- `QueryParameter`. -/
structure QueryParameter where
  name : Text
  value : Option Text
  deriving Repr, DecidableEq

/-- `QUERY_PARAMETER_CUSTOM_FLAG`. -/
def queryParameterCustomFlag : Nat := 2

/-- One byte of `write_quoted_string_to_vec`. -/
def quoteByte (b : UInt8) : Bytes :=
  if b = 0 then [0x5C, 0x78, 0x30, 0x30]
  else if b = 8 then [0x5C, 0x78, 0x30, 0x38]
  else if b = 0x09 then [0x5C, 0x5C, 0x5C, 0x74]
  else if b = 0x0A then [0x5C, 0x5C, 0x5C, 0x6E]
  else if b = 0x27 then [0x5C, 0x78, 0x32, 0x37]
  else if b = 0x5C then [0x5C, 0x5C, 0x5C, 0x5C]
  else [b]

/-- `quoted_len`. -/
def quotedLen (value : Bytes) : Nat :=
  (value.map fun b =>
    if b = 0 ∨ b = 8 ∨ b = 0x09 ∨ b = 0x0A ∨ b = 0x27 ∨ b = 0x5C then 4 else 1).sum + 2

/-- `write_quoted_string_to_vec`. -/
def writeQuotedString (value : Bytes) : Bytes :=
  encodeVarint (quotedLen value) ++ ([0x27] ++ value.flatMap quoteByte ++ [0x27])

/-- `write_param_null_to_vec`: the text `'\\N'`. -/
def writeParamNull : Bytes := writeStringBytes [0x27, 0x5C, 0x5C, 0x4E, 0x27]

/-- One parameter of `write_query_parameters_to_vec`. -/
def writeQueryParameter (param : QueryParameter) : Bytes :=
  writeString param.name ++ encodeVarint queryParameterCustomFlag ++
    match param.value with
    | some value => writeQuotedString (toUtf8 value)
    | none => writeParamNull

/-- `write_query_parameters_to_vec`. -/
def writeQueryParameters (params : List QueryParameter) : Bytes :=
  params.flatMap writeQueryParameter ++ writeString []

/-! ## §3. Templates. -/

namespace Revision

def initialQueryStartTime : Nat := 54449
def clientInfo : Nat := 54032
def quotaKeyInClientInfo : Nat := 54060
def versionPatch : Nat := 54401
def interserverSecret : Nat := 54441
def openTelemetry : Nat := 54442
def distributedDepth : Nat := 54448
def parallelReplicas : Nat := 54453
def parameters : Nat := 54459
def sparseSerialization : Nat := 54465
def externallyGrantedRoles : Nat := 54472
def queryAndLineNumbers : Nat := 54475
def jwtInInterserver : Nat := 54476

/-- `MIN_SUPPORTED_PROTOCOL_REVISION`. -/
def minSupported : Nat := parameters

/-- `DEFAULT_PROTOCOL_REVISION`. -/
def default : Nat := 54483

end Revision

/-- The bytes written from a revision on. -/
def since (rev gate : Nat) (bytes : Bytes) : Bytes := if gate ≤ rev then bytes else []

/-- A settings map, in the order its iterator gives. -/
structure Settings where
  entries : List (Text × Text)
  nodup : (entries.map Prod.fst).Nodup

namespace Settings

/-- `contains_key`. -/
def containsKey (settings : Settings) (name : Text) : Bool :=
  settings.entries.any fun entry => entry.1 = name

theorem nodup_filter (settings : Settings) (keep : Text × Text → Bool) :
    ((settings.entries.filter keep).map Prod.fst).Nodup :=
  settings.nodup.sublist (filter_sublist.map _)

/-- `merge_settings`: the overrides win. -/
def merge (base overrides : Settings) : Settings where
  entries := (base.entries.filter fun entry => !overrides.containsKey entry.1) ++ overrides.entries
  nodup := by
    rw [map_append, nodup_append]
    refine ⟨base.nodup_filter _, overrides.nodup, ?_⟩
    intro name hbase name' hover heq
    obtain ⟨entry, hentry, rfl⟩ := mem_map.mp hbase
    obtain ⟨entry', hentry', rfl⟩ := mem_map.mp hover
    have hkept := (mem_filter.mp hentry).2
    have hfound : overrides.containsKey entry.1 = true := by
      rw [containsKey, any_eq_true]
      exact ⟨entry', hentry', decide_eq_true heq.symm⟩
    rw [hfound] at hkept
    cases hkept

/-- `entry(name).or_insert(value)`. -/
def orInsert (settings : Settings) (name value : Text) : Settings :=
  if h : settings.containsKey name = true then settings
  else
    { entries := settings.entries ++ [(name, value)]
      nodup := by
        rw [map_append, nodup_append]
        refine ⟨settings.nodup, by simp, ?_⟩
        intro found hfound name' hname' heq
        obtain ⟨entry, hentry, rfl⟩ := mem_map.mp hfound
        have hname : entry.1 = name := heq.trans (mem_singleton.mp hname')
        refine h ?_
        rw [containsKey, any_eq_true]
        exact ⟨entry, hentry, decide_eq_true hname⟩ }

end Settings

/-- `OUTPUT_FORMAT_NATIVE_WRITE_JSON_AS_STRING`. -/
def outputFormatNativeWriteJsonAsString : Text :=
  "output_format_native_write_json_as_string".toList

/-- `OUTPUT_FORMAT_NATIVE_USE_FLATTENED_DYNAMIC_AND_JSON_SERIALIZATION`. -/
def outputFormatNativeUseFlattened : Text :=
  "output_format_native_use_flattened_dynamic_and_json_serialization".toList

/-- `RATIO_OF_DEFAULTS_FOR_SPARSE_SERIALIZATION`. -/
def ratioOfDefaultsForSparseSerialization : Text :=
  "ratio_of_defaults_for_sparse_serialization".toList

/-- A setting: name, flags and value, all as strings. -/
def writeSetting (entry : Text × Text) : Bytes :=
  writeString entry.1 ++ encodeVarint 0 ++ writeString entry.2

/-- The settings of `write_protocol_default_settings`. -/
def protocolDefaultSettings (settings : Settings) (rev : Nat) : List (Text × Text) :=
  (if Revision.sparseSerialization ≤ rev
      ∧ ¬ settings.containsKey ratioOfDefaultsForSparseSerialization then
    [(ratioOfDefaultsForSparseSerialization, ['1'])] else []) ++
  (if ¬ settings.containsKey outputFormatNativeWriteJsonAsString then
    [(outputFormatNativeWriteJsonAsString, ['1'])] else [])

/-- `ClientInfoTemplate`. -/
structure ClientInfoTemplate where
  beforeInitialQueryId : Bytes
  afterInitialQueryId : Bytes
  deriving DecidableEq

/-- `build_client_info_template`. -/
def buildClientInfoTemplate (rev : Nat) (quotaKey : Text) : ClientInfoTemplate where
  beforeInitialQueryId := writeString []
  afterInitialQueryId :=
    writeString "0.0.0.0:0".toList
      ++ since rev Revision.initialQueryStartTime (leBytes 8 0)
      ++ [1] ++ writeString [] ++ writeString "rust-client".toList
      ++ writeString "st-clickhouse".toList
      ++ encodeVarint 26 ++ encodeVarint 4 ++ encodeVarint rev
      ++ since rev Revision.quotaKeyInClientInfo (writeString quotaKey)
      ++ since rev Revision.distributedDepth (encodeVarint 0)
      ++ since rev Revision.versionPatch (encodeVarint 2)
      ++ since rev Revision.openTelemetry [0]
      ++ since rev Revision.parallelReplicas (encodeVarint 0 ++ encodeVarint 0 ++ encodeVarint 0)
      ++ since rev Revision.queryAndLineNumbers (encodeVarint 0 ++ encodeVarint 0)
      ++ since rev Revision.jwtInInterserver [0]

/-- `QueryPacketCommonTemplate`. -/
structure QueryPacketCommonTemplate where
  /-- The packet type, `prefix` in the source. -/
  head : Bytes
  clientInfo : Option ClientInfoTemplate
  beforeQuery : Bytes
  deriving DecidableEq

/-- `build_query_packet_common_template`. -/
def buildQueryPacketCommonTemplate (settings : Settings) (compression : Option CompressionMethod)
    (rev : Nat) (quotaKey : Text) : QueryPacketCommonTemplate where
  head := encodeVarint 1
  clientInfo :=
    if Revision.clientInfo ≤ rev then some (buildClientInfoTemplate rev quotaKey) else none
  beforeQuery :=
    (protocolDefaultSettings settings rev ++ settings.entries).flatMap writeSetting
      ++ writeString []
      ++ since rev Revision.externallyGrantedRoles (writeString [])
      ++ since rev Revision.interserverSecret (writeString [])
      ++ encodeVarint 2 ++ encodeVarint (compressionFlag compression)

/-- `write_query_packet_common_from_template`. -/
def writeQueryPacketCommonFromTemplate (template : QueryPacketCommonTemplate)
    (queryId : Bytes) : Bytes :=
  template.head ++ writeStringBytes queryId
    ++ (match template.clientInfo with
      | some info => encodeVarint 1 ++ (info.beforeInitialQueryId ++ writeStringBytes queryId
          ++ info.afterInitialQueryId)
      | none => [])
    ++ template.beforeQuery

/-- `QueryPacketTemplate`. -/
structure QueryPacketTemplate where
  revision : Nat
  compression : Option CompressionMethod
  quotaKey : Text
  common : QueryPacketCommonTemplate
  selectSuffix : Bytes
  insertSuffix : Bytes
  deriving DecidableEq

/-- `build_query_packet_template`. -/
def buildQueryPacketTemplate (codec : Codec) (settings : Settings)
    (compression : Option CompressionMethod) (rev : Nat) (quotaKey : Text) :
    QueryPacketTemplate where
  revision := rev
  compression := compression
  quotaKey := quotaKey
  common := buildQueryPacketCommonTemplate settings compression rev quotaKey
  selectSuffix := since rev Revision.parameters (writeString [])
    ++ writeEmptyDataFor codec compression
  insertSuffix := since rev Revision.parameters (writeString [])

/-! ## §4. Packets. -/

/-- `build_query_packet_from_template`. -/
def buildQueryPacketFromTemplate (codec : Codec) (template : QueryPacketTemplate) (query : Text)
    (queryId : Bytes) (includeEmptyBlock : Bool) (params : List QueryParameter) :
    Bytes :=
  writeQueryPacketCommonFromTemplate template.common queryId ++ writeString query ++
    if params.isEmpty && includeEmptyBlock then template.selectSuffix
    else if params.isEmpty then template.insertSuffix
    else
      since template.revision Revision.parameters (writeQueryParameters params)
        ++ if includeEmptyBlock then writeEmptyDataFor codec template.compression else []

/-- The Data packet of one external table: a table without rows is left out. -/
def writeExternalTable (table : Text × Block) : Bytes :=
  if table.2.rows > 0 then writeDataPacket table.1 table.2 else []

/-- `build_query_packet`. -/
def buildQueryPacket (codec : Codec) (template : QueryPacketTemplate) (query : Text)
    (externalTables : List (Text × Block)) (queryId : Bytes)
    (params : List QueryParameter) : Bytes :=
  buildQueryPacketFromTemplate codec template query queryId false params
    ++ externalTables.flatMap writeExternalTable
    ++ writeEmptyDataFor codec template.compression

/-! ## §5. The packet of a select. -/

/-- The part of a client that its query packets depend on.  `refresh_query_template`
runs after every change, so the template is always the one of the other fields. -/
structure Client (codec : Codec) where
  settings : Settings
  compression : Option CompressionMethod
  quotaKey : Text
  queryTemplate : QueryPacketTemplate
  refreshed : queryTemplate
    = buildQueryPacketTemplate codec settings compression Revision.default quotaKey

/-- `QuerySettingsMode`. -/
inductive QuerySettingsMode where
  | materialized
  | rawCapture
  deriving Repr, DecidableEq

/-- What a query builder collects for its packet. -/
structure SelectQuery where
  sql : Text
  settings : Settings
  compression : Option CompressionMethod
  externalTables : List (Text × Block)
  params : List QueryParameter

/-- `cached_template_reusable`. -/
def cachedTemplateReusable (perQuerySettings : Settings)
    (perQueryCompression : Option CompressionMethod) (cachedRev negotiatedRev : Nat) : Bool :=
  perQuerySettings.entries.isEmpty && perQueryCompression.isNone && cachedRev == negotiatedRev

/-- The settings of a query, by mode. -/
def selectSettings (base overrides : Settings) : QuerySettingsMode → Settings
  | .materialized => base.merge overrides
  | .rawCapture =>
    ((base.merge overrides).orInsert outputFormatNativeUseFlattened ['1']).orInsert
      outputFormatNativeWriteJsonAsString ['0']

variable {codec : Codec} (client : Client codec)

/-- The template `send_select_query` builds its packet from. -/
def selectTemplate (query : SelectQuery) (mode : QuerySettingsMode)
    (rev : Nat) : QueryPacketTemplate :=
  if mode = .materialized
      ∧ cachedTemplateReusable query.settings query.compression client.queryTemplate.revision rev
      then
    client.queryTemplate
  else
    buildQueryPacketTemplate codec (selectSettings client.settings query.settings mode)
      (query.compression.or client.compression) rev client.quotaKey

/-- The packet of `send_select_query`. -/
def selectPacket (query : SelectQuery) (mode : QuerySettingsMode)
    (rev : Nat) (queryId : Bytes) : Bytes :=
  buildQueryPacket codec (selectTemplate client query mode rev) query.sql query.externalTables
    queryId query.params

/-- `response_compressed` of `send_select_query`. -/
def responseCompressed (query : SelectQuery) : Bool :=
  compressionFlag (query.compression.or client.compression) == 1

/-- The compression flag a template writes into its packets: the last byte before the
query text. -/
def QueryPacketTemplate.writtenFlag (template : QueryPacketTemplate) : UInt8 :=
  template.common.beforeQuery.getLastD 0

theorem writtenFlag_build (settings : Settings) (compression : Option CompressionMethod) (rev : Nat)
    (quotaKey : Text) :
    (buildQueryPacketTemplate codec settings compression rev quotaKey).writtenFlag
      = UInt8.ofNat (compressionFlag compression) := by
  have hbyte : encodeVarint (compressionFlag compression)
      = [UInt8.ofNat (compressionFlag compression)] := by
    cases compression with
    | none => rfl
    | some method => cases method <;> rfl
  unfold QueryPacketTemplate.writtenFlag buildQueryPacketTemplate buildQueryPacketCommonTemplate
  rw [hbyte, getLastD_concat]

/-- **The flag in the packet is the one the response is read with.**  The kept template is
reused only where it has the compression of the query. -/
theorem selectTemplate_writtenFlag (query : SelectQuery) (mode : QuerySettingsMode) (rev : Nat) :
    (selectTemplate client query mode rev).writtenFlag
      = UInt8.ofNat (compressionFlag (query.compression.or client.compression)) := by
  unfold selectTemplate
  by_cases hreuse : mode = .materialized
      ∧ cachedTemplateReusable query.settings query.compression client.queryTemplate.revision rev
  · rw [if_pos hreuse]
    have hnone : query.compression = none := by
      have hreusable := hreuse.2
      unfold cachedTemplateReusable at hreusable
      cases hcompression : query.compression with
      | none => rfl
      | some method => simp [hcompression] at hreusable
    rw [client.refreshed, hnone, Option.none_or, writtenFlag_build]
  · rw [if_neg hreuse, writtenFlag_build]

end StClickHouse
