/-
  StClickHouse.Sync.QueryPacket
  **THE QUERY PACKETS OF THE SYNC CLIENT.**

  `build_query_packet_inner` (`sync/client.rs`) splices a packet from a template that is
  kept for the session settings: an overlay of settings for one query replaces the settings
  block at the front of `before_query`, and the rest of it is used again.

      consistent_iff     — which packets keep to their own compression flag
      overlay_is_session — an overlay is a session with the merged settings, for one packet
-/
import StClickHouse.Query.Consistent
import StClickHouse.Sync.Insert

namespace StClickHouse

open ByteReader RustText List

namespace Sync

/-! ## §1. Packets field by field. -/

/-- `HashMap::insert`. -/
def insertSetting (settings : Settings) (name value : Text) : Settings :=
  settings.merge ⟨[(name, value)], by simp⟩

namespace PacketBuilder

variable (b : PacketBuilder)

/-- `set_setting`, and `with_setting`. -/
def setSetting (name value : Text) : PacketBuilder :=
  connect { b.config with settings := insertSetting b.config.settings name value }

/-- `with_compression`.  The calls read `config.compression` when they are made. -/
def withCompression (method : CompressionMethod) : PacketBuilder :=
  connect { b.config with
    compression := some method
    calls := { b.config.calls with reply := { b.config.calls.reply with compressed := true } }
    replies := rfl }

/-- What stands before the settings. -/
def beforeSettings (queryId : Bytes) : Bytes :=
  encodeVarint 1 ++ writeStringBytes queryId
    ++ since b.config.rev Revision.clientInfo
      (b.config.clientInfoTemplate.beforeInitialQueryId ++ writeStringBytes queryId
        ++ b.config.clientInfoTemplate.afterInitialQueryId)

/-- The parameters.  A revision that has none is sent an empty string if there are some. -/
def parameterBytes (params : List QueryParameter) : Bytes :=
  if Revision.parameters ≤ b.config.rev then writeQueryParameters params
  else if params.isEmpty then [] else writeString []

theorem overlay_empty {overlay : Settings} (h : overlay.entries = []) (base : Settings) (rev : Nat) :
    writeSerializedSettingsOverlay base overlay rev
      = writeSerializedSettingsOverlay base noSettings rev := by
  have hoverlay : overlay = noSettings := by
    cases overlay
    cases h
    rfl
  rw [hoverlay]

/-- **A packet, field by field**: the settings with their overlay stand where the template
    has the settings alone, and everything else is that of the template. -/
theorem packet_eq (r : QueryRequest) : b.buildQueryPacketInner r
      = b.beforeSettings r.queryId
        ++ (writeSerializedSettingsOverlay b.config.settings r.settings b.config.rev
        ++ (b.config.afterSettings ++ (writeString r.query ++ (b.parameterBytes r.params
        ++ if r.includeEmptyBlock then b.config.emptyDataBlock else [])))) := by
  have hsettings : (if r.settings.entries.isEmpty then b.queryTemplate.beforeQuery
      else writeSerializedSettingsOverlay b.config.settings r.settings b.config.rev
        ++ b.queryTemplate.beforeQuery.drop b.queryTemplate.settingsLen)
      = writeSerializedSettingsOverlay b.config.settings r.settings b.config.rev
        ++ b.config.afterSettings := by
    rw [b.refreshed]
    by_cases hempty : r.settings.entries = []
    · rw [if_pos (isEmpty_iff.mpr hempty), overlay_empty hempty]
      rfl
    rw [if_neg (by simpa using hempty)]
    -- the offset is where the settings of the template end
    exact congrArg _ drop_left
  have hsuffix : (if r.params.isEmpty && r.includeEmptyBlock then b.queryTemplate.selectSuffix
      else if r.params.isEmpty then b.queryTemplate.insertSuffix
      else (if b.config.rev < Revision.parameters then writeString []
          else writeQueryParameters r.params)
        ++ if r.includeEmptyBlock then b.config.emptyDataBlock else [])
      = b.parameterBytes r.params ++ if r.includeEmptyBlock then b.config.emptyDataBlock else [] := by
    rw [b.refreshed]
    unfold parameterBytes buildQueryPacketTemplate since
    rcases r.params with _ | ⟨p, ps⟩
    · have hnone : writeQueryParameters [] = writeString [] := rfl
      cases r.includeEmptyBlock <;> simp [hnone]
    by_cases hrev : Revision.parameters ≤ b.config.rev
    · simp [hrev]
    · simp [hrev, Nat.lt_of_not_le hrev]
  unfold buildQueryPacketInner
  rw [hsettings, hsuffix]
  have hinfo : b.queryTemplate.clientInfo = if Revision.clientInfo ≤ b.config.rev
      then some b.config.clientInfoTemplate else none := by rw [b.refreshed]; rfl
  unfold beforeSettings since
  rw [hinfo, b.refreshed]
  by_cases hrev : Revision.clientInfo ≤ b.config.rev
  · simp only [if_pos hrev, append_assoc]
    rfl
  · simp only [if_neg hrev, append_assoc]
    rfl

theorem overlaidSettings_none (base : Settings) (rev : Nat) :
    overlaidSettings base noSettings rev = protocolDefaultSettings base rev ++ base.entries := by
  have hnone : ∀ name, noSettings.containsKey name = false := fun _ => rfl
  have hentries : noSettings.entries = [] := rfl
  unfold overlaidSettings protocolDefaultSettings
  simp [hnone, hentries]

/-! ## §2. The compression flag. -/

/-- A block in the form that the flag announces: a frame, or the block as it is. -/
def InForm (codec : Codec) (flag : Nat) (block bytes : Bytes) : Prop :=
  if flag = 1 then ∃ method, encodeFrame codec block method = .ok bytes else bytes = block

/-- A Data packet whose block is in that form; the table name never is. -/
def DataInForm (codec : Codec) (flag : Nat) (table : Text) (block : Block) (bytes : Bytes) :
    Prop :=
  ∃ encoded, bytes = encodeVarint 2 ++ writeString table ++ encoded ∧
    InForm codec flag (writeBlock block) encoded

/-- **A packet that keeps to its own flag.** -/
structure SelfConsistent (b : PacketBuilder) (r : QueryRequest) : Prop where
  /-- The flag stands behind the settings, the roles, the secret and the stage; the empty
      block stands behind the query and its parameters. -/
  announced : b.buildQueryPacketInner r
    = b.beforeSettings r.queryId
      ++ (writeSerializedSettingsOverlay b.config.settings r.settings b.config.rev
      ++ (since b.config.rev Revision.externallyGrantedRoles (writeString [])
        ++ since b.config.rev Revision.interserverSecret (writeString [])
        ++ encodeVarint 2 ++ encodeVarint b.config.flag
      ++ (writeString r.query ++ (b.parameterBytes r.params
      ++ if r.includeEmptyBlock then b.config.emptyDataBlock else []))))
  /-- The empty block behind a query, which also ends an INSERT. -/
  trailing : DataInForm b.config.codec b.config.flag [] Block.empty b.config.emptyDataBlock
  /-- The Data packets of an INSERT. -/
  inserted : ∀ table block bytes, dataPacketOf b.config table block = .ok bytes →
    DataInForm b.config.codec b.config.flag table block bytes
  /-- What the client takes the response for. -/
  response : b.config.calls.reply.compressed = (b.config.flag == 1)

variable {method : CompressionMethod}

theorem encodeFrame_ne_nil {codec : Codec} {data bytes : Bytes}
    (h : encodeFrame codec data method = .ok bytes) :
    ∃ hash body, bytes = hash ++ method.byte :: (leBytes 4 (headerLen + body.length)
      ++ leBytes 4 data.length ++ body) := by
  rw [encodeFrame] at h
  obtain ⟨body, _, hrest⟩ := bind_eq_ok h
  split at hrest
  · cases hrest
  · split at hrest <;> cases hrest
    exact ⟨_, body, rfl⟩

theorem emptyBlock_not_framed {codec : Codec} {data : Bytes} :
    encodeFrame codec data method ≠ .ok writeEmptyBlockBody := by
  intro h
  obtain ⟨hash, body, hbytes⟩ := encodeFrame_ne_nil h
  have hplain : writeEmptyBlockBody = [1, 0, 2, 0xFF, 0xFF, 0xFF, 0xFF, 0, 0, 0] := by decide
  rw [hplain] at hbytes
  have hlen := congrArg List.length hbytes
  simp only [length_append, length_cons, leBytes_length, length_nil] at hlen
  -- the method would be one of the first two bytes
  match hash, hlen with
  | [], _ =>
    have hfirst := head_eq_of_cons_eq hbytes
    cases method <;> exact absurd hfirst (by decide)
  | [_], _ =>
    have hsecond := head_eq_of_cons_eq (tail_eq_of_cons_eq hbytes)
    cases method <;> exact absurd hsecond (by decide)
  | _ :: _ :: hash, hlen =>
    rw [length_cons, length_cons] at hlen
    omega

/-- The configured compressor is there and takes the empty block. -/
def CompressesEmptyBlock (cfg : ClientConfig) : Prop :=
  ∀ method, cfg.compression = some method → method ≠ .none →
    ∃ frame, encodeFrame cfg.codec writeEmptyBlockBody method = .ok frame

theorem emptyDataBlock_framed {cfg : ClientConfig} (hcompression : cfg.compression = some method)
    (hmethod : method ≠ .none) :
    cfg.emptyDataBlock = encodeVarint 2 ++ writeString [] ++
      match encodeFrame cfg.codec writeEmptyBlockBody method with
      | .ok frame => frame
      | .error _ => [] := by
  unfold ClientConfig.emptyDataBlock
  rw [hcompression]
  cases method with
  | none => exact absurd rfl hmethod
  | lz4 | zstd => rfl

theorem trailing_iff (cfg : ClientConfig) :
    DataInForm cfg.codec cfg.flag [] Block.empty cfg.emptyDataBlock
      ↔ cfg.compression ≠ some .none ∧ CompressesEmptyBlock cfg := by
  unfold DataInForm
  cases hcompression : cfg.compression with
  | none =>
    have hflag : cfg.flag = 0 := by
      unfold ClientConfig.flag
      rw [hcompression]
      rfl
    have hplain : cfg.emptyDataBlock = encodeVarint 2 ++ writeString [] ++ writeEmptyBlockBody := by
      unfold ClientConfig.emptyDataBlock
      rw [hcompression]
      rfl
    have hcompresses : CompressesEmptyBlock cfg := by
      intro method hsome
      rw [hcompression] at hsome
      cases hsome
    rw [hflag]
    exact ⟨fun _ => ⟨by simp, hcompresses⟩, fun _ => ⟨_, hplain, rfl⟩⟩
  | some method =>
    have hflag : cfg.flag = 1 := by
      unfold ClientConfig.flag
      rw [hcompression]
      rfl
    rw [hflag]
    by_cases hmethod : method = .none
    · -- the flag is set, the block is written in the clear
      subst hmethod
      have hplain : cfg.emptyDataBlock
          = encodeVarint 2 ++ writeString [] ++ writeEmptyBlockBody := by
        unfold ClientConfig.emptyDataBlock
        rw [hcompression]
        rfl
      constructor
      · rintro ⟨encoded, hbytes, method, hframe⟩
        rw [hplain] at hbytes
        rw [← append_cancel_left hbytes] at hframe
        exact absurd hframe emptyBlock_not_framed
      · exact fun h => absurd rfl h.1
    · have hblock := emptyDataBlock_framed hcompression hmethod
      constructor
      · rintro ⟨encoded, hbytes, method', hframe⟩
        refine ⟨fun h => hmethod (Option.some.inj h), fun m hm _ => ?_⟩
        obtain rfl : method = m := Option.some.inj (hcompression.symm.trans hm)
        cases hown : encodeFrame cfg.codec writeEmptyBlockBody method with
        | ok frame => exact ⟨frame, rfl⟩
        | error e =>
          -- then there is no block behind the table name
          rw [hblock, hown] at hbytes
          obtain ⟨_, _, hframed⟩ := encodeFrame_ne_nil hframe
          rw [← append_cancel_left hbytes] at hframed
          simp at hframed
      · rintro ⟨-, hcompresses⟩
        obtain ⟨frame, hframe⟩ := hcompresses method hcompression hmethod
        refine ⟨frame, ?_, method, hframe⟩
        rw [hblock, hframe]

/-- The Data packets of an INSERT are always in the announced form. -/
theorem inserted_inForm {cfg : ClientConfig} {table : Text} {block : Block} {bytes : Bytes}
    (h : dataPacketOf cfg table block = .ok bytes) :
    DataInForm cfg.codec cfg.flag table block bytes := by
  unfold dataPacketOf at h
  unfold ClientConfig.flag
  rcases hcompression : cfg.compression with _ | method
  · rw [hcompression] at h
    cases h
    exact ⟨_, rfl, rfl⟩
  rw [hcompression] at h
  obtain ⟨frame, hframe, hbytes⟩ := bind_eq_ok h
  cases hbytes
  exact ⟨frame, rfl, method, hframe⟩

/-- **Which packets keep to their own flag**, whatever the revision, the settings with
    their overlay, the parameters and the query: those of a client that has not chosen the
    method `None`, and whose compressor is there. -/
theorem consistent_iff (r : QueryRequest) : b.SelfConsistent r
      ↔ b.config.compression ≠ some .none ∧ CompressesEmptyBlock b.config := by
  constructor
  · exact fun h => (trailing_iff b.config).mp h.trailing
  intro h
  refine ⟨packet_eq b r, (trailing_iff b.config).mpr h, fun _ _ _ => inserted_inForm, ?_⟩
  rw [b.config.replies]
  unfold ClientConfig.flag
  cases b.config.compression <;> rfl

/-- A client with the method `None`. -/
def plainFrames : ClientConfig :=
  { validatingConfig with
    compression := some .none
    calls := { plainConfig with reply := ⟨Revision.default, true⟩ }
    replies := rfl }

/-- **The method `None`** sets the flag, and the empty block behind the query goes out in
    the clear; the Data packets of an INSERT are in frames. -/
theorem plainFrames_inconsistent :
    plainFrames.flag = 1 ∧ plainFrames.emptyDataBlock = writeEmptyData ∧
      ¬ (connect plainFrames).SelfConsistent ⟨[0x71], ['S'], true, [], noSettings⟩ := by
  refine ⟨rfl, rfl, fun h => ?_⟩
  exact absurd rfl ((trailing_iff plainFrames).mp h.trailing).1

end PacketBuilder

/-! ## §3. Overlays. -/

/-- The settings a revision is sent unless the client sets them. -/
def automaticDefaults (rev : Nat) : List (Text × Text) :=
  (if Revision.sparseSerialization ≤ rev then
    [(ratioOfDefaultsForSparseSerialization, ['1'])] else [])
  ++ [(outputFormatNativeWriteJsonAsString, ['1'])]

theorem containsKey_iff {settings : Settings} {name : Text} :
    settings.containsKey name = true ↔ name ∈ settings.entries.map Prod.fst := by
  unfold Settings.containsKey
  simp [any_eq_true]

variable (base overlay : Settings)

theorem containsKey_merge (name : Text) :
    (base.merge overlay).containsKey name
      = (base.containsKey name || overlay.containsKey name) := by
  rw [Bool.eq_iff_iff, Bool.or_eq_true]
  unfold Settings.merge
  by_cases hover : overlay.containsKey name = true
  · have hin := containsKey_iff.mp hover
    simp only [hover, or_true, iff_true]
    refine containsKey_iff.mpr ?_
    rw [map_append]
    exact mem_append_right _ hin
  simp only [hover, Bool.false_eq_true, or_false]
  constructor
  · intro h
    obtain ⟨entry, hentry, hname⟩ := mem_map.mp (containsKey_iff.mp h)
    obtain hbase | hoverlay := mem_append.mp hentry
    · exact containsKey_iff.mpr (mem_map.mpr ⟨entry, (mem_filter.mp hbase).1, hname⟩)
    · exact absurd (containsKey_iff.mpr (mem_map.mpr ⟨entry, hoverlay, hname⟩)) hover
  intro h
  obtain ⟨entry, hentry, hname⟩ := mem_map.mp (containsKey_iff.mp h)
  refine containsKey_iff.mpr (mem_map.mpr ⟨entry, mem_append_left _ ?_, hname⟩)
  refine mem_filter.mpr ⟨hentry, ?_⟩
  rw [hname]
  simpa using hover

variable (rev : Nat)

theorem overlaidSettings_merge :
    overlaidSettings base overlay rev
      = protocolDefaultSettings (base.merge overlay) rev ++ (base.merge overlay).entries := by
  unfold overlaidSettings protocolDefaultSettings
  have hentries : (base.merge overlay).entries
      = (base.entries.filter fun entry => !overlay.containsKey entry.1) ++ overlay.entries := rfl
  rw [hentries]
  simp only [containsKey_merge, Bool.or_eq_true, not_or, append_assoc]

/-- A setting is written if it is of the overlay, of the session and not of the overlay, or
    automatic and of neither. -/
theorem mem_overlaidSettings {base overlay : Settings} {rev : Nat} {entry : Text × Text} :
    entry ∈ overlaidSettings base overlay rev ↔
      entry ∈ overlay.entries ∨
        (entry ∈ base.entries ∧ overlay.containsKey entry.1 = false) ∨
        (entry ∈ automaticDefaults rev ∧ base.containsKey entry.1 = false ∧
          overlay.containsKey entry.1 = false) := by
  unfold overlaidSettings automaticDefaults
  simp only [mem_append, mem_filter, Bool.not_eq_true', mem_ite_nil_right,
    mem_singleton, Bool.not_eq_true]
  constructor
  · rintro (((⟨⟨hrev, hbase, hover⟩, rfl⟩ | ⟨⟨hbase, hover⟩, rfl⟩) | hbase) | hover)
    · exact .inr (.inr ⟨.inl ⟨hrev, rfl⟩, hbase, hover⟩)
    · exact .inr (.inr ⟨.inr rfl, hbase, hover⟩)
    · exact .inr (.inl hbase)
    · exact .inl hover
  rintro (hover | hbase | ⟨⟨hrev, rfl⟩ | rfl, hbase, hover⟩)
  · exact .inr hover
  · exact .inl (.inr hbase)
  · exact .inl (.inl (.inl ⟨⟨hrev, hbase, hover⟩, rfl⟩))
  · exact .inl (.inl (.inr ⟨⟨hbase, hover⟩, rfl⟩))

theorem nodup_overlaidSettings :
    ((overlaidSettings base overlay rev).map Prod.fst).Nodup := by
  have hdefault : ∀ name ∈ (protocolDefaultSettings (base.merge overlay) rev).map Prod.fst,
      (base.merge overlay).containsKey name = false := by
    intro name hname
    unfold protocolDefaultSettings at hname
    rw [map_append, mem_append] at hname
    obtain h | h := hname
    · split at h
      · rename_i habsent
        rw [map_singleton, mem_singleton] at h
        rw [h]
        exact Bool.not_eq_true _ ▸ habsent.2
      · cases h
    split at h
    · rename_i habsent
      rw [map_singleton, mem_singleton] at h
      rw [h]
      exact Bool.not_eq_true _ ▸ habsent
    · cases h
  rw [overlaidSettings_merge, map_append, nodup_append]
  refine ⟨?_, (base.merge overlay).nodup, ?_⟩
  · have hne : ratioOfDefaultsForSparseSerialization ≠ outputFormatNativeWriteJsonAsString := by
      decide
    unfold protocolDefaultSettings
    split <;> split <;> simp [hne]
  intro name hname name' hname' heq
  have habsent := hdefault name hname
  rw [heq, containsKey_iff.mpr hname'] at habsent
  cases habsent

theorem overlaidSettings_perm {m merged : Settings} (h : m.entries.Perm merged.entries) (rev : Nat) :
    (protocolDefaultSettings merged rev ++ merged.entries).Perm (overlaidSettings m noSettings rev) := by
  have hkeys : ∀ name, m.containsKey name = merged.containsKey name := by
    intro name
    rw [Bool.eq_iff_iff, containsKey_iff, containsKey_iff]
    exact (h.map Prod.fst).mem_iff
  have hdefaults : protocolDefaultSettings m rev = protocolDefaultSettings merged rev := by
    unfold protocolDefaultSettings
    rw [hkeys, hkeys]
  rw [PacketBuilder.overlaidSettings_none, hdefaults]
  exact (h.symm).append_left _

/-- What is done with a client between its packets. -/
inductive BuilderCall where
  | setSetting (name value : Text)
  | withCompression (method : CompressionMethod)
  | build (r : QueryRequest)

namespace PacketBuilder

/-- The client after a call; building takes `&self`. -/
def apply (b : PacketBuilder) : BuilderCall → PacketBuilder
  | .setSetting name value => b.setSetting name value
  | .withCompression method => b.withCompression method
  | .build _ => b

/-- The client after calls. -/
def after (b : PacketBuilder) (calls : List BuilderCall) : PacketBuilder := calls.foldl apply b

/-- The packets calls build. -/
def packets : PacketBuilder → List BuilderCall → List Bytes
  | _, [] => []
  | b, .build r :: calls => b.buildQueryPacketInner r :: packets b calls
  | b, .setSetting name value :: calls => packets (b.setSetting name value) calls
  | b, .withCompression method :: calls => packets (b.withCompression method) calls

theorem packets_append (b : PacketBuilder) (before later : List BuilderCall) :
    b.packets (before ++ later) = b.packets before ++ (b.after before).packets later := by
  induction before generalizing b with
  | nil => rfl
  | cons call before ih =>
    cases call with
    | setSetting name value => exact ih (b.setSetting name value)
    | withCompression method => exact ih (b.withCompression method)
    | build r => exact congrArg _ (ih b)

/-- **An overlay is a session with the merged settings, for one packet.**  After any calls,
    the packet with the overlay is, up to the order of the settings, the one of a client
    whose session has the merged map, in whatever order that map is kept: every key is
    written once, and a default where neither map has its key.  The packets built later are
    those that are built without it. -/
theorem overlay_is_session (c : PacketBuilder) (before later : List BuilderCall)
    (r : QueryRequest) (m : Settings)
    (hm : m.entries.Perm ((c.after before).config.settings.merge r.settings).entries) :
    (∃ (front : Bytes) (entries entries' : List (Text × Text)) (rest : Bytes),
      (c.after before).buildQueryPacketInner r
          = front ++ (entries.flatMap writeSetting ++ rest) ∧
        (connect { (c.after before).config with settings := m }).buildQueryPacketInner
            { r with settings := noSettings }
          = front ++ (entries'.flatMap writeSetting ++ rest) ∧
        entries.Perm entries' ∧ (entries.map Prod.fst).Nodup ∧
        ∀ entry, entry ∈ entries ↔
          entry ∈ r.settings.entries ∨
            (entry ∈ (c.after before).config.settings.entries ∧
              r.settings.containsKey entry.1 = false) ∨
            (entry ∈ automaticDefaults (c.after before).config.rev ∧
              (c.after before).config.settings.containsKey entry.1 = false ∧
              r.settings.containsKey entry.1 = false)) ∧
      ∃ earlier packet afterwards,
        c.packets (before ++ .build r :: later) = earlier ++ packet :: afterwards ∧
          c.packets (before ++ later) = earlier ++ afterwards := by
  constructor
  · generalize c.after before = b at hm ⊢
    refine ⟨b.beforeSettings r.queryId,
      overlaidSettings b.config.settings r.settings b.config.rev,
      overlaidSettings m noSettings b.config.rev,
      writeString [] ++ (b.config.afterSettings ++ (writeString r.query ++ (b.parameterBytes r.params
        ++ if r.includeEmptyBlock then b.config.emptyDataBlock else []))), ?_, ?_, ?_,
      nodup_overlaidSettings _ _ _, fun entry => mem_overlaidSettings⟩
    · rw [packet_eq]
      unfold writeSerializedSettingsOverlay
      rw [append_assoc]
    · -- all but the settings is the same, whatever they are
      rw [packet_eq]
      unfold writeSerializedSettingsOverlay
      rw [append_assoc]
      rfl
    · rw [overlaidSettings_merge]
      exact overlaidSettings_perm hm _
  · refine ⟨c.packets before, (c.after before).buildQueryPacketInner r, (c.after before).packets later,
      ?_, packets_append c before later⟩
    rw [packets_append]
    rfl

/-- A session with two settings, one of which a query overrides. -/
theorem overlay_is_session_threads :
    ∃ earlier packet afterwards,
      (connect validatingConfig).packets
          [.setSetting "max_threads".toList ['4'], .setSetting "a".toList ['1'],
            .build ⟨[0x71], ['S'], true, [], ⟨[("max_threads".toList, ['9'])], by simp⟩⟩,
            .build ⟨[0x72], ['T'], true, [], noSettings⟩]
        = earlier ++ packet :: afterwards ∧
      (connect validatingConfig).packets
          [.setSetting "max_threads".toList ['4'], .setSetting "a".toList ['1'],
            .build ⟨[0x72], ['T'], true, [], noSettings⟩]
        = earlier ++ afterwards :=
  (overlay_is_session (connect validatingConfig)
    [.setSetting "max_threads".toList ['4'], .setSetting "a".toList ['1']]
    [.build ⟨[0x72], ['T'], true, [], noSettings⟩]
    ⟨[0x71], ['S'], true, [], ⟨[("max_threads".toList, ['9'])], by simp⟩⟩
    ⟨[("max_threads".toList, ['9']), ("a".toList, ['1'])], by decide⟩ (by decide)).2

end PacketBuilder

end Sync

end StClickHouse
