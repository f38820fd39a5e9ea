/-
  StClickHouse.Sync.StreamTurn
  **ONE TURN OF A STREAMED RESPONSE.**

  `packet` reads a packet that lies before the reader as a whole.  A turn of
  `read_next_block` is given by what `packet` makes of the bytes in the buffer: it handles the
  packet, it reads more bytes where there is a protocol error, and it reports any other.  Two
  kinds of turn are not: a packet that is read through frames (`Framed`), and a ProfileInfo
  packet that is cut before a flag (`cutBeforeFlag`).

  Main results:
    * `turn_reads`, `turn_lacks`, `turn_refuses` — a turn, by the front of the buffer
    * `buffered_cut`            — a packet of which only a part is in the buffer
-/
import StClickHouse.Sync.Truncated

namespace StClickHouse

open ByteReader RustText List

namespace Sync

/-! ## §1. Packets. -/

/-- The fields of a ProfileInfo packet. -/
def profileInfoFields (rev : Nat) : Read Slice Unit := do
  times 3 skipVarint
  let _appliedLimit ← parseU8
  skipVarint
  let _calculatedRowsBeforeLimit ← parseU8
  if rowsBeforeAggregation ≤ rev then do
    let _appliedAggregation ← parseU8
    skipVarint
  else return ()

/-- The bytes in front of the others. -/
def pushFront (bytes : Bytes) : Read Slice Unit := fun s => (.ok (), bytes ++ s)

/-- A compressed packet; what its frames hold behind the block is read after it. -/
def framedPacket (cfg : Config) (packetType : Nat) : Read Slice Packet :=
  if packetType = 11 then skips (decompressing cfg.env readTableColumns)
  else do
    let _name ← parseString
    let out ← decompressing cfg.env (withPending (readBlockBody cfg.env.depth))
    pushFront out.2
    return if packetType = 1 then .block out.1 else .skipped

/-- A packet that lies before the reader as a whole. -/
def packet (cfg : Config) : Read Slice Packet := do
  let packetType ← parseVarint
  if cfg.reply.compressed = true ∧ compressedType packetType = true then
    framedPacket cfg packetType
  else if packetType = 6 then skips (profileInfoFields cfg.reply.rev)
  else bufferedPacket cfg packetType

/-- The body of a ProfileInfo packet ends right before one of its first two flags. -/
def endsBeforeFlag (body : Bytes) : Bool :=
  match times 3 skipVarint body with
  | (.ok (), []) => true
  | (.ok (), _ :: rest) =>
    match skipVarint rest with
    | (.ok (), []) => true
    | _ => false
  | _ => false

/-! ## §2. Parsers that fail with protocol errors only. -/

/-- Every error of the parser is a protocol error, which a stream waits on. -/
def FailsProtocol {α : Type} (x : Read Slice α) : Prop :=
  ∀ (s r : Bytes) (e : Stop Error), x s = (.error e, r) → ∃ msg, e = .error (.protocol msg)

namespace FailsProtocol

variable {α β : Type} {x : Read Slice α}

theorem pure (a : α) : FailsProtocol (Pure.pure a : Read Slice α) := nofun

theorem bind {f : α → Read Slice β} (hx : FailsProtocol x)
    (hf : ∀ a, FailsProtocol (f a)) : FailsProtocol (x >>= f) := by
  intro s r e h
  rw [bind_apply] at h
  rcases hrun : x s with ⟨res, s'⟩
  rw [hrun] at h
  cases res with
  | error e' =>
    cases h
    exact hx s _ _ hrun
  | ok a => exact hf a s' r e h

theorem sliceTake (msg : String) (n : Nat) : FailsProtocol (sliceTake msg n) := by
  intro s r e h
  unfold StClickHouse.sliceTake at h
  split at h <;> cases h
  exact ⟨_, rfl⟩

theorem parseVarint : FailsProtocol parseVarint := by
  have hbyte : FailsProtocol (sliceByte "unexpected end of buffer parsing varint") :=
    .bind (.sliceTake _ 1) fun _ => .pure _
  have hoverflow : FailsProtocol (fail varintOverflow : Read Slice Nat) := by
    intro s r e h
    cases h
    exact ⟨_, rfl⟩
  have hloop : ∀ left shift acc, FailsProtocol (varintLoop
      (sliceByte "unexpected end of buffer parsing varint")
      (do let _ ← sliceByte "unexpected end of buffer parsing varint"; fail varintOverflow)
      left shift acc) := by
    intro left
    induction left with
    | zero => exact fun _ _ => .bind hbyte fun _ => hoverflow
    | succ left ih =>
      intro shift acc
      refine .bind hbyte fun byte => ?_
      split
      · exact hoverflow
      · split
        · exact .pure _
        · exact ih _ _
  exact hloop 10 0 0

theorem skipVarint : FailsProtocol skipVarint := .bind .parseVarint fun _ => .pure _

theorem parseU8 : FailsProtocol parseU8 := .bind (.sliceTake _ 1) fun _ => .pure _

theorem threeVarints : FailsProtocol (times 3 Sync.skipVarint) :=
  .bind .skipVarint fun _ => .bind .skipVarint fun _ => .bind .skipVarint fun _ => .pure _

theorem profileInfoFields (rev : Nat) : FailsProtocol (profileInfoFields rev) := by
  refine .bind .threeVarints fun _ => .bind .parseU8 fun _ => .bind .skipVarint fun _ =>
    .bind .parseU8 fun _ => ?_
  split
  · exact .bind .parseU8 fun _ => .skipVarint
  · exact .pure _

end FailsProtocol

namespace QueryStream

variable {q q' : QueryStream} {p : Packet} {rest body s r : Bytes}

theorem parseU8_ok {b : UInt8} (h : parseU8 s = (.ok b, r)) : s = b :: r := by
  rcases s with _ | ⟨x, xs⟩
  · cases h
  cases h
  rfl

theorem skipVarint_ok (h : skipVarint s = (.ok (), r)) :
    ∃ v, parseVarint s = (.ok v, r) := by
  obtain ⟨v, r', hrun, hdone⟩ := bind_eq_ok_iff.mp h
  cases hdone
  exact ⟨v, hrun⟩

theorem skipVarint_of {v : Nat} (h : parseVarint s = (.ok v, r)) :
    skipVarint s = (.ok (), r) := bind_ok h

/-! ## §3. One turn. -/

/-- The packet at the front is read through frames, not out of the buffer. -/
def Framed (q : QueryStream) : Prop :=
  q.bytes.cfg.reply.compressed = true ∧
    ∃ packetType body, parseVarint q.bytes.rest = (.ok packetType, body) ∧
      compressedType packetType = true

/-- The packet at the front of the buffer, in full. -/
structure Reads (q : QueryStream) (p : Packet) (rest : Bytes) : Prop where
  buffered : ¬ Framed q
  parsed : packet q.bytes.cfg q.bytes.rest = (.ok p, rest)

/-- The bytes in the buffer are no packet: there are too few of them, or they are malformed. -/
structure Lacks (q : QueryStream) : Prop where
  buffered : ¬ Framed q
  fails : ∃ msg rest, packet q.bytes.cfg q.bytes.rest = (.error (.error (.protocol msg)), rest)

/-- The bytes in the buffer fail to parse in a way that is reported. -/
structure Refuses (q : QueryStream) (e : Stop Error) (rest : Bytes) : Prop where
  buffered : ¬ Framed q
  fails : packet q.bytes.cfg q.bytes.rest = (.error e, rest)
  reported : ∀ msg, e ≠ .error (.protocol msg)

/-- The bytes in the buffer are an exception packet, or the start of one. -/
def inException (q : QueryStream) : Bool :=
  match parseVarint q.bytes.rest with
  | (.ok 2, _) => true
  | _ => false

/-- The buffer ends before one of the first two flags of a ProfileInfo packet that has the last
    two fields: the place the stream does not come back from. -/
def cutBeforeFlag (q : QueryStream) : Bool :=
  match parseVarint q.bytes.rest with
  | (.ok 6, body) => rowsBeforeAggregation ≤ q.bytes.cfg.reply.rev && endsBeforeFlag body
  | _ => false

theorem front_cases (q : QueryStream) :
    Framed q ∨ (∃ p rest, Reads q p rest) ∨ Lacks q ∨ ∃ e rest, Refuses q e rest := by
  by_cases hframed : Framed q
  · exact .inl hframed
  rcases hpacket : packet q.bytes.cfg q.bytes.rest with ⟨res, rest⟩
  rcases res with (e | _) | p
  · cases e with
    | protocol msg => exact .inr (.inr (.inl ⟨hframed, msg, rest, hpacket⟩))
    | _ => exact .inr (.inr (.inr ⟨_, rest, hframed, hpacket, nofun⟩))
  · exact .inr (.inr (.inr ⟨_, rest, hframed, hpacket, nofun⟩))
  · exact .inr (.inl ⟨p, rest, hframed, hpacket⟩)

/-- What is not framed is parsed out of the buffer, behind its type. -/
theorem packet_buffered (hframed : ¬ Framed q) {packetType : Nat}
    (htype : parseVarint q.bytes.rest = (.ok packetType, body)) :
    packet q.bytes.cfg q.bytes.rest
      = (if packetType = 6 then skips (profileInfoFields q.bytes.cfg.reply.rev)
        else bufferedPacket q.bytes.cfg packetType) body := by
  have hplain : ¬ (q.bytes.cfg.reply.compressed = true ∧ compressedType packetType = true) :=
    fun h => hframed ⟨h.1, packetType, body, htype, h.2⟩
  unfold packet
  rw [bind_ok htype, if_neg hplain]

theorem turn_buffered (hframed : ¬ Framed q) {packetType : Nat}
    (htype : parseVarint q.bytes.rest = (.ok packetType, body)) :
    turn q = if packetType = 6 then profileInfo body q else parsed packetType body q := by
  have hplain : ¬ (q.bytes.cfg.reply.compressed = true ∧ compressedType packetType = true) :=
    fun h => hframed ⟨h.1, packetType, body, htype, h.2⟩
  have hne : q.bytes.rest ≠ [] := by
    intro hnil
    rw [hnil] at htype
    cases htype
  unfold turn
  rw [if_neg hne, htype]
  dsimp only
  rw [if_neg hplain]

theorem profileInfo_reads
    (h : profileInfoFields q.bytes.cfg.reply.rev body = (.ok (), rest)) :
    profileInfo body q = (.ok (.more ()), q.moved rest) := by
  obtain ⟨_, r₁, hthree, hbehind⟩ := bind_eq_ok_iff.mp h
  obtain ⟨limit, r₂, hlimit, hbehind⟩ := bind_eq_ok_iff.mp hbehind
  obtain ⟨_, r₃, hrows, hbehind⟩ := bind_eq_ok_iff.mp hbehind
  obtain ⟨calculated, r₄, hcalculated, hlast⟩ := bind_eq_ok_iff.mp hbehind
  obtain rfl := parseU8_ok hlimit
  obtain rfl := parseU8_ok hcalculated
  obtain ⟨v, hvarint⟩ := skipVarint_ok hrows
  unfold profileInfo
  rw [hthree]
  dsimp only
  rw [hvarint]
  dsimp only
  by_cases hrev : rowsBeforeAggregation ≤ q.bytes.cfg.reply.rev
  · rw [if_pos hrev] at hlast
    rw [if_pos (show q.hasAggregationFields from hrev)]
    obtain ⟨applied, r₅, hflag, hvarints⟩ := bind_eq_ok_iff.mp hlast
    obtain rfl := parseU8_ok hflag
    obtain ⟨w, hvarint'⟩ := skipVarint_ok hvarints
    unfold aggregationFields
    dsimp only
    rw [hvarint']
  · rw [if_neg hrev] at hlast
    rw [if_neg (show ¬ q.hasAggregationFields from hrev)]
    cases hlast
    rfl

/-- A ProfileInfo packet that is cut before a flag is waited for like any other, where it does
    not have the last two fields. -/
theorem profileInfoCut_again (h : ¬ rowsBeforeAggregation ≤ q.bytes.cfg.reply.rev) :
    profileInfoCut q = again q := by
  have hcfg : ∀ {q' : QueryStream}, fillBuffer q = (.ok (), q') → q'.bytes.cfg = q.bytes.cfg := by
    intro q' hfill
    unfold fillBuffer at hfill
    split at hfill
    case h_5 =>
      split at hfill <;> cases hfill
      rfl
    all_goals cases hfill <;> rfl
  unfold profileInfoCut again
  rw [bind_apply]
  rcases hfill : fillBuffer q with ⟨res, q'⟩
  cases res with
  | error e => rfl
  | ok _ =>
    dsimp only
    rw [if_neg (by unfold hasAggregationFields; rw [hcfg hfill]; exact h)]
    rfl

theorem profileInfo_lacks {e : Stop Error}
    (h : profileInfoFields q.bytes.cfg.reply.rev body = (.error e, rest))
    (hcut : rowsBeforeAggregation ≤ q.bytes.cfg.reply.rev → endsBeforeFlag body = false) :
    profileInfo body q = again q := by
  have hends : endsBeforeFlag body = true → profileInfoCut q = again q := fun hends =>
    profileInfoCut_again fun hrev => by
      rw [hcut hrev] at hends
      cases hends
  unfold profileInfoFields at h
  unfold profileInfo
  rcases hthree : times 3 skipVarint body with ⟨res, r₁⟩
  rcases res with e₁ | _
  · obtain ⟨msg, rfl⟩ := FailsProtocol.threeVarints _ _ _ hthree
    rfl
  rw [bind_ok hthree] at h
  rcases r₁ with _ | ⟨limit, r₁⟩
  · exact hends (by unfold endsBeforeFlag; rw [hthree])
  rw [bind_ok (show parseU8 (limit :: r₁) = (.ok limit, r₁) from rfl)] at h
  dsimp only
  rcases hvarint : parseVarint r₁ with ⟨res, r₂⟩
  rcases res with e₂ | v
  · obtain ⟨msg, rfl⟩ := FailsProtocol.parseVarint _ _ _ hvarint
    rfl
  rw [bind_ok (skipVarint_of hvarint)] at h
  rcases r₂ with _ | ⟨calculated, r₂⟩
  · refine hends ?_
    unfold endsBeforeFlag
    rw [hthree]
    dsimp only
    rw [skipVarint_of hvarint]
  rw [bind_ok (show parseU8 (calculated :: r₂) = (.ok calculated, r₂) from rfl)] at h
  dsimp only
  by_cases hrev : rowsBeforeAggregation ≤ q.bytes.cfg.reply.rev
  · rw [if_pos hrev] at h
    rw [if_pos (show q.hasAggregationFields from hrev)]
    unfold aggregationFields
    rcases r₂ with _ | ⟨applied, r₂⟩
    · rfl
    rw [bind_ok (show parseU8 (applied :: r₂) = (.ok applied, r₂) from rfl)] at h
    dsimp only
    rcases hlast : parseVarint r₂ with ⟨res, r₃⟩
    rcases res with e₃ | w
    · obtain ⟨msg, rfl⟩ := FailsProtocol.parseVarint _ _ _ hlast
      rfl
    · rw [skipVarint_of hlast] at h
      cases h
  · rw [if_neg hrev] at h
    cases h

/-- **A packet in the buffer is handled.** -/
theorem turn_reads (h : Reads q p rest) : turn q = handle p (q.moved rest) := by
  obtain ⟨hframed, hpacket⟩ := h
  obtain ⟨packetType, body, htype, _⟩ := bind_eq_ok_iff.mp hpacket
  rw [packet_buffered hframed htype] at hpacket
  rw [turn_buffered hframed htype]
  by_cases hsix : packetType = 6
  · rw [if_pos hsix] at hpacket ⊢
    obtain ⟨_, r, hfields, hdone⟩ := bind_eq_ok_iff.mp hpacket
    cases hdone
    exact profileInfo_reads hfields
  · rw [if_neg hsix] at hpacket ⊢
    unfold parsed
    rw [hpacket]

/-- **What is no packet is waited for**: it is parsed again from its start. -/
theorem turn_lacks (h : Lacks q) (hcut : q.cutBeforeFlag = false) :
    turn q = if q.inException = true then againException q else again q := by
  obtain ⟨hframed, msg, rest, hpacket⟩ := h
  unfold inException
  rcases htype : parseVarint q.bytes.rest with ⟨res, body⟩
  rcases res with e | packetType
  · obtain ⟨msg', rfl⟩ := FailsProtocol.parseVarint _ _ _ htype
    unfold turn
    rw [htype]
    split <;> rfl
  rw [packet_buffered hframed htype] at hpacket
  rw [turn_buffered hframed htype]
  by_cases hsix : packetType = 6
  · subst hsix
    rw [if_pos rfl] at hpacket ⊢
    rcases hfields : profileInfoFields q.bytes.cfg.reply.rev body with ⟨res, r⟩
    rcases res with e | _
    · refine profileInfo_lacks hfields fun hrev => ?_
      unfold cutBeforeFlag at hcut
      rw [htype] at hcut
      simpa [hrev] using hcut
    · unfold skips at hpacket
      rw [bind_ok hfields] at hpacket
      cases hpacket
  · rw [if_neg hsix] at hpacket ⊢
    unfold parsed
    rw [hpacket]
    dsimp only
    by_cases htwo : packetType = 2
    · subst htwo
      rfl
    · rw [if_neg htwo, if_neg]
      split
      · rename_i heq
        cases heq
        exact absurd rfl htwo
      · decide

/-- **Any other failure is reported.** -/
theorem turn_refuses {e : Stop Error} (h : Refuses q e rest) : turn q = (.error e, q.moved rest) := by
  obtain ⟨hframed, hpacket, hreported⟩ := h
  rcases htype : parseVarint q.bytes.rest with ⟨res, body⟩
  rcases res with e' | packetType
  · obtain ⟨msg, rfl⟩ := FailsProtocol.parseVarint _ _ _ htype
    unfold packet at hpacket
    rw [bind_error htype] at hpacket
    cases hpacket
    exact absurd rfl (hreported msg)
  rw [packet_buffered hframed htype] at hpacket
  rw [turn_buffered hframed htype]
  by_cases hsix : packetType = 6
  · rw [if_pos hsix] at hpacket
    obtain ⟨msg, rfl⟩ := FailsProtocol.bind (.profileInfoFields _) (fun _ => .pure _) _ _ _ hpacket
    exact absurd rfl (hreported msg)
  · rw [if_neg hsix] at hpacket ⊢
    unfold parsed
    rw [hpacket]
    split
    · rename_i heq
      cases heq
    · rename_i msg _ heq
      cases heq
      exact absurd rfl (hreported msg)
    · rename_i heq
      cases heq
      rfl

/-- A packet that is read through frames. -/
theorem turn_framed {packetType : Nat} (htype : parseVarint q.bytes.rest = (.ok packetType, body))
    (hframed : q.bytes.cfg.reply.compressed = true ∧ compressedType packetType = true) :
    turn q = compressedPacket packetType (q.moved body) := by
  have hne : q.bytes.rest ≠ [] := by
    intro hnil
    rw [hnil] at htype
    cases htype
  unfold turn
  rw [if_neg hne, htype]
  dsimp only
  rw [if_pos hframed]

/-- A packet that is waited for, by what the fill comes to. -/
theorem turn_waits (h : Lacks q) (hcut : q.cutBeforeFlag = false)
    {res : Readout Unit} (hfill : fillBuffer q = (res, q'))
    (hgrows : q.inException = true → q'.bytes.rest.length ≠ q.bytes.rest.length ∨
      ∃ e, res = .error e) :
    turn q = (res.map fun _ => .more (), q') := by
  rw [turn_lacks h hcut]
  by_cases hexception : q.inException = true
  · rw [if_pos hexception]
    unfold againException
    rw [hfill]
    cases res with
    | error e => rfl
    | ok _ =>
      obtain hne | ⟨e, he⟩ := hgrows hexception
      · dsimp only
        rw [if_neg hne]
        rfl
      · cases he
  · rw [if_neg hexception]
    unfold again
    rw [bind_apply, hfill]
    cases res <;> rfl

theorem profileInfoFields_cut (rev : Nat) : Cuttable (profileInfoFields rev) :=
  .bind (.times skipVarint_cut 3) fun _ => .bind parseU8_cut fun _ => .bind skipVarint_cut fun _ =>
    .bind parseU8_cut fun _ => .ite (.bind parseU8_cut fun _ => skipVarint_cut) (.pure ())

/-- **A packet of which the first bytes are in the buffer**: all of them are, or more is to
    come and the stream waits. -/
theorem buffered_cut {more : Bytes} (hframed : ¬ Framed q)
    (hpacket : packet q.bytes.cfg (q.bytes.rest ++ more) = (.ok p, rest)) :
    (∃ rest', Reads q p rest' ∧ rest = rest' ++ more) ∨ Lacks q ∧ more ≠ [] := by
  obtain ⟨packetType, body, htype, hbehind⟩ := bind_eq_ok_iff.mp hpacket
  obtain ⟨body', hrun, rfl⟩ | ⟨msg, r, hrun, hmore⟩ := parseVarint_cut.cases htype
  · have hplain : ¬ (q.bytes.cfg.reply.compressed = true ∧ compressedType packetType = true) :=
      fun h => hframed ⟨h.1, packetType, body', hrun, h.2⟩
    have hcuttable : Cuttable (if packetType = 6 then skips (profileInfoFields q.bytes.cfg.reply.rev)
        else bufferedPacket q.bytes.cfg packetType) :=
      .ite (skips_cut (profileInfoFields_cut _)) (bufferedPacket_cut _ _)
    rw [if_neg hplain] at hbehind
    obtain ⟨rest', hall, rfl⟩ | ⟨msg, r, hfails, hmore⟩ := hcuttable.cases hbehind
    · exact .inl ⟨rest', ⟨hframed, (packet_buffered hframed hrun).trans hall⟩, rfl⟩
    · exact .inr ⟨⟨hframed, msg, r, (packet_buffered hframed hrun).trans hfails⟩, hmore⟩
  · exact .inr ⟨⟨hframed, msg, r, bind_error hrun⟩, hmore⟩

end QueryStream

end Sync

end StClickHouse
