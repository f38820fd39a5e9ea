/-
  StClickHouse.Async.Announced
  **A RESPONSE UNDER THE ANNOUNCED COMPRESSION.**

  The server sends the bodies of Data and ProfileEvents packets in frames if the query
  announced compression, and everything else as it stands.  A response is compared with
  the same response in the clear: every packet is read to its end, and the terminal
  returns the same.

      terminal_respects_iff  — which terminals respect the announcement
-/
import StClickHouse.Async.Boundary
import StClickHouse.Async.RowStream
import StClickHouse.Pool.Hygiene
import StClickHouse.Query.Packet

namespace StClickHouse

open ByteReader RustText List

/-! ## §1. Responses. -/

/-- The frames of one body: they carry bytes, and are within the caps of the reader.
(`maxPulls` is the model's own bound on the frames of a body.) -/
structure BodyFrames (env : Env) where
  frames : List (Framed env.codec)
  ne : frames ≠ []
  filled : ∀ f ∈ frames, f.payload ≠ []
  pulls : frames.length ≤ env.depth
  small : (payloads frames).length ≤ maxBlockBytes

/-- A table name on the wire. -/
structure WireName where
  bytes : Bytes
  text : Text
  parses : Parses (readStringAsync (σ := Bytes)) bytes text

/-- A packet that does not end a response. -/
inductive ResponsePacket (env : Env) where
  | data (name : WireName) (body : BodyFrames env)
  | profileEvents (name : WireName) (body : BodyFrames env)
  /-- Any other packet, whose body is never framed. -/
  | other (kind : Nat) (body : Bytes) (small : kind < 128) 
      (own : kind ≠ 1 ∧ kind ≠ 14 ∧ kind ≠ 5 ∧ kind ≠ 2)

namespace ResponsePacket

variable {env : Env}

/-- The packet type. -/
def kind : ResponsePacket env → Nat
  | .data _ _ => 1
  | .profileEvents _ _ => 14
  | .other kind _ _ _ => kind

/-- The body, in frames or in the clear. -/
def body (compressed : Bool) : ResponsePacket env → Bytes
  | .data name body => name.bytes ++ if compressed then wires body.frames else payloads body.frames
  | .profileEvents name body =>
    name.bytes ++ if compressed then wires body.frames else payloads body.frames
  | .other _ body _ _ => body

/-- The packet on the wire. -/
def bytes (compressed : Bool) (p : ResponsePacket env) : Bytes :=
  UInt8.ofNat p.kind :: p.body compressed

theorem kind_lt : ∀ p : ResponsePacket env, p.kind < 128
  | .data _ _ => (by decide : 1 < 128)
  | .profileEvents _ _ => (by decide : 14 < 128)
  | .other _ _ small _ => small

theorem kind_goes_on : ∀ p : ResponsePacket env, p.kind ≠ 5 ∧ p.kind ≠ 2
  | .data _ _ => (by decide : 1 ≠ 5 ∧ 1 ≠ 2)
  | .profileEvents _ _ => (by decide : 14 ≠ 5 ∧ 14 ≠ 2)
  | .other _ _ _ own => own.2.2

end ResponsePacket

/-- The packet that ends a response. -/
inductive Ending where
  | endOfStream
  | exception (bytes : Bytes) (e : Error)
      (parses : Parses (readException (σ := Bytes)) bytes e)

/-- Its bytes. -/
def Ending.bytes : Ending → Bytes
  | .endOfStream => [5]
  | .exception bytes _ _ => 2 :: bytes

/-! ## §2. Walks over a response. -/

section Walks

variable {env : Env} {H R : Type}

/-- Every packet on its own is read to its end, in the clear: a well-formed response. -/
inductive Decodes (w : PacketWalk H R) : List (ResponsePacket env) → H → Net → H → Net → Prop
  | nil (h : H) (t : Net) : Decodes w [] h t h t
  | cons {p : ResponsePacket env} {ps : List (ResponsePacket env)} {h h₁ h₂ : H} {t t₁ t₂ : Net} :
      w.body p.kind h { t with incoming := p.body false } = (.ok (.more h₁), t₁) →
      t₁.incoming = [] → Decodes w ps h₁ t₁ h₂ t₂ → Decodes w (p :: ps) h t h₂ t₂

/-- The packets are read one after the other, each to its end, and `rest` is left. -/
inductive Passes (w : PacketWalk H R) (compressed : Bool) (rest : Bytes) :
    List (ResponsePacket env) → H → Net → H → Net → Prop
  | nil {h : H} {s : Net} : s.incoming = rest → Passes w compressed rest [] h s h s
  | cons {p : ResponsePacket env} {ps : List (ResponsePacket env)} {h h₁ h₂ : H}
      {s s₁ s₂ s₃ : Net} :
      s.incoming = (p :: ps).flatMap (ResponsePacket.bytes compressed) ++ rest →
      w.header s = (.ok p.kind, s₁) → w.body p.kind h s₁ = (.ok (.more h₁), s₂) →
      Passes w compressed rest ps h₁ s₂ h₂ s₃ → Passes w compressed rest (p :: ps) h s h₂ s₃

/-- A walk reads packet types, and a packet as the walk in the clear reads it. -/
structure Alike (env : Env) (clear w : PacketWalk H R) (compressed : Bool) : Prop where
  header : ∀ {kind : Nat} {t : Net} (more : Bytes), kind < 128 → t.waits = [] →
    w.header { t with incoming := UInt8.ofNat kind :: more } = (.ok kind, { t with incoming := more })
  body : ∀ {p : ResponsePacket env} {h h₁ : H} {t t₁ : Net} (rest : Bytes), t.waits = [] →
    clear.body p.kind h { t with incoming := p.body false } = (.ok (.more h₁), t₁) →
    t₁.incoming = [] →
    w.body p.kind h { t with incoming := p.body compressed ++ rest }
      = (.ok (.more h₁), { t₁ with incoming := rest }) ∧ t₁.waits = []
  strict : w.lenient = fun _ => false

variable {clear w : PacketWalk H R} {compressed : Bool}

/-- **A well-formed response passes.** -/
theorem Alike.passes (halike : Alike env clear w compressed) (rest : Bytes)
    {ps : List (ResponsePacket env)} {h h' : H} {t t' : Net} (hdecodes : Decodes clear ps h t h' t')
    (hwaits : t.waits = []) :
    Passes w compressed rest ps h
        { t with incoming := ps.flatMap (ResponsePacket.bytes compressed) ++ rest } h'
        { t' with incoming := rest } ∧ t'.waits = [] := by
  induction hdecodes with
  | nil h t => exact ⟨.nil rfl, hwaits⟩
  | @cons p ps h h₁ h₂ t t₁ t₂ hbody hempty _ ih =>
    obtain ⟨hbody', hwaits'⟩ := halike.body (ps.flatMap (ResponsePacket.bytes compressed) ++ rest)
      hwaits hbody hempty
    obtain ⟨hpasses, hlast⟩ := ih hwaits'
    refine ⟨.cons rfl ?_ hbody' hpasses, hlast⟩
    rw [flatMap_cons, append_assoc]
    exact halike.header _ p.kind_lt hwaits

/-- Packets that pass are turns that go on, for any loop that goes on as the walk does. -/
theorem Passes.turns (hstrict : w.lenient = fun _ => false) {turn : H → Read Net (Turn H R)}
    (hturns : ∀ h s h₁ s₁, w.turn h s = (.ok (.more h₁), s₁) → turn h s = (.ok (.more h₁), s₁))
    {rest : Bytes} {ps : List (ResponsePacket env)} {h h' : H} {s s' : Net}
    (hpasses : Passes w compressed rest ps h s h' s') {fuel : Nat} :
    loop turn (ps.length + fuel) h s = loop turn fuel h' s' := by
  induction hpasses with
  | nil _ => rw [length_nil, zero_add]
  | @cons p ps h h₁ h₂ s s₁ s₂ s₃ _ hheader hbody _ ih =>
    have hturn : w.turn h s = (.ok (.more h₁), s₂) := by
      rw [PacketWalk.turn_body hheader p.kind_goes_on.1 p.kind_goes_on.2 (by rw [hstrict]), hbody]
    rw [length_cons, add_right_comm, loop_more (hturns h s h₁ s₂ hturn), ih]

end Walks

/-! ## §3. Packet types, names and exceptions. -/

/-- A buffer, and a connection that has it to come. -/
def onNet (t : Net) : Corr Error Error Bytes Net where
  state bs s := s = { t with incoming := bs }
  left := fun _ => False
  right := fun _ => False

theorem reads_onNet (t : Net) : Reads (onNet t) := by
  intro n bs s hst
  cases hst
  show SimOut _ _ (if n ≤ bs.length then _ else _) (if n ≤ bs.length then _ else _)
  by_cases hn : n ≤ bs.length
  · rw [if_pos hn, if_pos hn]
    exact ⟨rfl, rfl⟩
  · rw [if_neg hn, if_neg hn]
    trivial

theorem parses_onNet {α : Type} {t : Net} {x : Read Bytes α}
    {y : Read Net α} (hsim : Sim (onNet t) Eq x y) {bs : Bytes} {a : α}
    (h : Parses x bs a) (more : Bytes) :
    y { t with incoming := bs ++ more } = (.ok a, { t with incoming := more }) := by
  have hxy := hsim (bs ++ more) { t with incoming := bs ++ more } rfl
  rw [h more] at hxy
  rcases hy : y { t with incoming := bs ++ more } with ⟨res, s'⟩
  rw [hy] at hxy
  rcases res with e | b
  · exact hxy.elim
  obtain ⟨rfl, rfl⟩ := hxy
  rfl

theorem WireName.read (name : WireName) (t : Net) (more : Bytes) :
    readStringAsync { t with incoming := name.bytes ++ more }
      = (.ok name.text, { t with incoming := more }) :=
  parses_onNet (readStringAsync_both (reads_onNet t)) name.parses more

theorem packetType_parses {kind : Nat} (h : kind < 128) :
    Parses (readVarintAsync (σ := Bytes)) [UInt8.ofNat kind] kind := by
  intro rest
  have hbyte : (UInt8.ofNat kind).toNat = kind := toNat_ofNat_of_lt (by omega)
  unfold readVarintAsync
  rw [singleton_append, bind_ok (readByte_cons _ rest)]
  unfold varintAfter
  rw [hbyte, if_pos h]
  rfl

/-- A connection whose waits are in time has not passed its deadline. -/
theorem elapsed_ok (deadline : Bool) {s : Net} (hwaits : s.waits = []) :
    (if deadline then Net.outOfTime else pure false) s = (.ok false, s) := by
  rcases deadline with _ | _
  · rfl
  show Net.outOfTime s = _
  unfold Net.outOfTime
  rw [hwaits]

section Headers

variable {kind : Nat} {t : Net} (lim : Limits) (more : Bytes)

theorem packetType_within (hkind : kind < 128) (hwaits : t.waits = []) :
    within (readVarintAsync (σ := Net)) { t with incoming := UInt8.ofNat kind :: more }
      = (.ok (some kind), { t with incoming := more }) :=
  within_ok hwaits
    (parses_onNet (readVarintAsync_both (reads_onNet t)) (packetType_parses hkind) more)

theorem readPacketType_ok (env : Env) (late : String) (hkind : kind < 128) (hwaits : t.waits = []) :
    readPacketType env lim late { t with incoming := UInt8.ofNat kind :: more }
      = (.ok kind, { t with incoming := more }) := by
  have helapsed := elapsed_ok lim.deadline
    (show ({ t with incoming := UInt8.ofNat kind :: more } : Net).waits = [] from hwaits)
  unfold readPacketType
  rw [bind_ok helapsed, if_neg (by decide), bind_ok (packetType_within more hkind hwaits)]
  rfl

theorem rowsHeader_ok (hkind : kind < 128) (hwaits : t.waits = []) :
    rowsHeader lim { t with incoming := UInt8.ofNat kind :: more }
      = (.ok kind, { t with incoming := more }) := by
  have helapsed := elapsed_ok lim.deadline
    (show ({ t with incoming := UInt8.ofNat kind :: more } : Net).waits = [] from hwaits)
  unfold rowsHeader
  rw [bind_ok helapsed, if_neg (by decide), bind_ok (packetType_within more hkind hwaits)]
  rfl

end Headers

/-! ## §4. Bodies in frames. -/

/-- What does not read. -/
def Quiet {α : Type} (x : Read Net α) : Prop := ∀ P, Sim (aside P) (fun a b => a = b) x x

namespace Quiet

variable {α β : Type}

theorem pure (a : α) : Quiet (pure a) := fun _ => .pure rfl

theorem bind {x : Read Net α} {f : α → Read Net β} (hx : Quiet x)
    (hf : ∀ a, Quiet (f a)) : Quiet (x >>= f) :=
  fun P => bind_both (hx P) fun a => hf a P

theorem ite {p : Prop} [Decidable p] {x y : Read Net α} (hx : Quiet x) (hy : Quiet y) :
    Quiet (if p then x else y) :=
  fun P => .ite (fun _ => hx P) (fun _ => hy P)

theorem fail (e : Error) : Quiet (fail e : Read Net α) := fun _ => .fail_fail

theorem liftExcept (x : Result α) : Quiet (liftExcept x) := fun _ => .liftExcept_same x

theorem emit (isSet : Bool) (event : Event) : Quiet (Net.emit isSet event) :=
  fun _ => emit_aside isSet event

end Quiet

/-- A body in frames is read as in the clear, and what is read to its end in the clear
is read to its end in frames. -/
def Framewise {α : Type} (env : Env) (x y : Read Net α) : Prop :=
  ∀ (name : WireName) (body : BodyFrames env) (rest : Bytes) (t : Net), t.waits = [] →
    ∀ a t', y { t with incoming := name.bytes ++ payloads body.frames } = (.ok a, t') →
      ∃ s', x { t with incoming := name.bytes ++ (wires body.frames ++ rest) } = (.ok a, s') ∧
        (drained rest).state s' t'

namespace Framewise

variable {env : Env} {α β : Type} {x y : Read Net α}

theorem bind (h : Framewise env x y) {f : α → Read Net β} (hf : ∀ a, Quiet (f a)) :
    Framewise env (x >>= f) (y >>= f) := by
  intro name body rest t hwaits b t' hy
  obtain ⟨a, t₁, hy, hfa⟩ := bind_eq_ok_iff.mp hy
  obtain ⟨s₁, hx, hstate⟩ := h name body rest t hwaits a t₁ hy
  have hsim := hf a _ s₁ t₁ hstate
  rw [hfa] at hsim
  rw [bind_ok hx]
  rcases hrun : f a s₁ with ⟨res, s'⟩
  rw [hrun] at hsim
  rcases res with e | c
  · exact hsim.elim
  obtain ⟨hstate', rfl⟩ := hsim
  exact ⟨s', rfl, hstate'⟩

theorem of_body (lawful : env.codec.Lawful) {z : Read (Inflating Net) α}
    {y y' : Read Net α} (hy' : y = readStringAsync >>= fun _ => y')
    (h : ∀ rest, Sim (inflated env.codec rest) Eq z y') :
    Framewise env (readStringAsync >>= fun _ => Inflating.inflate env.codec env.depth z) y := by
  intro name body rest t hwaits a t' hy
  rw [hy', bind_ok (name.read t _)] at hy
  rw [bind_ok (name.read t _)]
  exact inflate_frames lawful (h rest) body.ne body.filled body.pulls body.small hwaits hy

theorem readDataBlock (lawful : env.codec.Lawful) :
    Framewise env (readDataBlockCompressed env) (readDataBlock env.depth) := by
  refine of_body lawful ?_ fun rest => readDataBlockBody_both (reads_inflated lawful rest) env.depth
  unfold StClickHouse.readDataBlock readBlockHeader readDataBlockBody
  simp only [bind_assoc]

theorem discardDataBlock (lawful : env.codec.Lawful) :
    Framewise env (discardDataBlockCompressed env) (discardDataBlock env.depth) := by
  refine of_body lawful ?_ fun rest =>
    discardDataBlockBody_both (reads_inflated lawful rest) env.depth
  unfold StClickHouse.discardDataBlock readBlockHeader discardDataBlockBody
  simp only [bind_assoc]

theorem exactly (h : Framewise env x y) {name : WireName} {body : BodyFrames env}
    {rest : Bytes} {t t' : Net} (hwaits : t.waits = []) {a : α}
    (hy : y { t with incoming := name.bytes ++ payloads body.frames } = (.ok a, t'))
    (hend : t'.incoming = []) :
    x { t with incoming := name.bytes ++ wires body.frames ++ rest }
      = (.ok a, { t' with incoming := rest }) ∧ t'.waits = [] := by
  obtain ⟨s', hx, hsame, hwaits', hrest⟩ := h name body rest t hwaits a t' hy
  rw [append_assoc, hx, hsame, hrest hend]
  exact ⟨rfl, hwaits'⟩

end Framewise

/-! ## §5. The bodies of the select loops. -/

/-- What follows a packet is left alone. -/
def Bounded {α : Type} (x : Read Net α) : Prop :=
  ∀ rest, Sim (extended rest) (fun a b => a = b) x x

section Bodies

variable {α β : Type}

variable {x : Read Net α}

theorem Quiet.bounded (h : Quiet x) : Bounded x := fun _ => h _

theorem Bounded.bind {f : α → Read Net β} (hx : Bounded x)
    (hf : ∀ a, Bounded (f a)) : Bounded (x >>= f) :=
  fun rest => bind_both (hx rest) fun a => hf a rest

theorem Bounded.andThen {f : α → Read Net β} (hx : Bounded x)
    (hf : ∀ a, Quiet (f a)) : Bounded (x >>= f) :=
  hx.bind fun a => (hf a).bounded

theorem Bounded.of_reads (h : ∀ c : Corr Error Error Net Net, Reads c → Sim c Eq x x) :
    Bounded x :=
  fun rest => h _ (reads_extended rest)

theorem Bounded.exactly (h : Bounded x) {body : Bytes}
    (rest : Bytes) {t t' : Net} (hwaits : t.waits = []) {a : α} (hx : x { t with incoming := body } = (.ok a, t'))
    (hend : t'.incoming = []) :
    x { t with incoming := body ++ rest } = (.ok a, { t' with incoming := rest }) ∧ t'.waits = [] := by
  have hmore := Sim.extended_ok (h rest) (show ({ t with incoming := body } : Net).waits = [] from hwaits) hx
  rw [hend, nil_append] at hmore
  exact hmore

variable (callbacks : QueryCallbacks)

theorem readTimezoneUpdate_bounded :
    Bounded (readTimezoneUpdate callbacks) :=
  (Bounded.of_reads fun _ hc => readStringAsync_both hc).andThen fun _ => .emit _ _

theorem readPartUuidsUpdate_bounded :
    Bounded (readPartUuidsUpdate callbacks) :=
  (Bounded.of_reads fun _ hc => readPartUuidsPacket_both hc).andThen fun _ => .emit _ _

variable (packetType : Nat)

theorem handleCoordinatorPacket_bounded :
    Bounded (handleCoordinatorPacket packetType) := by
  intro rest
  refine .ite (fun _ => bind_both (send_aside _) fun _ => .pure rfl) (fun _ => ?_)
  refine .ite (fun _ => ?_) (fun _ => ?_)
  · exact .bind (skipParallelReadAnnouncement_both (reads_extended rest)) fun _ _ _ => .pure rfl
  refine .ite (fun _ => ?_) (fun _ => .pure rfl)
  refine bind_both (readParallelReadRequestStreamId_both (reads_extended rest)) fun _ => ?_
  exact bind_both (send_aside _) fun _ => .pure rfl

theorem refused_bounded (h : α) : Bounded (do
    if ← handleCoordinatorPacket packetType then return h
    else
      let e ← unsupportedServerPacket packetType
      fail e : Read Net α) := by
  refine (handleCoordinatorPacket_bounded packetType).bind fun handled => ?_
  cases handled with
  | true => exact (Quiet.pure h).bounded
  | false =>
    refine .andThen (.of_reads fun _ hc => unsupportedServerPacket_both hc packetType)
      fun e => ?_
    exact .fail e

end Bodies

section Select

variable {env : Env} {lim : Limits} {callbacks : QueryCallbacks} {H R : Type}
  {handler : SelectHandler H R}

theorem selectBody_bounded (hdata : ∀ h, Bounded (handler.onData env lim.compressed h))
    (hlog : ∀ k, Bounded (handler.onLogPacket env lim.compressed callbacks k)) (packetType : Nat)
    (h : H) : Bounded (selectBody env lim callbacks handler packetType h) := by
  have hprogress : Bounded (readProgressPacket (σ := Net)) := .of_reads fun _ hc => readProgressPacket_both hc
  have hprofile : Bounded (readProfileInfoPacket (σ := Net)) :=
    .of_reads fun _ hc => readProfileInfoPacket_both hc
  unfold selectBody
  split
  · exact hdata h
  · exact hprogress.andThen fun _ => (Quiet.emit _ _).bind fun _ => .pure h
  · exact (Quiet.pure h).bounded
  · exact hprofile.andThen fun _ => (Quiet.emit _ _).bind fun _ => .pure h
  · exact (hlog _).andThen fun _ => .pure h
  · exact (hlog _).andThen fun _ => .pure h
  · exact (readTimezoneUpdate_bounded callbacks).andThen fun _ => .pure h
  · exact (readPartUuidsUpdate_bounded callbacks).andThen fun _ => .pure h
  · exact refused_bounded _ h

/-- A handler that stops where a block stops, in the clear. -/
structure ReadsClear (env : Env) (callbacks : QueryCallbacks) (handler : SelectHandler H R) :
    Prop where
  data : ∀ h, Bounded (handler.onData env false h)
  log : ∀ k, Bounded (handler.onLogPacket env false callbacks k)

/-- A handler that reads Data and ProfileEvents blocks frame by frame under the flag, and
Log blocks in the clear. -/
structure ReadsFrames (env : Env) (callbacks : QueryCallbacks) (handler : SelectHandler H R) : Prop
    extends ReadsClear env callbacks handler where
  framedData : ∀ h, Framewise env (handler.onData env true h) (handler.onData env false h)
  framedEvents : Framewise env (handler.onLogPacket env true callbacks 14)
    (handler.onLogPacket env false callbacks 14)
  plainLog : handler.onLogPacket env true callbacks 10 = handler.onLogPacket env false callbacks 10

theorem ReadsClear.alike (hreads : ReadsClear env callbacks handler) (lim : Limits) :
    Alike env (selectWalk env { lim with compressed := false } callbacks handler)
      (selectWalk env { lim with compressed := false } callbacks handler) false where
  header more hkind hwaits := readPacketType_ok _ more env _ hkind hwaits
  body {p h h₁ t t₁} rest hwaits hbody hend := by
    have hbounded : Bounded (selectBody env { lim with compressed := false } callbacks handler p.kind h) :=
      selectBody_bounded hreads.data hreads.log p.kind h
    exact (hbounded.andThen fun h => .pure (Turn.more h)).exactly rest hwaits hbody hend
  strict := rfl

/-- Packets other than Data and ProfileEvents are read without regard to the flag. -/
theorem selectBody_plain (lim : Limits) (hten : handler.onLogPacket env true callbacks 10
      = handler.onLogPacket env false callbacks 10) {packetType : Nat} (hdata : packetType ≠ 1)
    (hevents : packetType ≠ 14) (h : H) :
    selectBody env { lim with compressed := true } callbacks handler packetType h
      = selectBody env { lim with compressed := false } callbacks handler packetType h := by
  unfold selectBody
  split
  · exact absurd rfl hdata
  · rfl
  · rfl
  · rfl
  · rw [hten]
  · exact absurd rfl hevents
  · rfl
  · rfl
  · rfl

theorem ReadsFrames.alike (hreads : ReadsFrames env callbacks handler) (lim : Limits) :
    Alike env (selectWalk env { lim with compressed := false } callbacks handler)
      (selectWalk env { lim with compressed := true } callbacks handler) true where
  header more hkind hwaits := readPacketType_ok _ more env _ hkind hwaits
  body {p h h₁ t t₁} rest hwaits hbody hend := by
    cases p with
    | data name body =>
      exact ((hreads.framedData h).bind fun h => .pure (Turn.more (R := R) h)).exactly hwaits hbody
        hend
    | profileEvents name body =>
      have hwalk := (hreads.framedEvents.bind fun _ => .pure h).bind
        fun h => .pure (Turn.more (R := R) h)
      exact hwalk.exactly hwaits hbody hend
    | other kind body small own =>
      have hbounded : Bounded (selectBody env { lim with compressed := false } callbacks handler kind h) :=
        selectBody_bounded hreads.data hreads.log kind h
      have hexact := (hbounded.andThen fun h => .pure (Turn.more (R := R) h)).exactly rest hwaits hbody
        hend
      rw [← selectBody_plain lim hreads.plainLog own.1 own.2.1 h] at hexact
      exact hexact
  strict := rfl

end Select

/-! ## §6. The handlers. -/

section Handlers

variable (env : Env) (callbacks : QueryCallbacks)

theorem readDataBlock_bounded : Bounded (readDataBlock env.depth) :=
  .of_reads fun _ hc => readDataBlock_both hc env.depth

theorem discardDataBlock_bounded : Bounded (discardDataBlock env.depth) :=
  .of_reads fun _ hc => discardDataBlock_both hc env.depth

theorem onLogPacket_bounded (k : Nat) : Bounded (onLogPacket env false callbacks k) := by
  have hblock := readDataBlock_bounded env
  unfold onLogPacket
  by_cases hten : k = 10
  · rw [if_pos hten]
    exact hblock.andThen fun _ => .emit _ _
  · rw [if_neg hten]
    exact hblock.andThen fun _ => .emit _ _

theorem rawBlocksHandler_reads : ReadsClear env callbacks rawBlocksHandler where
  data h := by
    refine .andThen (.of_reads fun _ hc => readRawDataBlock_both hc env.depth) fun _ => ?_
    exact .ite (.bind (.liftExcept _) fun _ => .pure _) (.pure _)
  log k := (readDataBlock_bounded env).andThen fun _ => (Quiet.emit _ _).bind fun _ => .emit _ _

/-- A row cursor as a handler: blocks are passed on. -/
def rowsHandler : SelectHandler (List Block) Received where
  onData env compressed sent := do
    let block ← readDataBlockMaybeCompressed env compressed
    return if block.rows > 0 then sent ++ [block] else sent
  onLogPacket := onLogPacket
  finish sent := .ok (sent, none)

/-- The callbacks a row cursor calls. -/
def rowsCallbacks : QueryCallbacks :=
  { callbacks with onProfile := false, onLog := false, onProfileEvents := false }

/-- A row cursor reads the packets of a select loop, without the callbacks for the
profile, the log and the profile events. -/
theorem rowsWalk_body (lim : Limits) : (rowsWalk env lim callbacks).body
    = (selectWalk env lim (rowsCallbacks callbacks) rowsHandler).body := by
  funext packetType sent
  show (rowsBody env lim callbacks packetType sent >>= _)
    = (selectBody env lim (rowsCallbacks callbacks) rowsHandler packetType sent >>= _)
  congr 1
  unfold rowsBody
  split
  · rfl
  · rfl
  · rfl
  · rfl
  · show _ = ((readDataBlock env.depth >>= fun block => Net.emit false (.log block))
      >>= fun _ => pure sent)
    rw [bind_assoc]
    rfl
  · show _ = ((readDataBlockMaybeCompressed env lim.compressed
      >>= fun block => Net.emit false (.profileEvents block)) >>= fun _ => pure sent)
    rw [bind_assoc]
    rfl
  · rfl
  · rfl
  · unfold selectBody
    split
    all_goals first | contradiction | rfl

variable (lawful : env.codec.Lawful)
include lawful

theorem onLogPacket_framewise :
    Framewise env (onLogPacket env true callbacks 14) (onLogPacket env false callbacks 14) :=
  (Framewise.readDataBlock lawful).bind fun _ => .emit _ _

/-- A handler that reads each block whole and then decides what to keep. -/
theorem readsFrames_of_keep {H R : Type} {handler : SelectHandler H R}
    (keep : H → Block → Read Net H) (hquiet : ∀ h block, Quiet (keep h block))
    (hdata : ∀ compressed h, handler.onData env compressed h
      = (readDataBlockMaybeCompressed env compressed >>= keep h))
    (hlog : handler.onLogPacket = onLogPacket) : ReadsFrames env callbacks handler where
  data h := by
    rw [hdata]
    exact (readDataBlock_bounded env).andThen (hquiet h)
  log k := by
    rw [hlog]
    exact onLogPacket_bounded env callbacks k
  framedData h := by
    rw [hdata, hdata]
    exact (Framewise.readDataBlock lawful).bind (hquiet h)
  framedEvents := by
    rw [hlog]
    exact onLogPacket_framewise env callbacks lawful
  plainLog := by rw [hlog]; rfl

theorem blocksHandler_reads : ReadsFrames env callbacks blocksHandler :=
  readsFrames_of_keep env callbacks lawful _
    (fun _ _ => .ite (.bind (.liftExcept _) fun _ => .pure _) (.pure _)) (fun _ _ => rfl) rfl

theorem allRowsHandler_reads {T : Type} (readAll : Block → Result (List T)) : ReadsFrames env callbacks (allRowsHandler readAll) :=
  readsFrames_of_keep env callbacks lawful _
    (fun _ _ => .ite (.bind (.liftExcept _) fun _ => .bind (.liftExcept _) fun _ => .pure _) (.pure _))
    (fun _ _ => rfl) rfl

theorem firstBlockHandler_reads : ReadsFrames env callbacks firstBlockHandler where
  data h := by
    show Bounded (if h.first.isSome then _ else _)
    by_cases hfirst : h.first.isSome
    · rw [if_pos hfirst]
      exact (discardDataBlock_bounded env).andThen fun _ => .pure _
    rw [if_neg hfirst]
    refine (readDataBlock_bounded env).andThen fun _ => ?_
    exact .ite (.bind (.liftExcept _) fun _ => .pure _) (.pure _)
  log := onLogPacket_bounded env callbacks
  framedData h := by
    show Framewise env (if h.first.isSome then _ else _) (if h.first.isSome then _ else _)
    by_cases hfirst : h.first.isSome
    · rw [if_pos hfirst, if_pos hfirst]
      exact (Framewise.discardDataBlock lawful).bind fun _ => .pure _
    rw [if_neg hfirst, if_neg hfirst]
    refine (Framewise.readDataBlock lawful).bind fun _ => ?_
    exact .ite (.bind (.liftExcept _) fun _ => .pure _) (.pure _)
  framedEvents := onLogPacket_framewise env callbacks lawful
  plainLog := rfl

theorem rowCountHandler_reads : ReadsFrames env callbacks rowCountHandler where
  data h := (discardDataBlock_bounded env).andThen fun _ => .ite (.fail _) (.pure _)
  log k := by
    show Bounded (if k = 10 then _ else if callbacks.onProfileEvents then _ else _)
    by_cases hten : k = 10
    · rw [if_pos hten]
      exact (readDataBlock_bounded env).andThen fun _ => .emit _ _
    rw [if_neg hten]
    by_cases hset : callbacks.onProfileEvents = true
    · rw [if_pos hset]
      exact (readDataBlock_bounded env).andThen fun _ => .emit _ _
    · rw [if_neg hset]
      exact (discardDataBlock_bounded env).andThen fun _ => .pure _
  framedData h := (Framewise.discardDataBlock lawful).bind fun _ => .ite (.fail _) (.pure _)
  framedEvents := by
    show Framewise env (if callbacks.onProfileEvents then _ else _)
      (if callbacks.onProfileEvents then _ else _)
    by_cases hset : callbacks.onProfileEvents = true
    · rw [if_pos hset, if_pos hset]
      exact (Framewise.readDataBlock lawful).bind fun _ => .emit _ _
    · rw [if_neg hset, if_neg hset]
      exact (Framewise.discardDataBlock lawful).bind fun _ => .pure _
  plainLog := rfl

theorem rowsHandler_reads : ReadsFrames env (rowsCallbacks callbacks) rowsHandler :=
  readsFrames_of_keep env _ lawful _ (fun _ _ => .pure _) (fun _ _ => rfl) rfl

theorem rowsWalk_alike (lim : Limits) (compressed : Bool) :
    Alike env (rowsWalk env { lim with compressed := false } callbacks)
      (rowsWalk env { lim with compressed := compressed } callbacks) compressed where
  header more hkind hwaits := rowsHeader_ok _ more hkind hwaits
  body {p h h₁ t t₁} rest hwaits hbody hend := by
    rw [rowsWalk_body] at hbody ⊢
    cases compressed with
    | false => exact ((rowsHandler_reads env callbacks lawful).toReadsClear.alike lim).body rest hwaits hbody hend
    | true => exact ((rowsHandler_reads env callbacks lawful).alike lim).body rest hwaits hbody hend
  strict := rfl

end Handlers

/-! ## §7. Terminals. -/

section Respects

variable {env : Env} {H R : Type}

/-- **The announcement is respected**: a well-formed response whose bodies are framed as
the query announced passes packet by packet, and the call returns what it returns for
the same response in the clear. -/
def Respected (env : Env) (walk : Bool → PacketWalk H R) (run : Bool → Nat → Read Net R)
    (h₀ : H) (framed compressed : Bool) : Prop :=
  ∀ (ps : List (ResponsePacket env)) (ending : Ending) (rest : Bytes) (t t' : Net) (h' : H)
    (fuel : Nat), t.waits = [] → Decodes (walk false) ps h₀ t h' t' → ps.length < fuel →
    ∃ s' r,
      Passes (walk compressed) framed (ending.bytes ++ rest) ps h₀
        { t with incoming := ps.flatMap (ResponsePacket.bytes framed) ++ (ending.bytes ++ rest) }
        h' s' ∧
      run compressed fuel
        { t with incoming := ps.flatMap (ResponsePacket.bytes framed) ++ (ending.bytes ++ rest) }
        = (r, { s' with incoming := rest }) ∧
      run false fuel
        { t with incoming := ps.flatMap (ResponsePacket.bytes false) ++ (ending.bytes ++ rest) }
        = (r, { s' with incoming := rest })

theorem Ending.read_exception {bytes : Bytes} {e : Error}
    (h : Parses (readException (σ := Bytes)) bytes e) (t : Net) (rest : Bytes) :
    readException { t with incoming := bytes ++ rest } = (.ok e, { t with incoming := rest }) :=
  parses_onNet (readException_both (reads_onNet t)) h rest

/-- A loop that goes on as its walk does, and whose result at the last packet does not
depend on the flag. -/
theorem respected_of {walk : Bool → PacketWalk H R} {turn : Bool → H → Read Net (Turn H R)}
    {result : Ending → H → Readout R} {compressed : Bool}
    (hclear : Alike env (walk false) (walk false) false)
    (halike : Alike env (walk false) (walk compressed) compressed)
    (hgo : ∀ c h s h₁ s₁, (walk c).turn h s = (.ok (.more h₁), s₁) →
      turn c h s = (.ok (.more h₁), s₁))
    (hend : ∀ c ending h (rest : Bytes) (t : Net), t.waits = [] →
      (∀ {kind : Nat} (more : Bytes), kind < 128 →
        (walk c).header { t with incoming := UInt8.ofNat kind :: more }
          = (.ok kind, { t with incoming := more })) →
      LastTurn (turn c) h { t with incoming := ending.bytes ++ rest } (result ending h)
        { t with incoming := rest }) (h₀ : H) :
    Respected env walk (fun c fuel => loop (turn c) fuel h₀) h₀ compressed compressed := by
  intro ps ending rest t t' h' fuel hwaits hdecodes hfuel
  obtain ⟨fuel, rfl⟩ := Nat.exists_eq_add_of_lt hfuel
  -- both flags: the packets pass, and the last one gives the result
  have hread : ∀ {c : Bool}, Alike env (walk false) (walk c) c →
      Passes (walk c) c (ending.bytes ++ rest) ps h₀
        { t with incoming := ps.flatMap (ResponsePacket.bytes c) ++ (ending.bytes ++ rest) } h'
        { t' with incoming := ending.bytes ++ rest } ∧
      loop (turn c) (ps.length + fuel + 1) h₀
        { t with incoming := ps.flatMap (ResponsePacket.bytes c) ++ (ending.bytes ++ rest) }
        = (result ending h', { t' with incoming := rest }) := by
    intro c hc
    obtain ⟨hpasses, hwaits'⟩ := hc.passes (ending.bytes ++ rest) hdecodes hwaits
    refine ⟨hpasses, ?_⟩
    rw [add_assoc, hpasses.turns hc.strict (hgo c)]
    exact loop_lastTurn (hend c ending h' rest t' hwaits'
      fun more hkind => hc.header more hkind hwaits')
  obtain ⟨hpasses, hrun⟩ := hread halike
  exact ⟨_, _, hpasses, hrun, (hread hclear).2⟩

/-- The result of a select loop at the last packet. -/
def selectResult (finish : H → Result R) : Ending → H → Readout R
  | .endOfStream, h => match finish h with
      | .ok r => .ok r
      | .error e => .error (.error e)
  | .exception _ e _, _ => .error (.error e)

theorem turn_lastPacket {w : PacketWalk H R} {t : Net}
    (hheader : ∀ {kind : Nat} (more : Bytes), kind < 128 →
      w.header { t with incoming := UInt8.ofNat kind :: more } = (.ok kind, { t with incoming := more }))
    (ending : Ending) (h : H) (rest : Bytes) :
    LastTurn w.turn h { t with incoming := ending.bytes ++ rest } (selectResult w.finish ending h)
      { t with incoming := rest } := by
  cases ending with
  | endOfStream =>
    have hturn := PacketWalk.turn_endOfStream (h := h) (@hheader 5 rest (by decide))
    cases hfinish : w.finish h with
    | ok r =>
      have hresult : selectResult w.finish .endOfStream h = .ok r := by
        simp only [selectResult, hfinish]
      rw [hfinish] at hturn
      rw [hresult]
      exact .done hturn
    | error e =>
      have hresult : selectResult w.finish .endOfStream h = .error (.error e) := by
        simp only [selectResult, hfinish]
      rw [hfinish] at hturn
      rw [hresult]
      exact .stopped hturn
  | exception bytes e parses =>
    exact .stopped (PacketWalk.turn_exception (@hheader 2 (bytes ++ rest) (by decide))
      (Ending.read_exception parses t rest))

/-- What a row cursor has at the last packet. -/
def rowsResult : Ending → List Block → Readout Received
  | .endOfStream, sent => .ok (sent, none)
  | .exception _ e _, sent => .ok (sent, some e)

section Rows

variable {lim : Limits} {callbacks : QueryCallbacks} {h : List Block} {s s' : Net}

theorem rowsTurn_ok {turn : Turn (List Block) Received}
    (hturn : (rowsWalk env lim callbacks).turn h s = (.ok turn, s')) :
    rowsTurn env lim callbacks h s = (.ok turn, s') := by
  have hattempt : attempt ((rowsWalk env lim callbacks).turn h) s = (.ok (.ok turn), s') := by
    unfold attempt
    rw [hturn]
  unfold rowsTurn
  rw [bind_ok hattempt]
  rfl

theorem rowsTurn_error {e : Error}
    (hturn : (rowsWalk env lim callbacks).turn h s = (.error (.error e), s')) :
    rowsTurn env lim callbacks h s = (.ok (.done (h, some e)), s') := by
  have hattempt : attempt ((rowsWalk env lim callbacks).turn h) s = (.ok (.error e), s') := by
    unfold attempt
    rw [hturn]
  unfold rowsTurn
  rw [bind_ok hattempt]
  rfl

theorem rowsTurn_last {ending : Ending} (hlast : LastTurn (rowsWalk env lim callbacks).turn h s
      (selectResult (rowsWalk env lim callbacks).finish ending h) s') :
    LastTurn (rowsTurn env lim callbacks) h s (rowsResult ending h) s' := by
  cases ending with
  | endOfStream =>
    cases hlast with
    | done hdone => exact .done (rowsTurn_ok hdone)
  | exception bytes e parses =>
    cases hlast with
    | stopped hstopped => exact .done (rowsTurn_error hstopped)

end Rows

end Respects

/-- The terminals of a select. -/
inductive SelectTerminal (T : Type) where
  | block
  | blocks
  | all (readAll : Block → Result (List T))
  | rows
  | rowCount
  | raw

namespace SelectTerminal

variable {T : Type} (env : Env) (lim : Limits) (callbacks : QueryCallbacks) (maxResponseSize : Nat)
  (framed compressed : Bool)

/-- The settings a terminal sends its query with. -/
def mode : SelectTerminal T → QuerySettingsMode
  | .raw => .rawCapture
  | _ => .materialized

/-- A select loop respects the announcement. -/
def LoopRespects {H R : Type} (handler : SelectHandler H R) (h₀ : H) : Prop :=
  Respected env (fun c => selectWalk env { lim with compressed := c } callbacks handler)
    (fun c fuel => readSelectResponse env { lim with compressed := c } callbacks handler fuel h₀) h₀
    framed compressed

/-- **A terminal respects the announcement**: `framed` is what the packet of the query
says, `compressed` what the terminal reads the response with. -/
def Respects : SelectTerminal T → Prop
  | .block => LoopRespects env lim callbacks framed compressed firstBlockHandler
      ⟨none, false, freshBudget maxResponseSize⟩
  | .blocks => LoopRespects env lim callbacks framed compressed blocksHandler
      ([], freshBudget maxResponseSize)
  | .all readAll => LoopRespects env lim callbacks framed compressed (allRowsHandler readAll)
      ([], freshBudget maxResponseSize)
  | .rows => Respected env (fun c => rowsWalk env { lim with compressed := c } callbacks)
      (fun c fuel => readQueryBlocks env { lim with compressed := c } callbacks fuel []) []
      framed compressed
  | .rowCount => LoopRespects env lim callbacks framed compressed rowCountHandler 0
  | .raw => LoopRespects env lim callbacks framed compressed rawBlocksHandler
      ([], freshBudget maxResponseSize)

variable {env lim callbacks}

theorem loopRespects {H R : Type} {handler : SelectHandler H R}
    (hclear : ReadsClear env callbacks handler)
    (halike : Alike env (selectWalk env { lim with compressed := false } callbacks handler)
      (selectWalk env { lim with compressed := compressed } callbacks handler) compressed) (h₀ : H) :
    LoopRespects env lim callbacks compressed compressed handler h₀ :=
  @respected_of env H R (fun c => selectWalk env { lim with compressed := c } callbacks handler)
    (fun c => (selectWalk env { lim with compressed := c } callbacks handler).turn)
    (selectResult handler.finish) compressed (hclear.alike lim) halike (fun _ _ _ _ _ h => h)
    (fun _ ending h rest _ _ hheader => turn_lastPacket hheader ending h rest) h₀

theorem loopRespects_framed {H R : Type} {handler : SelectHandler H R}
    (hreads : ReadsFrames env callbacks handler) (h₀ : H) :
    LoopRespects env lim callbacks compressed compressed handler h₀ := by
  refine loopRespects compressed hreads.toReadsClear ?_ h₀
  cases compressed with
  | false => exact hreads.toReadsClear.alike lim
  | true => exact hreads.alike lim

theorem rowsRespects (lawful : env.codec.Lawful) :
    Respected env (fun c => rowsWalk env { lim with compressed := c } callbacks)
      (fun c fuel => readQueryBlocks env { lim with compressed := c } callbacks fuel []) []
      compressed compressed :=
  @respected_of env _ _ (fun c => rowsWalk env { lim with compressed := c } callbacks)
    (fun c => rowsTurn env { lim with compressed := c } callbacks) rowsResult compressed
    (rowsWalk_alike env callbacks lawful lim false) (rowsWalk_alike env callbacks lawful lim compressed)
    (fun _ _ _ _ _ h => rowsTurn_ok h)
    (fun _ ending h rest _ _ hheader => rowsTurn_last (turn_lastPacket hheader ending h rest)) []

/-- Every terminal but `raw` respects the announcement, and `raw` where there is none. -/
theorem respects (lawful : env.codec.Lawful) (term : SelectTerminal T)
    (h : term = .raw → compressed = false) :
    term.Respects env lim callbacks maxResponseSize compressed compressed := by
  cases term with
  | block => exact loopRespects_framed compressed (firstBlockHandler_reads env callbacks lawful) _
  | blocks => exact loopRespects_framed compressed (blocksHandler_reads env callbacks lawful) _
  | all readAll => exact loopRespects_framed compressed (allRowsHandler_reads env callbacks lawful readAll) _
  | rows => exact rowsRespects compressed lawful
  | rowCount => exact loopRespects_framed compressed (rowCountHandler_reads env callbacks lawful) _
  | raw =>
    rw [h rfl]
    have hreads := rawBlocksHandler_reads env callbacks
    exact loopRespects false hreads (hreads.alike lim) _

/-! ## §8. Raw blocks under compression. -/

/-- The table name every server sends. -/
def noName : WireName where
  bytes := [0]
  text := []
  parses := fun _ => rfl

/-- One row without columns, stored in a frame. -/
def rowFrame {codec : Codec} (lawful : codec.Lawful) : Framed codec :=
  .copy (show frameBody codec .none [0, 0, 1] = .ok [0, 0, 1] from rfl) lawful (by decide)

/-- The same in a Data packet. -/
def oneRow (lawful : env.codec.Lawful) (hdepth : 1 ≤ env.depth) : ResponsePacket env :=
  .data noName
    { frames := [rowFrame lawful]
      ne := cons_ne_nil _ _
      filled := fun f hf => by
        rw [mem_singleton.mp hf]
        exact cons_ne_nil _ _
      pulls := hdepth
      small := (by decide : 3 ≤ maxBlockBytes) }

/-- A connection with nothing to come. -/
def quietNet : Net := ⟨[], .unexpectedEof, [], [], [], []⟩

theorem noName_recorded (t : Net) (more : Bytes) :
    recordWith (readStringRecorded "table name length") [] maxColumnBytes
        { t with incoming := 0 :: more }
      = (.ok ([], [0], maxColumnBytes - 1), { t with incoming := more }) := by
  with_unfolding_all rfl

theorem readRawDataBlock_oneRow (depth : Nat) (t : Net) :
    readRawDataBlock (depth + 1) { t with incoming := [0, 0, 0, 1] }
      = (.ok ⟨[], 0, 1, [0, 0, 1]⟩, { t with incoming := [] }) := by
  have hinfo : recordWith (blockInfoRecorded (depth + 1)) [] maxColumnBytes
      { t with incoming := [0, 0, 1] }
      = (.ok ((), [0], maxColumnBytes - 1), { t with incoming := [0, 1] }) := by
    with_unfolding_all rfl
  have hcolumns : recordWith readVarintRecorded [0] (maxColumnBytes - 1) { t with incoming := [0, 1] }
      = (.ok (0, [0, 0], maxColumnBytes - 2), { t with incoming := [1] }) := by
    with_unfolding_all rfl
  have hrows : recordWith readVarintRecorded [0, 0] (maxColumnBytes - 2) { t with incoming := [1] }
      = (.ok (1, [0, 0, 1], maxColumnBytes - 3), { t with incoming := [] }) := by
    with_unfolding_all rfl
  unfold readRawDataBlock
  rw [bind_ok (noName_recorded t [0, 0, 1])]
  dsimp only
  rw [bind_ok hinfo]
  rw [bind_ok hcolumns]
  rw [bind_ok (liftExcept_eq_ok_iff.mpr ⟨(by decide : checkedCount 0 "block column" maxBlockColumns = .ok 0), rfl⟩), bind_ok hrows]
  rfl

/-- **A raw terminal under compression takes the frame for the block.** -/
theorem raw_fails (lawful : env.codec.Lawful) (hdepth : 1 ≤ env.depth) :
    ¬ (SelectTerminal.raw (T := T)).Respects env lim callbacks 3 true true := by
  intro hrespects
  have hdecodes : Decodes (selectWalk env { lim with compressed := false } callbacks rawBlocksHandler)
      [oneRow lawful hdepth] ([], freshBudget 3) quietNet
      ([⟨[], 0, 1, [0, 0, 1]⟩], ⟨3, 3⟩) quietNet := by
    obtain ⟨depth, hsucc⟩ := Nat.exists_eq_add_of_le' hdepth
    have hbody : (selectWalk env { lim with compressed := false } callbacks rawBlocksHandler).body 1
        ([], freshBudget 3) { quietNet with incoming := [0, 0, 0, 1] }
        = (.ok (.more ([⟨[], 0, 1, [0, 0, 1]⟩], ⟨3, 3⟩)), quietNet) := by
      show ((readRawDataBlock env.depth >>= _) >>= _) { quietNet with incoming := [0, 0, 0, 1] } = _
      rw [hsucc, bind_assoc, bind_ok (readRawDataBlock_oneRow depth quietNet)]
      rfl
    exact .cons hbody rfl (.nil _ _)
  obtain ⟨s', r, hpasses, -, -⟩ :=
    hrespects [oneRow lawful hdepth] .endOfStream [] quietNet quietNet _ 2 rfl hdecodes
      (Nat.lt_succ_self 1)
  -- the packet type is read, then the body, with the frame to come
  let wire := (rowFrame lawful).wire
  have hwire : wire.length = 28 := by
    show (env.codec.cityHash128 _ ++ _).length = 28
    rw [length_append, lawful.hash_length]
    rfl
  have hbytes : [oneRow lawful hdepth].flatMap (ResponsePacket.bytes true) ++ (Ending.endOfStream.bytes ++ [])
      = UInt8.ofNat 1 :: 0 :: (wire ++ [5]) := by
    show UInt8.ofNat 1 :: 0 :: ((wire ++ []) ++ [] ++ [5]) = _
    rw [append_nil, append_nil]
  rw [hbytes] at hpasses
  cases hpasses with
  | cons _ hheader hbody hlast =>
    have hheader' := readPacketType_ok { lim with compressed := true } (0 :: (wire ++ [5])) env
      "receive timeout while reading query response" (show 1 < 128 by decide)
      (show quietNet.waits = [] from rfl)
    have hstate := (Prod.mk.inj (hheader.symm.trans hheader')).2
    subst hstate
    cases hlast with
    | nil hrest =>
      obtain ⟨h', s₂, hdata, hmore⟩ := bind_eq_ok_iff.mp hbody
      cases hmore
      obtain ⟨block, s₃, hblock, hkeep⟩ := bind_eq_ok_iff.mp hdata
      obtain ⟨name, s₄, hname, hkept⟩ := readRawDataBlock_kept hblock
      rw [noName_recorded] at hname
      cases hname
      by_cases hrows : block.rows > 0
      · rw [if_pos hrows] at hkeep
        obtain ⟨budget, s₅, hcharge, hkeep⟩ := bind_eq_ok_iff.mp hkeep
        obtain ⟨_, rfl⟩ := liftExcept_eq_ok_iff.mp hcharge
        cases hkeep
        -- what was recorded would be the whole frame
        have hdata : [0, 0, 1] ++ s'.incoming = wire ++ [5] := hkept
        rw [hrest] at hdata
        have hlen := congrArg List.length
          (append_cancel_right (hdata : [0, 0, 1] ++ [5] = wire ++ [5]))
        rw [hwire] at hlen
        exact absurd hlen (by decide)
      · rw [if_neg hrows] at hkeep
        cases hkeep

/-- **Which terminals respect the announced compression.**  For every compression of the
client and of the query: all but `raw`, and `raw` where the packet of the query
announces none. -/
theorem terminal_respects_iff (lawful : env.codec.Lawful) (hdepth : 1 ≤ env.depth)
    (client : Client env.codec) (query : SelectQuery) (rev : Nat) (term : SelectTerminal T) :
    (∀ (lim : Limits) (callbacks : QueryCallbacks) (maxResponseSize : Nat),
      term.Respects env lim callbacks maxResponseSize
        ((selectTemplate client query term.mode rev).writtenFlag == 1)
        (responseCompressed client query)) ↔
      (term = .raw → compressionFlag (query.compression.or client.compression) = 0) := by
  have hflag : ((selectTemplate client query term.mode rev).writtenFlag == 1)
      = responseCompressed client query := by
    rw [selectTemplate_writtenFlag]
    unfold responseCompressed
    cases query.compression.or client.compression with
    | none => rfl
    | some method => cases method <;> rfl
  rw [hflag]
  constructor
  · intro hrespects hraw
    subst hraw
    have hcompressed : responseCompressed client query ≠ true := fun htrue => by
      rw [htrue] at hrespects
      exact raw_fails lawful hdepth (hrespects ⟨false, false⟩ {} 3)
    unfold responseCompressed at hcompressed
    cases hsetting : query.compression.or client.compression with
    | none => rfl
    | some method => cases method <;> simp_all [compressionFlag]
  · intro hraw lim callbacks maxResponseSize
    refine respects maxResponseSize (responseCompressed client query) lawful term fun hterm => ?_
    unfold responseCompressed
    rw [hraw hterm]
    rfl

/-- Compressors that copy, and one turn of each loop. -/
def storedEnv : Env := ⟨copyCodec, 1⟩

/-- A client with compression. -/
def lz4Client : Client storedEnv.codec where
  settings := ⟨[], nodup_nil⟩
  compression := some .lz4
  quotaKey := []
  queryTemplate := _
  refreshed := rfl

/-- A query without settings of its own. -/
def plainQuery : SelectQuery := ⟨['S'], ⟨[], nodup_nil⟩, none, [], []⟩

/-- One row in a stored frame. -/
def storedRow : ResponsePacket storedEnv := oneRow copyCodec_lawful (by decide)

/-- **`raw` under compression**: the packet announces compression, the server frames the
block, and the frame is read as a block; in the clear the block is returned. -/
theorem raw_misreads_frame :
    (selectTemplate lz4Client plainQuery .rawCapture Revision.default).writtenFlag = 1 ∧
    (readSelectResponse storedEnv ⟨false, false⟩ {} rawBlocksHandler 2 ([], freshBudget 3)
      { quietNet with incoming := storedRow.bytes false ++ [5] }).1.toOption = some [⟨[], 0, 1, [0, 0, 1]⟩] ∧
    (readSelectResponse storedEnv ⟨false, true⟩ {} rawBlocksHandler 2 ([], freshBudget 3)
      { quietNet with incoming := storedRow.bytes true ++ [5] }).1.toOption = none := by
  decide +kernel

/-- The other terminals read the same response alike, compressed and in the clear. -/
theorem terminal_respects_blocks :
    storedEnv.codec.Lawful ∧ 1 ≤ storedEnv.depth ∧
      (SelectTerminal.blocks (T := Unit)).Respects storedEnv ⟨false, false⟩ {} 3
        ((selectTemplate lz4Client plainQuery (SelectTerminal.blocks (T := Unit)).mode
          Revision.default).writtenFlag == 1)
        (responseCompressed lz4Client plainQuery) :=
  ⟨copyCodec_lawful, by decide,
    (terminal_respects_iff copyCodec_lawful (by decide) lz4Client plainQuery Revision.default
      .blocks).mpr (fun h => nomatch h) ⟨false, false⟩ {} 3⟩

end SelectTerminal

end StClickHouse
