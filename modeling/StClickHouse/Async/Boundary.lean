/-
  StClickHouse.Async.Boundary
  **WHERE A PACKET ENDS.**

  A reader that has read a packet to its end reads the same packet when more bytes
  follow it, and leaves those bytes alone.  The same holds where the body of the packet
  comes in compression frames: the frames are taken whole, and what follows the last
  one is left.  Both are correspondences of exact reads, so they pass from `readExact`
  to every reader of the engine.
-/
import StClickHouse.Async.BothStreams
import StClickHouse.Async.Select
import StClickHouse.Wire.Decompressing

namespace StClickHouse

open ByteReader RustText List

/-! ## §1. Two connections that differ in the bytes to come. -/

/-- The connections differ in their bytes to come, which are related by `P`; every
timed wait is in time. -/
def aside (P : Bytes → Bytes → Prop) : Corr Error Error Net Net where
  state s t := s = { t with incoming := s.incoming } ∧ t.waits = [] ∧ P s.incoming t.incoming
  left := fun _ => False
  right := fun _ => True

/-- More bytes follow on the left. -/
def extended (rest : Bytes) : Corr Error Error Net Net := aside fun bs cs => bs = cs ++ rest

/-- What follows on the left, once the right side is read to its end. -/
def drained (rest : Bytes) : Corr Error Error Net Net := aside fun bs cs => cs = [] → bs = rest

section Aside

variable {P : Bytes → Bytes → Prop}

theorem emit_aside (isSet : Bool) (event : Event) :
    Sim (aside P) Eq (Net.emit isSet event) (Net.emit isSet event) := by
  intro s t hst
  obtain ⟨hsame, hwaits, hP⟩ := hst
  rcases isSet with _ | _
  · exact ⟨⟨hsame, hwaits, hP⟩, rfl⟩
  refine ⟨⟨?_, hwaits, hP⟩, rfl⟩
  show { s with events := s.events ++ [event] }
    = { t with incoming := s.incoming, events := t.events ++ [event] }
  rw [hsame]

theorem flush_aside : Sim (aside P) Eq Net.flush Net.flush := by
  intro s t hst
  obtain ⟨hsame, hwaits, hP⟩ := hst
  have hwrites : s.writes = t.writes := by rw [hsame]
  unfold Net.flush
  rw [hwrites]
  rcases t.writes with _ | ⟨outcome, writes⟩
  · exact ⟨⟨hsame, hwaits, hP⟩, rfl⟩
  cases outcome with
  | some kind => trivial
  | none =>
    refine ⟨⟨?_, hwaits, hP⟩, rfl⟩
    rw [hsame]

theorem send_aside (packet : Bytes) :
    Sim (aside P) Eq (Net.send packet) (Net.send packet) := by
  refine bind_both (bind_both flush_aside fun _ => ?_) fun _ => flush_aside
  intro s t hst
  obtain ⟨hsame, hwaits, hP⟩ := hst
  refine ⟨⟨?_, hwaits, hP⟩, rfl⟩
  rw [hsame]

end Aside

/-- A read within the packet is the same; one beyond it fails on the right. -/
theorem reads_extended (rest : Bytes) : Reads (extended rest) := by
  intro n s t hst
  obtain ⟨hsame, hwaits, hbytes⟩ := hst
  show SimOut _ _ (if n ≤ s.incoming.length then _ else _) (if n ≤ t.incoming.length then _ else _)
  by_cases hn : n ≤ t.incoming.length
  · have hn' : n ≤ s.incoming.length := by
      rw [hbytes, length_append]
      omega
    rw [if_pos hn, if_pos hn']
    refine ⟨⟨?_, hwaits, ?_⟩, ?_⟩
    · show { s with incoming := s.incoming.drop n } = { t with incoming := s.incoming.drop n }
      rw [hsame]
    · show s.incoming.drop n = t.incoming.drop n ++ rest
      rw [hbytes, drop_append_of_le_length hn]
    · rw [hbytes, take_append_of_le_length hn]
  · rw [if_neg hn]
    split <;> trivial

variable {α : Type} {a : α}

/-- What a correspondence with a packet on its own says: the packet is read alike when
more bytes follow it. -/
theorem Sim.extended_ok {rest : Bytes} {x y : Read Net α}
    (h : Sim (extended rest) Eq x y) {t t' : Net} (hwaits : t.waits = []) (hy : y t = (.ok a, t')) :
    x { t with incoming := t.incoming ++ rest }
        = (.ok a, { t' with incoming := t'.incoming ++ rest }) ∧ t'.waits = [] := by
  have hxy := h { t with incoming := t.incoming ++ rest } t ⟨rfl, hwaits, rfl⟩
  rw [hy] at hxy
  rcases hx : x { t with incoming := t.incoming ++ rest } with ⟨res, s'⟩
  rw [hx] at hxy
  rcases res with e | b
  · exact hxy.elim
  obtain ⟨⟨hsame, hwaits', hbytes⟩, rfl⟩ := hxy
  refine ⟨?_, hwaits'⟩
  rw [hsame, hbytes]

/-! ## §2. Raw blocks on two streams. -/

section Raw

variable {σ τ : Type} [ByteStream Error σ] [ByteStream Error τ] {c : Corr Error Error σ τ}

omit [ByteStream Error σ] [ByteStream Error τ] in
theorem recordWith_both {x : Read (Recorded σ) α} {y : Read (Recorded τ) α}
    (h : Sim (recordedBoth c) Eq x y) (out : Bytes) (budget : Nat) :
    Sim c Eq (recordWith x out budget) (recordWith y out budget) := by
  intro s t hst
  have hxy := h ⟨s, out, budget⟩ ⟨t, out, budget⟩ ⟨hst, rfl, rfl⟩
  unfold recordWith
  rcases hx : x ⟨s, out, budget⟩ with ⟨res, r⟩
  rcases hy : y ⟨t, out, budget⟩ with ⟨res', r'⟩
  rw [hx, hy] at hxy
  cases res with
  | ok a => cases res' with
    | ok b =>
      obtain ⟨⟨hstream, hout, hbudget⟩, rfl⟩ := hxy
      exact ⟨hstream, by rw [hout, hbudget]⟩
    | error e => exact hxy
  | error e => cases res' with
    | ok b => exact hxy
    | error e' => trivial

theorem blockInfoRecorded_both {d : Corr Error Error (Recorded σ) (Recorded τ)}
    (hd : RecordedReads d) : ∀ fuel, Sim d Eq
      (blockInfoRecorded fuel) (blockInfoRecorded fuel) := by
  intro fuel
  induction fuel with
  | zero => exact .tooDeep_tooDeep
  | succ fuel ih =>
    refine bind_both hd.varint fun dim => ?_
    refine .ite (fun _ => .pure rfl) (fun _ => ?_)
    refine .ite (fun _ => bind_both (hd.exact 1) fun _ => ih) (fun _ => ?_)
    refine .ite (fun _ => bind_both (hd.exact 4) fun _ => ih) (fun _ => ?_)
    refine .ite (fun _ => ?_) (fun _ => .fail_fail)
    exact bind_both hd.varint fun _ => ih

variable (hc : Reads c)

include hc

theorem rawBlockColumn_both (depth rows : Nat) (p : RawProgress) :
    Sim c Eq (rawBlockColumn depth rows p) (rawBlockColumn depth rows p) := by
  refine bind_both (recordWith_both ((recordedReads_both hc).string _) _ _) fun name => ?_
  refine bind_both (recordWith_both ((recordedReads_both hc).string _) _ _) fun typeName => ?_
  refine bind_both (recordWith_both ((recordedReads_both hc).exact 1) _ _) fun custom => ?_
  refine Sim.ite (fun _ => ?_) (fun _ => Sim.pure rfl)
  have hcolumn := Sim.mono ((recordedReads_both hc).column depth typeName.1 rows)
    fun (a b : Unit) _ => (rfl : a = b)
  exact bind_both (recordWith_both hcolumn _ _) fun _ => Sim.pure rfl

theorem readRawDataBlock_both (depth : Nat) :
    Sim c Eq (readRawDataBlock depth) (readRawDataBlock depth) := by
  refine bind_both (recordWith_both ((recordedReads_both hc).string _) _ _) fun name => ?_
  refine bind_both (recordWith_both (blockInfoRecorded_both (recordedReads_both hc) depth) _ _) fun info => ?_
  refine bind_both (recordWith_both (recordedReads_both hc).varint _ _) fun columns => ?_
  refine .liftExcept_both fun count _ => ?_
  refine bind_both (recordWith_both (recordedReads_both hc).varint _ _) fun rows => ?_
  refine .liftExcept_both fun rowCount _ => ?_
  have hloop : ∀ n p, Sim c Eq (iterate (rawBlockColumn depth rowCount) n p)
      (iterate (rawBlockColumn depth rowCount) n p) := by
    intro n
    induction n with
    | zero =>
      intro p
      exact .pure rfl
    | succ n ih =>
      intro p
      exact bind_both (rawBlockColumn_both hc depth rowCount p) ih
  exact bind_both (hloop count _) fun _ => .pure rfl

end Raw

variable {n : Nat} {s s' : Net}

theorem net_readExact_ok {bs : Bytes} (h : readExact (ε := Error) n s = (.ok bs, s')) :
    s.incoming = bs ++ s'.incoming ∧ bs.length = n := by
  change (if n ≤ s.incoming.length then _ else _) = _ at h
  by_cases hn : n ≤ s.incoming.length
  · rw [if_pos hn] at h
    cases h
    exact ⟨(take_append_drop n s.incoming).symm, length_take_of_le hn⟩
  · rw [if_neg hn] at h
    cases h

/-- What a recording has become since `start`: some bytes of the stream were appended to
it, and the budget has paid for each of them. -/
def Verbatim (start r : Recorded Net) : Prop :=
  ∃ appended, r.out = start.out ++ appended ∧
    start.stream.incoming = appended ++ r.stream.incoming ∧
    r.budget + appended.length = start.budget

theorem Verbatim.refl (r : Recorded Net) : Verbatim r r :=
  ⟨[], (append_nil _).symm, rfl, rfl⟩

theorem Verbatim.trans {r₀ r₁ r₂ : Recorded Net} (h₁ : Verbatim r₀ r₁) (h₂ : Verbatim r₁ r₂) :
    Verbatim r₀ r₂ := by
  obtain ⟨bs, hout, hbytes, hbudget⟩ := h₁
  obtain ⟨cs, hout', hbytes', hbudget'⟩ := h₂
  refine ⟨bs ++ cs, ?_, ?_, ?_⟩
  · rw [hout', hout, append_assoc]
  · rw [hbytes, hbytes', append_assoc]
  · rw [length_append]
    omega

/-- Verbatim recordings of one stream. -/
def verbatimFrom (start : Recorded Net) : Corr Error Error (Recorded Net) (Recorded Net) where
  state r r' := r = r' ∧ Verbatim start r
  left := fun _ => False
  right := fun _ => False

variable {x : Read (Recorded Net) α}

theorem Sim.verbatimFrom {start : Recorded Net} (h : ∀ r a r', x r = (.ok a, r') → Verbatim r r') :
    Sim (verbatimFrom start) Eq x x := by
  intro r r' hst
  obtain ⟨rfl, hstart⟩ := hst
  rcases hx : x r with ⟨res, r'⟩
  cases res with
  | error e => trivial
  | ok a => exact ⟨⟨rfl, hstart.trans (h r a r' hx)⟩, rfl⟩

/-- Every read appends what it has read, and charges for it. -/
theorem recordedReads_verbatim (start : Recorded Net) : RecordedReads (verbatimFrom start) where
  exact len := Sim.verbatimFrom fun r bs r' h => by
    obtain ⟨hread, hout, hbudget⟩ := takeRecorded_ok h
    obtain ⟨hbytes, hlen⟩ := net_readExact_ok hread
    exact ⟨bs, hout, hbytes, hlen ▸ hbudget⟩
  varint := by
    refine varintLoop_rel (verbatimFrom start).logic (Sim.verbatimFrom fun r byte r' h => ?_) Sim.fail_fail 10 0 0
    obtain ⟨b, r₁, hbyte, h⟩ := bind_eq_ok_iff.mp h
    obtain ⟨_, r₂, hcharge, h⟩ := bind_eq_ok_iff.mp h
    cases h
    obtain ⟨hbyte, hr₁⟩ := onStream_ok hbyte
    obtain ⟨hpaid, rfl⟩ := charge_ok hcharge
    obtain ⟨bs, s₁, hread, hpure⟩ := bind_eq_ok_iff.mp hbyte
    cases hpure
    obtain ⟨hbytes, hlen⟩ := net_readExact_ok hread
    obtain ⟨b, rfl⟩ := length_eq_one_iff.mp hlen
    rw [hr₁] at hpaid
    rw [hr₁]
    exact ⟨[b], rfl, hbytes, Nat.sub_add_cancel hpaid⟩

theorem Sim.verbatim {R : α → α → Prop} (hx : ∀ start, Sim (StClickHouse.verbatimFrom start) R x x)
    {r r' : Recorded Net} (h : x r = (.ok a, r')) : Verbatim r r' := by
  have hsim := hx r r r ⟨rfl, .refl r⟩
  rw [h] at hsim
  exact hsim.1.2

theorem recordWith_kept (hx : ∀ start, Sim (verbatimFrom start) Eq x x) {out : Bytes}
    {budget : Nat} {a : α × Bytes × Nat} (h : recordWith x out budget s = (.ok a, s')) :
    a.2.1 ++ s'.incoming = out ++ s.incoming := by
  unfold recordWith at h
  rcases hrun : x ⟨s, out, budget⟩ with ⟨res, r⟩
  rw [hrun] at h
  rcases res with e | b
  · cases h
  cases h
  obtain ⟨bs, hout, hbytes, _⟩ := Sim.verbatim hx hrun
  rw [hout, append_assoc]
  exact congrArg (out ++ ·) hbytes.symm

theorem rawBlockColumn_kept {depth rows : Nat} {p p' : RawProgress}
    (h : rawBlockColumn depth rows p s = (.ok p', s')) :
    p'.raw ++ s'.incoming = p.raw ++ s.incoming := by
  have hreads := recordedReads_verbatim
  obtain ⟨name, s₁, hname, h⟩ := bind_eq_ok_iff.mp h
  obtain ⟨typeName, s₂, htype, h⟩ := bind_eq_ok_iff.mp h
  obtain ⟨custom, s₃, hcustom, h⟩ := bind_eq_ok_iff.mp h
  have hname := recordWith_kept (fun start => (hreads start).string _) hname
  have htype := recordWith_kept (fun start => (hreads start).string _) htype
  have hcustom := recordWith_kept (fun start => (hreads start).exact 1) hcustom
  dsimp only at h
  by_cases hrows : rows > 0
  · rw [if_pos hrows] at h
    obtain ⟨data, s₄, hdata, h⟩ := bind_eq_ok_iff.mp h
    cases h
    have hdata := recordWith_kept (fun start => .mono ((hreads start).column depth _ rows)
      fun (a b : Unit) _ => (rfl : a = b)) hdata
    exact hdata.trans (hcustom.trans (htype.trans hname))
  rw [if_neg hrows] at h
  cases h
  exact hcustom.trans (htype.trans hname)

/-- **A raw block is the bytes it was read from**, after its table name. -/
theorem readRawDataBlock_kept {depth : Nat} {block : RawBlock}
    (h : readRawDataBlock depth s = (.ok block, s')) :
    ∃ name s₁, recordWith (readStringRecorded "table name length") [] maxColumnBytes s
        = (.ok name, s₁) ∧ block.data ++ s'.incoming = s₁.incoming := by
  have hreads := recordedReads_verbatim
  obtain ⟨name, s₁, hname, h⟩ := bind_eq_ok_iff.mp h
  refine ⟨name, s₁, hname, ?_⟩
  obtain ⟨info, s₂, hinfo, h⟩ := bind_eq_ok_iff.mp h
  obtain ⟨columns, s₃, hcolumns, h⟩ := bind_eq_ok_iff.mp h
  obtain ⟨count, _, hcount, h⟩ := bind_eq_ok_iff.mp h
  obtain ⟨_, rfl⟩ := liftExcept_eq_ok_iff.mp hcount
  obtain ⟨rows, s₄, hrows, h⟩ := bind_eq_ok_iff.mp h
  obtain ⟨rowCount, _, hrowCount, h⟩ := bind_eq_ok_iff.mp h
  obtain ⟨_, rfl⟩ := liftExcept_eq_ok_iff.mp hrowCount
  obtain ⟨p, s₅, hloop, h⟩ := bind_eq_ok_iff.mp h
  cases h
  have hinfo := recordWith_kept (fun start => blockInfoRecorded_both (hreads start) depth) hinfo
  have hcolumns := recordWith_kept (fun start => (hreads start).varint) hcolumns
  have hrows := recordWith_kept (fun start => (hreads start).varint) hrows
  have hiterate : ∀ (n : Nat) (p p' : RawProgress) (s s' : Net),
      iterate (rawBlockColumn depth rowCount) n p s = (.ok p', s') →
        p'.raw ++ s'.incoming = p.raw ++ s.incoming := by
    intro n
    induction n with
    | zero =>
      intro p p' s s' h
      cases h
      rfl
    | succ n ih =>
      intro p p' s s' h
      obtain ⟨p₁, s₁, hcolumn, h⟩ := bind_eq_ok_iff.mp h
      exact (ih p₁ p' s₁ s' h).trans (rawBlockColumn_kept hcolumn)
  exact (hiterate _ _ _ _ _ hloop).trans (hrows.trans (hcolumns.trans hinfo))

/-- **Raw capture is verbatim.**  The body of a captured block is the bytes of the stream
between the table name and the end of the block.  While a column is captured, in its state
prefix and in its body, at every depth and for every type, the budget pays one for each byte
that is appended. -/
theorem rawCapture_verbatim :
    (∀ (depth : Nat) (s s' : Net) (block : RawBlock),
      readRawDataBlock depth s = (.ok block, s') →
      ∃ name s₁, recordWith (readStringRecorded "table name length") [] maxColumnBytes s
          = (.ok name, s₁) ∧ s₁.incoming = block.data ++ s'.incoming) ∧
    (∀ (depth : Nat) (typeName : Text) (rows : Nat) (r r' : Recorded Net),
      readColumnRawRecorded depth typeName rows r = (.ok (), r') → Verbatim r r') ∧
    ∀ (depth : Nat) (ct : ColumnType) (state : RawColumnState) (r r₁ : Recorded Net),
      readColumnStatePrefixRecorded depth ct r = (.ok state, r₁) → Verbatim r r₁ ∧
        ∀ rows r₂ r', readColumnBodyRawRecorded depth ct state rows r₂ = (.ok (), r') →
          Verbatim r₂ r' := by
  have hops := fun start => (recordedReads_verbatim start).ops
  refine ⟨?_, ?_, ?_⟩
  · intro depth s s' block h
    obtain ⟨name, s₁, hname, hkept⟩ := readRawDataBlock_kept h
    exact ⟨name, s₁, hname, hkept.symm⟩
  · intro depth typeName rows r r' h
    exact Sim.verbatim (fun start => (recordedReads_verbatim start).column depth typeName rows) h
  intro depth ct state r r₁ h
  have hstate := fun start => statePrefix_sim (hops start) depth ct trivial
  have hknown := hstate r r r ⟨rfl, .refl r⟩
  rw [show recordedOps.statePrefix depth ct r = _ from h] at hknown
  refine ⟨hknown.1.2, ?_⟩
  intro rows r₂ r' hbody
  exact Sim.verbatim (fun start =>
    bodyRaw_sim (hops start) depth ct trivial state hknown.2.2 rows) hbody

/-- A block of one UInt8 column with one row, and a byte that follows it. -/
theorem rawCapture_verbatim_uint8 :
    ∃ name s₁, recordWith (readStringRecorded "table name length") [] maxColumnBytes
        (⟨[0, 0, 1, 1, 1, 97, 5, 85, 73, 110, 116, 56, 0, 42, 9], .unexpectedEof, [], [], [], []⟩ : Net)
      = (.ok name, s₁) ∧ s₁.incoming = [0, 1, 1, 1, 97, 5, 85, 73, 110, 116, 56, 0, 42] ++ [9] :=
  rawCapture_verbatim.1 2 _ ⟨[9], .unexpectedEof, [], [], [], []⟩
    ⟨[], 1, 1, [0, 1, 1, 1, 97, 5, 85, 73, 110, 116, 56, 0, 42]⟩ (by decide +kernel)

/-! ## §3. Frames against the bytes inside them. -/

/-- A stream of frames stands where a connection with the bytes inside stands: `fs` are
the frames still to be decoded, the header of the first of them may have been taken
already. -/
structure Serves {codec : Codec} (fs : List (Framed codec)) (rest : Bytes)
    (z : Inflating Net) (t : Net) : Prop where
  codec_eq : z.codec = codec
  frames : z.plain = false
  inner : z.inner = { t with incoming := z.inner.incoming }
  waits : t.waits = []
  wire : z.frame ++ z.inner.incoming = wires fs ++ rest
  header : z.frame = [] ∨ ∃ f gs, fs = f :: gs ∧ z.frame = f.wire.take frameHeaderTotal
  bytes : t.incoming = z.buf ++ payloads fs
  filled : ∀ f ∈ fs, f.payload ≠ []
  pulls : fs.length ≤ z.maxPulls
  produced : z.produced + (payloads fs).length ≤ maxBlockBytes

/-- The correspondence, with some frames to come. -/
def inflated (codec : Codec) (rest : Bytes) : Corr Error Error (Inflating Net) Net where
  state z t := ∃ fs : List (Framed codec), Serves fs rest z t
  left := fun _ => False
  right := fun _ => True

section Frames

variable {codec : Codec} (lawful : codec.Lawful) {f : Framed codec} {fs : List (Framed codec)}
  {rest : Bytes} {z : Inflating Net} {t : Net}

theorem net_readExact {bs more : Bytes} (h : s.incoming = bs ++ more) (hn : bs.length = n) :
    readExact (ε := Error) n s = (.ok bs, { s with incoming := more }) := by
  have hle : n ≤ s.incoming.length := by
    rw [h, length_append]
    omega
  show (if n ≤ s.incoming.length then _ else _) = _
  rw [if_pos hle, h, take_left' hn, drop_left' hn]

include lawful

theorem frameHeader_ok (h : Serves (f :: fs) rest z t) :
    (if z.frame = [] then Inflating.onInner (readExact frameHeaderTotal) else pure z.frame
        : Read (Inflating Net) Bytes) z
      = (.ok (f.wire.take frameHeaderTotal), { z with inner := { z.inner with
          incoming := f.wire.drop frameHeaderTotal ++ (wires fs ++ rest) } }) := by
  have hlong := f.length_wire lawful
  have hlen : (f.wire.take frameHeaderTotal).length = frameHeaderTotal := by
    rw [length_take]
    omega
  have hwire := h.wire
  rw [wires_cons, ← take_append_drop frameHeaderTotal f.wire, append_assoc,
    append_assoc] at hwire
  obtain hempty | ⟨g, gs, heq, htaken⟩ := h.header
  · rw [hempty, nil_append] at hwire
    rw [if_pos hempty]
    unfold Inflating.onInner
    rw [net_readExact hwire hlen]
  injection heq with hg hgs
  subst hg
  have hne : z.frame ≠ [] := by
    intro hnil
    rw [← htaken, hnil] at hlen
    exact absurd hlen (by decide)
  rw [htaken] at hwire
  have hincoming := append_cancel_left hwire
  rw [if_neg hne, ← htaken, ← hincoming]
  rfl

/-- **Pulling the next frame.** -/
theorem pullFrame_ok (h : Serves (f :: fs) rest z t) :
    Inflating.pullFrame z = (.ok (), { z with
      inner := { z.inner with incoming := wires fs ++ rest }
      buf := f.payload
      produced := z.produced + f.payload.length
      frame := [] }) := by
  have hheader := frameHeader_ok lawful h
  have hsize := f.compressedSize_header lawful
  have hlong := f.length_wire lawful
  have hsmall := f.wire_small
  have hbody : (f.wire.drop frameHeaderTotal).length
      = compressedSize (f.wire.take frameHeaderTotal) - headerLen := by
    rw [length_drop]
    unfold frameHeaderTotal checksumLen at *
    omega
  have hdecode := f.decodeFrameBytes_framed lawful
  have hproduced : z.produced + f.payload.length ≤ maxBlockBytes := by
    have hall := h.produced
    rw [payloads_cons, length_append] at hall
    omega
  unfold Inflating.pullFrame
  dsimp only
  rw [bind_ok hheader]
  rw [if_neg (by unfold frameHeaderTotal checksumLen headerLen at *; omega),
    if_neg (by unfold checksumLen at *; omega)]
  have hread : Inflating.onInner (readExact (ε := Error)
      (compressedSize (f.wire.take frameHeaderTotal) - headerLen))
      { z with inner := { z.inner with
          incoming := f.wire.drop frameHeaderTotal ++ (wires fs ++ rest) } }
      = (.ok (f.wire.drop frameHeaderTotal),
          { z with inner := { z.inner with incoming := wires fs ++ rest } }) := by
    unfold Inflating.onInner
    rw [net_readExact rfl hbody]
  rw [bind_ok hread]
  dsimp only [pure, Reader.pure]
  rw [take_append_drop, h.codec_eq, hdecode]
  dsimp only
  rw [checkedBlockBytes_of_le hproduced]

omit lawful in
theorem serves_pulled (h : Serves (f :: fs) rest z t) :
    Serves fs rest { z with
      inner := { z.inner with incoming := wires fs ++ rest }
      buf := f.payload
      produced := z.produced + f.payload.length
      frame := [] } { t with incoming := f.payload ++ payloads fs } where
  codec_eq := h.codec_eq
  frames := h.frames
  inner := by rw [h.inner]
  waits := h.waits
  wire := rfl
  header := .inl rfl
  bytes := rfl
  filled := fun g hg => h.filled g (mem_cons_of_mem _ hg)
  pulls := Nat.le_of_succ_le h.pulls
  produced := by
    have hall := h.produced
    rw [payloads_cons, length_append] at hall
    show z.produced + f.payload.length + _ ≤ _
    omega

variable {fuel : Nat}

omit lawful in
theorem serve_buffered (hbuf : n ≤ z.buf.length) :
    Inflating.serve fuel n z = (.ok (z.buf.take n), { z with buf := z.buf.drop n }) := by
  rw [Inflating.serve]
  exact if_pos hbuf

omit lawful in
theorem serve_pulling (hbuf : ¬ n ≤ z.buf.length) (hframes : z.plain = false) :
    Inflating.serve (fuel + 1) n z = (do
      Inflating.pullFrame
      let bs ← Inflating.serve fuel (n - z.buf.length)
      return z.buf ++ bs) { z with buf := [] } := by
  rw [Inflating.serve]
  dsimp only
  rw [if_neg hbuf, if_neg (by rw [hframes]; decide)]

theorem serve_ok {fs : List (Framed codec)} {z : Inflating Net} {t : Net} :
    Serves fs rest z t → fs.length ≤ fuel → n ≤ t.incoming.length →
      ∃ (z' : Inflating Net) (gs : List (Framed codec)),
        Inflating.serve fuel n z = (.ok (t.incoming.take n), z') ∧
          Serves gs rest z' { t with incoming := t.incoming.drop n } := by
  -- on the frames still to be decoded: the buffer is enough, or one more is pulled
  induction fs generalizing fuel n z t with
  | nil =>
    intro h hfuel hn
    have hbytes := h.bytes
    rw [show payloads ([] : List (Framed codec)) = [] from rfl, append_nil] at hbytes
    rw [hbytes] at hn
    rw [serve_buffered hn, hbytes]
    refine ⟨_, [], rfl, ?_⟩
    exact { h with bytes := by rw [show payloads ([] : List (Framed codec)) = [] from rfl]; simp }
  | cons f fs ih =>
    intro h hfuel hn
    by_cases hbuf : n ≤ z.buf.length
    · rw [serve_buffered hbuf, h.bytes, take_append_of_le_length hbuf,
        drop_append_of_le_length hbuf]
      exact ⟨_, f :: fs, rfl, { h with bytes := rfl }⟩
    obtain ⟨fuel, rfl⟩ : ∃ k, fuel = k + 1 :=
      Nat.exists_eq_succ_of_ne_zero (by rw [length_cons] at hfuel; omega)
    have hfuel' : fs.length ≤ fuel := Nat.le_of_succ_le_succ hfuel
    have hpull := pullFrame_ok lawful ({ h with bytes := rfl } :
      Serves (f :: fs) rest { z with buf := [] } { t with incoming := payloads (f :: fs) })
    have hserves := serves_pulled ({ h with bytes := rfl } :
      Serves (f :: fs) rest { z with buf := [] } { t with incoming := payloads (f :: fs) })
    have hrest : n - z.buf.length ≤ (f.payload ++ payloads fs).length := by
      rw [h.bytes, payloads_cons, length_append] at hn
      omega
    obtain ⟨z', gs, hserve, hafter⟩ := ih hserves hfuel' hrest
    have hincoming : t.incoming = z.buf ++ (f.payload ++ payloads fs) := h.bytes
    have htake : t.incoming.take n
        = z.buf ++ (f.payload ++ payloads fs).take (n - z.buf.length) := by
      rw [hincoming, take_append, take_of_length_le (by omega)]
    refine ⟨z', gs, ?_, ?_⟩
    · rw [serve_pulling hbuf h.frames, bind_ok hpull, bind_ok hserve, htake]
      rfl
    · rw [hincoming, drop_append, drop_of_length_le (by omega), nil_append]
      exact hafter

theorem reads_inflated (rest : Bytes) : Reads (inflated codec rest) := by
  intro n z t hst
  obtain ⟨fs, h⟩ := hst
  show SimOut _ _ (Inflating.serve z.maxPulls n z) (if n ≤ t.incoming.length then _ else _)
  by_cases hn : n ≤ t.incoming.length
  · obtain ⟨z', gs, hserve, hafter⟩ := serve_ok lawful h h.pulls hn
    rw [if_pos hn, hserve]
    exact ⟨⟨gs, hafter⟩, rfl⟩
  rw [if_neg hn]
  cases Inflating.serve z.maxPulls n z with
  | mk res z' => cases res <;> trivial

omit lawful in
/-- Once the bytes inside are read to their end, so are the frames. -/
theorem Serves.drained (h : Serves fs rest z t) : (drained rest).state z.inner t := by
  refine ⟨h.inner, h.waits, fun hempty => ?_⟩
  have hbytes := h.bytes
  rw [hempty] at hbytes
  have hpayloads := (append_eq_nil_iff.mp hbytes.symm).2
  cases fs with
  | cons f fs =>
    rw [payloads_cons] at hpayloads
    exact absurd (append_eq_nil_iff.mp hpayloads).1 (h.filled f mem_cons_self)
  | nil =>
    have hwire := h.wire
    obtain hframe | ⟨f, gs, hcons, _⟩ := h.header
    · rw [hframe] at hwire
      exact hwire
    · cases hcons

omit lawful in
theorem within_ok {x : Read Net α} (hwaits : s.waits = []) (hx : x s = (.ok a, s')) :
    within x s = (.ok (some a), s') := by
  cases s with
  | mk incoming fault waits writes sent events =>
    cases hwaits
    show (x >>= fun a => pure (some a)) _ = _
    rw [bind_ok hx]
    rfl

/-- A body read through an opened stream of frames. -/
def readThrough {α : Type} (codec : Codec) (maxPulls : Nat) (body : Read (Inflating Net) α)
    (buf : Bytes) (plain : Bool) (frame : Bytes) : Read Net α := fun s =>
  match body ⟨codec, maxPulls, s, buf, plain, 0, frame⟩ with
  | (res, z) => (res, z.inner)

variable {body : Read (Inflating Net) α}

omit lawful in
theorem inflate_sniffed {maxPulls : Nat} {first checksum : Bytes} {method : CompressionMethod}
    {s₁ s₂ : Net} (hfirst : readExact (ε := Error) 1 s = (.ok first, s₁))
    (hchecksum : within (readExact (ε := Error) checksumLen) s₁ = (.ok (some checksum), s₂))
    (hmethod : CompressionMethod.fromByte ((first ++ checksum).getD checksumLen 0) = some method) :
    Inflating.inflate codec maxPulls body s = (do
      let frame := first ++ checksum ++ (← readExact (frameHeaderTotal - checksumLen - 1))
      if compressedSize frame < headerLen then readThrough codec maxPulls body frame true []
      else if compressedSize frame > maxFrameSize then
        fail (.compression ("compressed_size " ++ toString (compressedSize frame) ++ " exceeds "
          ++ toString maxFrameSize ++ " byte frame cap"))
      else readThrough codec maxPulls body [] false frame) s₂ := by
  unfold Inflating.inflate
  rw [bind_ok hfirst, bind_ok hchecksum]
  dsimp only
  rw [hmethod]
  rfl

/-- **A body in frames**: what reads the bytes inside reads the frames, and the frames
end where the bytes do. -/
theorem inflate_frames {maxPulls : Nat} {y : Read Net α}
    (hbody : Sim (inflated codec rest) Eq body y) (hfs : fs ≠ [])
    (hfilled : ∀ f ∈ fs, f.payload ≠ []) (hpulls : fs.length ≤ maxPulls)
    (hproduced : (payloads fs).length ≤ maxBlockBytes) (hwaits : t.waits = []) {t' : Net}
    (hy : y { t with incoming := payloads fs } = (.ok a, t')) :
    ∃ s', Inflating.inflate codec maxPulls body { t with incoming := wires fs ++ rest }
        = (.ok a, s') ∧ (drained rest).state s' t' := by
  rcases fs with _ | ⟨f, fs⟩
  · exact absurd rfl hfs
  obtain ⟨first, checksum, sizes, frameBody, hwire, hfirst, hchecksum, hsizes, hmethod, hheader,
    hlen, hwhole⟩ := f.sniffed lawful
  have hsize := f.compressedSize_header lawful
  have hlong := f.length_wire lawful
  have hsmall := f.wire_small
  have hincoming : wires (f :: fs) ++ rest
      = first ++ (checksum ++ (sizes ++ (frameBody ++ (wires fs ++ rest)))) := by
    rw [wires_cons, hwire]
    simp only [append_assoc]
  -- the stream opens in front of the body of the first frame
  have hserves : Serves (f :: fs) rest
      ⟨codec, maxPulls, { t with incoming := frameBody ++ (wires fs ++ rest) }, [], false, 0,
        f.wire.take frameHeaderTotal⟩ { t with incoming := payloads (f :: fs) } :=
    { codec_eq := rfl
      frames := rfl
      inner := rfl
      waits := hwaits
      wire := by
        rw [wires_cons, ← append_assoc, ← append_assoc, hwhole]
      header := .inr ⟨f, fs, rfl, rfl⟩
      bytes := rfl
      filled := hfilled
      pulls := hpulls
      produced := by rw [zero_add]; exact hproduced }
  have hopen : Inflating.inflate codec maxPulls body { t with incoming := wires (f :: fs) ++ rest }
      = readThrough codec maxPulls body [] false (f.wire.take frameHeaderTotal)
        { t with incoming := frameBody ++ (wires fs ++ rest) } := by
    have hsniff : within (readExact (ε := Error) checksumLen)
        { t with incoming := checksum ++ (sizes ++ (frameBody ++ (wires fs ++ rest))) }
        = (.ok (some checksum), { t with incoming := sizes ++ (frameBody ++ (wires fs ++ rest)) }) :=
      within_ok hwaits (net_readExact rfl hchecksum)
    have hone : readExact (ε := Error) 1
        { t with incoming := first ++ (checksum ++ (sizes ++ (frameBody ++ (wires fs ++ rest)))) }
        = (.ok first, { t with
            incoming := checksum ++ (sizes ++ (frameBody ++ (wires fs ++ rest))) }) :=
      net_readExact rfl hfirst
    rw [hincoming, inflate_sniffed hone hsniff hmethod, bind_ok (net_readExact rfl hsizes), hheader,
      if_neg (by unfold frameHeaderTotal checksumLen headerLen at *; omega),
      if_neg (by unfold checksumLen at *; omega)]
  have hsim := hbody _ _ ⟨f :: fs, hserves⟩
  rw [hy] at hsim
  rw [hopen]
  unfold readThrough
  rcases hrun : body ⟨codec, maxPulls, { t with incoming := frameBody ++ (wires fs ++ rest) }, [],
      false, 0, f.wire.take frameHeaderTotal⟩ with ⟨res, z⟩
  rw [hrun] at hsim
  rcases res with e | b
  · exact hsim.elim
  obtain ⟨⟨gs, hafter⟩, rfl⟩ := hsim
  exact ⟨_, rfl, hafter.drained⟩

end Frames

end StClickHouse
