/-
  StClickHouse.Sync.Lockstep
  **THE SYNC READERS IN LOCKSTEP.**

  The readers of the sync engine ask for exact reads and, in the response loops, for the
  clock and for writes.  On two streams that answer these alike every loop runs in
  lockstep with itself: a response that is read from a socket through a buffered reader,
  in whatever pieces it arrives, is read as from a list of bytes, up to the same error.
-/
import StClickHouse.Sync.Response
import StClickHouse.Lib.Lockstep
import StClickHouse.Wire.RawSim

namespace StClickHouse

open ByteReader RustText

/-! ## §1. Primitives. -/

section Primitives

variable {σ τ : Type} [ByteStream Error σ] [ByteStream Error τ] {r : σ → τ → Prop}
  (hr : ReadsAlike Error r)

include hr

theorem readByte_lock : Locks r readByte :=
  .of_rel (readByte_rel _ fun n => (hr n).rel)

theorem readU64_lock : Locks r readU64 :=
  .of_rel (readU64_rel _ fun n => (hr n).rel)

theorem readVarint_lock : Locks r readVarint :=
  .of_rel (readVarint_rel _ fun n => (hr n).rel)

theorem readString_lock : Locks r readString := by
  refine .bind (readVarint_lock hr) fun value => ?_
  refine .bind .liftExcept fun len => ?_
  refine .bind (hr len) fun buf => ?_
  cases fromUtf8 buf with
  | ok s => exact .pure
  | error e => exact .fail

theorem blockInfo_lock (fuel : Nat) : Locks r (blockInfoLoop readVarint readExact fuel) :=
  .of_rel (blockInfoLoop_rel _ (readVarint_lock hr).rel (fun n => (hr n).rel) fuel)

theorem blockCounts_lock : Locks r (blockCounts readVarint) :=
  .of_rel (blockCounts_rel _ (readVarint_lock hr).rel)

end Primitives

/-! ## §2. Recordings. -/

section Recorded

variable {σ τ : Type}

/-- Recordings of related streams, equal so far. -/
def recordedAlike (r : σ → τ → Prop) (a : Recorded σ) (b : Recorded τ) : Prop :=
  r a.stream b.stream ∧ a.out = b.out ∧ a.budget = b.budget

variable {r : σ → τ → Prop}

theorem onStream_lock {α : Type} {x : Read σ α} {y : Read τ α} (h : Lock r x y) :
    Lock (recordedAlike r) (onStream x) (onStream y) := by
  intro a b hst
  obtain ⟨hres, hstream⟩ := h a.stream b.stream hst.1
  exact ⟨hres, hstream, hst.2⟩

theorem charge_lock (len : Nat) (what : String) :
    Lock (recordedAlike r) (charge len what) (charge len what) := by
  intro a b hst
  obtain ⟨hstream, hout, hbudget⟩ := hst
  unfold charge
  rw [hbudget]
  cases chargeBudget b.budget len what with
  | ok budget => exact ⟨rfl, hstream, hout, rfl⟩
  | error e => exact ⟨rfl, hstream, hout, hbudget⟩

theorem record_lock (bs : Bytes) : Lock (recordedAlike r) (record bs) (record bs) := by
  intro a b hst
  obtain ⟨hstream, hout, hbudget⟩ := hst
  exact ⟨rfl, hstream, congrArg (· ++ bs) hout, hbudget⟩

theorem records_lock [ByteStream Error σ] [ByteStream Error τ] (hr : ReadsAlike Error r) :
    Records (Logic.lock (recordedAlike r)) where
  exact n := (onStream_lock (hr n)).rel
  byte := (onStream_lock (readByte_lock hr)).rel
  charge len what := (charge_lock len what).rel
  record bs := (record_lock bs).rel

theorem recording_lock {x : Read (Recorded σ) Unit} {y : Read (Recorded τ) Unit}
    (h : Lock (recordedAlike r) x y) : Lock r (recording x) (recording y) := by
  intro s t hst
  rcases hx : x ⟨s, [], maxColumnBytes⟩ with ⟨res, a⟩
  obtain ⟨b, hy, hstream, hout, _⟩ := h.run (t := ⟨t, [], maxColumnBytes⟩) ⟨hst, rfl, rfl⟩ hx
  unfold recording
  rw [hx, hy]
  cases res with
  | ok _ => exact ⟨congrArg Except.ok hout, hstream⟩
  | error e => exact ⟨rfl, hstream⟩

end Recorded

variable {σ τ : Type} [ByteStream Error σ] [ByteStream Error τ] {r : σ → τ → Prop}

/-! ## §3. Columns. -/

section Into

/-- A recording reader of any stream in lockstep with itself. -/
abbrev LocksInto {α : Type} (d : Recorded σ → Recorded τ → Prop)
    (x : ∀ {ρ : Type} [ByteStream Error ρ], Read (Recorded ρ) α) : Prop :=
  Lock d (@x σ _) (@x τ _)

variable {d : Recorded σ → Recorded τ → Prop}

/-- The kept reads of two streams. -/
structure IntoAlike (d : Recorded σ → Recorded τ → Prop) : Prop where
  exact : ∀ len, Lock d (readExactInto len) (readExactInto len)
  varint : Lock d (readVarintInto : Read (Recorded σ) Nat) readVarintInto

theorem intoAlike (hr : ReadsAlike Error r) : IntoAlike (recordedAlike r) where
  exact len := .ite .pure (.of_rel ((records_lock hr).take _ len))
  varint := .of_rel ((records_lock hr).varint _)

namespace IntoAlike

variable (hd : IntoAlike d)

include hd

variable (name : String)

theorem string : LocksInto d (readStringInto name) := by
  refine .bind hd.varint fun value => ?_
  refine .bind .liftExcept fun len => ?_
  refine .bind (hd.exact len) fun buf => ?_
  cases fromUtf8 buf with
  | ok text => exact .pure
  | error e => exact .fail

variable (rows : Nat)

theorem strings (lengthName : String) : LocksInto d (stringsInto rows lengthName) := by
  refine .times ?_ rows
  refine .bind hd.varint fun value => ?_
  refine .bind .liftExcept fun len => ?_
  exact .bind (hd.exact len) fun _ => .pure

theorem rawOffsets (name : String) : LocksInto d (rawOffsetsInto rows name) := by
  refine .iterate (fun total => ?_) rows 0
  refine .bind (.bind (hd.exact 8) fun _ => .pure) fun _ => ?_
  exact .liftExcept

theorem offsets (name : String) : LocksInto d (readOffsetsInto rows name) := by
  refine .bind .liftExcept fun nbytes => ?_
  exact .bind (hd.exact nbytes) fun _ => .liftExcept

theorem ops : (intoOps : RawOps (Recorded σ)).Simulates (Logic.lock d) (fun _ => True) intoOps where
  field n := (hd.exact n).rel
  bytes n := (hd.exact n).rel
  varint := hd.varint.rel
  jsonPath := (Lock.bind (hd.string _) fun _ => Lock.pure).rel_unit
  typeName := (hd.string _).rel
  columnLen := fun _ _ _ => Lock.liftExcept.rel
  offsets rows name := (hd.rawOffsets rows name).rel
  strings rows name := (hd.strings rows name).rel_unit
  leaf := fun ct rows _ _ => rawLeaf_sim (fun rows name => (hd.strings rows name).rel_unit)
    (fun n => (hd.exact n).rel) ct rows
  dynamicType := fun _ => Logic.mono _ Lock.liftExcept.rel fun _ _ heq => ⟨heq, trivial⟩
  variantType := fun _ _ _ _ _ => Logic.mono _ Lock.liftExcept.rel fun _ _ heq => ⟨heq, trivial⟩
  lcHeader := fun _ => Lock.liftExcept.rel
  below := fun _ _ _ _ => trivial

theorem fixed (width : Nat) (what : String) : LocksInto d (readFixedInto rows width what) :=
  .bind .liftExcept fun len => .bind (hd.exact len) fun _ => .pure

theorem byteRows : LocksInto d (readBytesInto rows) :=
  .bind (hd.exact rows) fun _ => .pure

end IntoAlike

end Into

section Columns

variable (hr : ReadsAlike Error r)

include hr

variable (ct : ColumnType) (rows : Nat)

theorem readLeafInto_lock :
    LocksInto (recordedAlike r) (readLeafInto ct rows) := by
  have hd := intoAlike hr
  cases ct with
  | string => exact hd.strings rows _
  | json =>
    refine .bind (onStream_lock (readU64_lock hr)) fun version => ?_
    exact .ite .fail (hd.strings rows _)
  | decimal precision scale =>
    exact .of_rel (decimalColumn_rel _ fun width => (hd.fixed rows width _).rel)
  | _ => first
    | exact hd.byteRows rows
    | exact hd.fixed rows _ _
    | exact .fail

section Into

variable {columnA : ColumnType → Nat → Read (Recorded σ) Unit}
  {columnB : ColumnType → Nat → Read (Recorded τ) Unit}
  (hcolumn : ∀ ct rows, Lock (recordedAlike r) (columnA ct rows) (columnB ct rows))

include hcolumn

theorem readLowCardinalityInto_lock (inner : ColumnType) (rows : Nat) :
    Lock (recordedAlike r) (readLowCardinalityInto columnA inner rows)
      (readLowCardinalityInto columnB inner rows) := by
  refine .bind (onStream_lock (hr 24)) fun header => ?_
  refine .bind .liftExcept fun idxWidth => ?_
  refine .bind .liftExcept fun numKeys => ?_
  refine .bind (onStream_lock (recording_lock (hcolumn inner numKeys))) fun dict => ?_
  refine .bind (onStream_lock (readU64_lock hr)) fun indexes => ?_
  refine .ite .fail ?_
  refine .bind .liftExcept fun len => ?_
  refine .bind (charge_lock len _) fun _ => ?_
  refine .bind (onStream_lock (hr len)) fun indexData => ?_
  exact .bind .liftExcept fun data => record_lock data

theorem readTypedInto_lock (depth : Nat) (ct : ColumnType) (rows : Nat) :
    Lock (recordedAlike r) (readTypedInto columnA depth ct rows)
      (readTypedInto columnB depth ct rows) := by
  have hd := intoAlike hr
  have hleaf := readLeafInto_lock hr ct rows
  have hstate := statePrefix_sim hd.ops depth
  have hbody := bodyRaw_sim hd.ops depth
  cases ct with
  | nullable inner => exact .bind (hd.exact rows) fun _ => hcolumn inner rows
  | array inner => exact .bind (hd.offsets rows _) fun total => hcolumn inner total
  | map key value =>
    refine .bind (hd.offsets rows _) fun total => ?_
    exact .bind (hcolumn key total) fun _ => hcolumn value total
  | tuple elems => exact .forEach (fun elem => hcolumn elem rows) _
  | lowCardinality inner => exact readLowCardinalityInto_lock hr hcolumn inner rows
  | point => exact .bind (hcolumn _ rows) fun _ => hcolumn _ rows
  | ring | polygon | multiPolygon => exact hcolumn _ rows
  | dynamic =>
    refine .of_unit (Logic.bind _ (dynamicState_sim hd.ops hstate) fun state _ hstate => ?_)
    obtain ⟨rfl, hknown⟩ := hstate
    exact dynamicBody_sim hd.ops hbody hknown rows
  | variant types =>
    refine .of_unit (Logic.bind _ (Logic.collect _ fun t _ => hstate t trivial)
      fun states _ hstates => ?_)
    obtain ⟨rfl, hknown⟩ := hstates
    exact variantBody_sim hd.ops hbody trivial (knownStates_iff.mpr hknown) rows
  | _ => exact hleaf

end Into

variable (depth : Nat)

theorem readColumnDataInto_lock (ct : ColumnType) (rows : Nat) :
    LocksInto (recordedAlike r) (readColumnDataInto depth ct rows) := by
  induction depth generalizing ct rows with
  | zero => exact .ite .pure .tooDeep
  | succ depth ih => exact .ite .pure (readTypedInto_lock hr ih depth ct rows)

theorem discardExact_lock (len : Nat) : Locks r (discardExact len) :=
  .of_rel (discardWindows_rel _ (fun n => (hr n).rel) _ len len)

theorem discardStrings_lock (lengthName : String) :
    Locks r (discardStrings rows lengthName) := by
  refine .times ?_ rows
  refine .bind (readVarint_lock hr) fun value => ?_
  exact .bind .liftExcept fun len => discardExact_lock hr len

theorem discardOffsets_lock (name : String) : Locks r (discardOffsets rows name) := by
  refine .iterate (fun total => ?_) rows 0
  exact .bind (readU64_lock hr) fun _ => .liftExcept

theorem discardFixedColumn_lock (width : Nat) (what : String) :
    Locks r (discardFixedColumn rows width what) :=
  .bind .liftExcept fun len => discardExact_lock hr len

theorem discardLeaf_lock : Locks r (discardLeaf ct rows) := by
  cases ct with
  | string => exact discardStrings_lock hr rows _
  | json =>
    refine .bind (readU64_lock hr) fun version => ?_
    exact .ite .fail (discardStrings_lock hr rows _)
  | decimal precision scale =>
    exact .of_rel (decimalColumn_rel _ fun width => (discardFixedColumn_lock hr rows width _).rel)
  | _ => first
    | exact discardExact_lock hr rows
    | exact discardFixedColumn_lock hr rows _ _
    | exact .fail

section Discard

variable {columnA : ColumnType → Nat → Read σ Unit}
  {columnB : ColumnType → Nat → Read τ Unit}
  (hcolumn : ∀ ct rows, Lock r (columnA ct rows) (columnB ct rows))

include hcolumn

theorem discardLowCardinality_lock (inner : ColumnType) (rows : Nat) :
    Lock r (discardLowCardinality columnA inner rows) (discardLowCardinality columnB inner rows) := by
  refine .ite .pure ?_
  refine .bind (hr 24) fun header => ?_
  refine .bind .liftExcept fun idxWidth => ?_
  refine .bind .liftExcept fun numKeys => ?_
  refine .bind (hcolumn inner numKeys) fun _ => ?_
  refine .bind (readU64_lock hr) fun indexes => .ite .fail ?_
  exact .bind .liftExcept fun len => discardExact_lock hr len

theorem discardTyped_lock (ct : ColumnType) (rows : Nat) :
    Lock r (discardTyped columnA ct rows) (discardTyped columnB ct rows) := by
  have hleaf := discardLeaf_lock hr ct rows
  cases ct with
  | nullable inner => exact .bind (discardExact_lock hr rows) fun _ => hcolumn inner rows
  | array inner => exact .bind (discardOffsets_lock hr rows _) fun total => hcolumn inner total
  | map key value =>
    refine .bind (discardOffsets_lock hr rows _) fun total => ?_
    exact .bind (hcolumn key total) fun _ => hcolumn value total
  | tuple elems => exact .forEach (fun elem => hcolumn elem rows) _
  | lowCardinality inner => exact discardLowCardinality_lock hr hcolumn inner rows
  | point => exact .bind (hcolumn _ rows) fun _ => hcolumn _ rows
  | ring | polygon | multiPolygon => exact hcolumn _ rows
  | _ => exact hleaf

end Discard

theorem discardColumnData_lock (ct : ColumnType) (rows : Nat) :
    Locks r (discardColumnData depth ct rows) := by
  induction depth generalizing ct rows with
  | zero => exact .ite .pure .tooDeep
  | succ depth ih => exact .ite .pure (discardTyped_lock hr ih ct rows)

/-! ## §4. Blocks. -/

theorem readColumnHeader_lock : Locks r readColumnHeader := by
  refine .bind (readString_lock hr) fun name => ?_
  refine .bind (readString_lock hr) fun typeName => ?_
  refine .bind (readByte_lock hr) fun custom => .ite .fail ?_
  exact .bind .liftExcept fun ct => .pure

/-- **A block in lockstep.** -/
theorem readBlockBody_lock : Locks r (readBlockBody depth) := by
  refine .bind (blockInfo_lock hr depth) fun _ => ?_
  refine .bind (blockCounts_lock hr) fun counts => .ite .pure ?_
  refine .bind (.collect (fun _ => ?_) _) fun columns => .pure
  refine .bind (readColumnHeader_lock hr) fun header => ?_
  exact .bind (recording_lock (readColumnDataInto_lock hr depth _ _)) fun data => .pure

/-- **A discarded block in lockstep.** -/
theorem discardBlockBody_lock : Locks r (discardBlockBody depth) := by
  refine .bind (blockInfo_lock hr depth) fun _ => ?_
  refine .bind (blockCounts_lock hr) fun counts => ?_
  refine .bind (.times ?_ counts.1) fun _ => .pure
  refine .bind (readColumnHeader_lock hr) fun header => ?_
  exact discardColumnData_lock hr depth _ _

end Columns

/-! ## §5. Bodies in frames. -/

omit [ByteStream Error σ] [ByteStream Error τ] in
theorem mapError_lock {α : Type} {x : Read σ α} {y : Read τ α} (f : Error → Error)
    (h : Lock r x y) : Lock r (mapError f x) (mapError f y) := by
  intro s t hst
  rcases hx : x s with ⟨res, s'⟩
  obtain ⟨t', hy, hst'⟩ := h.run hst hx
  unfold mapError
  rw [hx, hy]
  cases res with
  | ok a => exact ⟨rfl, hst'⟩
  | error e => cases e with
    | error e | depth => exact ⟨rfl, hst'⟩

/-- The same reader of frames over another stream. -/
def Inflating.onto {ρ : Type} (z : Inflating σ) (t : ρ) : Inflating ρ :=
  ⟨z.codec, z.maxPulls, t, z.buf, z.plain, z.produced, z.frame⟩

/-- Two readers of frames over related streams, otherwise the same. -/
def inflatingAlike (r : σ → τ → Prop) (z : Inflating σ) (z' : Inflating τ) : Prop :=
  ∃ t, r z.inner t ∧ z' = z.onto t

section Inflating

/-- The header of the next frame, which may have been read already. -/
def frameHeader (frame : Bytes) : Read (Inflating σ) Bytes :=
  if frame = [] then Inflating.onInner (readExact frameHeaderTotal) else pure frame

/-- The bytes of the next frame. -/
def pullBytes (frame : Bytes) : Read (Inflating σ) Bytes := do
  let header ← frameHeader frame
  if compressedSize header < headerLen then fail (.io .invalidData)
  else if compressedSize header > maxFrameSize then fail (.io .invalidData)
  else do
    let body ← Inflating.onInner (readExact (compressedSize header - headerLen))
    return header ++ body

omit [ByteStream Error σ] in
/-- A frame that has been read is decoded and served from. -/
def swapFrame (codec : Codec) :
    Readout Bytes × Inflating σ → Readout Unit × Inflating σ
  | (.error e, z) => (.error e, z)
  | (.ok frame, z) =>
    match decodeFrameBytes codec frame with
    | .error _ => (.error (.error (.io .invalidData)), { z with frame := [] })
    | .ok payload =>
      match checkedBlockBytes z.produced payload.length with
      | none => (.error (.error (.io .invalidData)), { z with frame := [] })
      | some produced => (.ok (), { z with frame := [], produced := produced, buf := payload })

theorem pullFrame_eq (z : Inflating σ) :
    Inflating.pullFrame z = swapFrame z.codec (pullBytes z.frame z) := rfl

omit [ByteStream Error σ] [ByteStream Error τ] in
theorem onInner_lock {α : Type} {x : Read σ α} {y : Read τ α} (h : Lock r x y) :
    Lock (inflatingAlike r) (Inflating.onInner x) (Inflating.onInner y) := by
  rintro z _ ⟨t, hst, rfl⟩
  obtain ⟨hres, hstate⟩ := h z.inner t hst
  exact ⟨hres, (y t).2, hstate, rfl⟩

variable (hr : ReadsAlike Error r)

include hr

theorem pullBytes_lock (frame : Bytes) : Lock (inflatingAlike r)
    (pullBytes frame : Read (Inflating σ) Bytes) (pullBytes frame) := by
  refine .bind (.ite (onInner_lock (hr _)) .pure) fun header => ?_
  refine .ite .fail (.ite .fail ?_)
  exact .bind (onInner_lock (hr _)) fun body => .pure

theorem pullFrame_lock : Lock (inflatingAlike r)
    (Inflating.pullFrame : Read (Inflating σ) Unit) Inflating.pullFrame := by
  rintro z _ ⟨t, hst, rfl⟩
  have hover : Inflating.pullFrame (z.onto t) = swapFrame z.codec (pullBytes z.frame (z.onto t)) := rfl
  rw [pullFrame_eq, hover]
  rcases hx : pullBytes z.frame z with ⟨res, z₁⟩
  obtain ⟨_, hy, t', hst', rfl⟩ := (pullBytes_lock hr z.frame).run ⟨t, hst, rfl⟩ hx
  rw [hy]
  rcases res with e | frame
  · exact ⟨rfl, t', hst', rfl⟩
  -- what is decoded does not depend on the stream below
  unfold swapFrame Inflating.onto
  dsimp only
  split
  · exact ⟨rfl, t', hst', rfl⟩
  split
  · exact ⟨rfl, t', hst', rfl⟩
  · exact ⟨rfl, t', hst', rfl⟩

/-- One step of serving; `more` is what comes of it when the buffer does not suffice. -/
theorem serveStep_lock {moreA : Readout Bytes × Inflating σ}
    {moreB : Readout Bytes × Inflating τ}
    (hmore : moreA.1 = moreB.1 ∧ inflatingAlike r moreA.2 moreB.2)
    (n : Nat) (z : Inflating σ) (t : τ) (hst : r z.inner t) :
    let a := if n ≤ z.buf.length then (.ok (z.buf.take n), { z with buf := z.buf.drop n })
      else if z.plain then
        (do
          let bs ← Inflating.onInner (readExact (n - z.buf.length))
          return z.buf ++ bs) { z with buf := [] }
      else moreA
    let b := if n ≤ z.buf.length then (.ok (z.buf.take n), { z.onto t with buf := z.buf.drop n })
      else if z.plain then
        (do
          let bs ← Inflating.onInner (readExact (n - z.buf.length))
          return z.buf ++ bs) { z.onto t with buf := [] }
      else moreB
    a.1 = b.1 ∧ inflatingAlike r a.2 b.2 := by
  intro a b
  by_cases hbuf : n ≤ z.buf.length
  · rw [show a = _ from if_pos hbuf, show b = _ from if_pos hbuf]
    exact ⟨rfl, t, hst, rfl⟩
  by_cases hplain : z.plain = true
  · rw [show a = _ from (if_neg hbuf).trans (if_pos hplain),
      show b = _ from (if_neg hbuf).trans (if_pos hplain)]
    exact Lock.bind (onInner_lock (hr _)) (fun bs => Lock.pure) _ _ ⟨t, hst, rfl⟩
  rw [show a = _ from (if_neg hbuf).trans (if_neg hplain),
    show b = _ from (if_neg hbuf).trans (if_neg hplain)]
  exact hmore

theorem serve_lock : ∀ fuel n : Nat, Lock (inflatingAlike r)
    (Inflating.serve fuel n : Read (Inflating σ) Bytes) (Inflating.serve fuel n) := by
  intro fuel
  induction fuel with
  | zero =>
    rintro n z _ ⟨t, hst, rfl⟩
    rw [Inflating.serve, Inflating.serve]
    exact serveStep_lock hr ⟨rfl, t, hst, rfl⟩ n z t hst
  | succ fuel ih =>
    rintro n z _ ⟨t, hst, rfl⟩
    rw [Inflating.serve, Inflating.serve]
    refine serveStep_lock hr ?_ n z t hst
    refine Lock.bind (pullFrame_lock hr) (fun _ => ?_) { z with buf := [] }
      { z.onto t with buf := [] } ⟨t, hst, rfl⟩
    exact Lock.bind (ih _) fun bs => Lock.pure

theorem readsAlike_inflating : ReadsAlike Error (inflatingAlike r) := by
  rintro n z _ ⟨t, hst, rfl⟩
  exact serve_lock hr z.maxPulls n z (z.onto t) ⟨t, hst, rfl⟩

end Inflating

namespace Sync

section Bodies

variable {α : Type}

omit [ByteStream Error σ] [ByteStream Error τ] in
theorem throughFrames_lock (env : Env) {bodyA : Read (Inflating σ) α}
    {bodyB : Read (Inflating τ) α} (h : Lock (inflatingAlike r) bodyA bodyB)
    (buf : Bytes) (plain : Bool) (produced : Nat) :
    Lock r (throughFrames env bodyA buf plain produced)
      (throughFrames env bodyB buf plain produced) := by
  intro s t hst
  rcases hx : bodyA ⟨env.codec, env.depth, s, buf, plain, produced, []⟩ with ⟨res, z⟩
  obtain ⟨_, hy, t', hst', rfl⟩ := h.run ⟨t, hst, rfl⟩ hx
  have hx' : throughFrames env bodyA buf plain produced s = (res, z.inner) := by
    unfold throughFrames
    rw [hx]
  have hy' : throughFrames env bodyB buf plain produced t = (res, t') := by
    unfold throughFrames
    rw [show bodyB ⟨env.codec, env.depth, t, buf, plain, produced, []⟩ = _ from hy]
    rfl
  rw [hx', hy']
  exact ⟨rfl, hst'⟩

variable (hr : ReadsAlike Error r)

include hr

/-- **A body in frames in lockstep.** -/
theorem decompressing_lock {α : Type} (env : Env) {bodyA : Read (Inflating σ) α}
    {bodyB : Read (Inflating τ) α} (h : Lock (inflatingAlike r) bodyA bodyB) :
    Lock r (decompressing env bodyA) (decompressing env bodyB) := by
  have hthrough := throughFrames_lock env h
  have hread := fun n => mapError_lock invalidData (hr n)
  refine .bind (hread 1) fun first => ?_
  refine .bind (hread checksumLen) fun rest => ?_
  dsimp only
  rcases CompressionMethod.fromByte ((first ++ rest).getD checksumLen 0) with _ | method
  · exact hthrough _ true 0
  refine .bind (hread _) fun tail => ?_
  refine .ite (hthrough _ true 0) (.ite .fail ?_)
  refine .bind (hread _) fun body => ?_
  rcases decodeFrameBytes env.codec (first ++ rest ++ tail ++ body) with e | payload
  · exact .fail
  dsimp only
  cases checkedBlockBytes 0 payload.length with
  | none => exact .fail
  | some produced => exact hthrough payload false produced

theorem maybeDecompressing_lock (env : Env) (compressed : Bool)
    {body : ∀ {ρ : Type} [ByteStream Error ρ], Read ρ α}
    (h : ∀ {ρ ρ' : Type} [ByteStream Error ρ] [ByteStream Error ρ'] {d : ρ → ρ' → Prop}, ReadsAlike Error d → Lock d (body : Read ρ α) body)
    :
    Lock r (maybeDecompressing env compressed body : Read σ α)
      (maybeDecompressing env compressed body) := by
  unfold maybeDecompressing
  cases compressed with
  | true => exact decompressing_lock hr env (h (readsAlike_inflating hr))
  | false => exact h hr

theorem readBlockFrom_lock (env : Env) (compressed : Bool) :
    Locks r (readBlockFrom env compressed) :=
  .bind (readString_lock hr) fun _ =>
    maybeDecompressing_lock hr env compressed fun hd => readBlockBody_lock hd env.depth

theorem discardBlockFrom_lock (env : Env) (compressed : Bool) :
    Locks r (discardBlockFrom env compressed) :=
  .bind (readString_lock hr) fun _ =>
    maybeDecompressing_lock hr env compressed fun hd => discardBlockBody_lock hd env.depth

theorem readTaggedBlockBodyFrom_lock (env : Env) (compressed : Bool) :
    Locks r (readTaggedBlockBodyFrom env compressed) := by
  refine .bind (readString_lock hr) fun _ => ?_
  exact .bind (maybeDecompressing_lock hr env compressed fun hd =>
    readBlockBody_lock hd env.depth) fun _ => .pure

theorem discardTaggedBlockBodyFrom_lock (env : Env) (compressed : Bool) :
    Locks r (discardTaggedBlockBodyFrom env compressed) := by
  refine .bind (readString_lock hr) fun _ => ?_
  exact .bind (maybeDecompressing_lock hr env compressed fun hd =>
    discardBlockBody_lock hd env.depth) fun _ => .pure

theorem readTableColumns_lock : Locks r readTableColumns :=
  .bind (readString_lock hr) fun _ => .bind (readString_lock hr) fun _ => .pure

theorem readTableColumnsFrom_lock (env : Env) (compressed : Bool) :
    Locks r (readTableColumnsFrom env compressed) :=
  maybeDecompressing_lock hr env compressed fun hd => readTableColumns_lock hd

theorem readLog_lock (env : Env) : Locks r (readLog env) :=
  .bind (readString_lock hr) fun _ =>
    .bind (readBlockBody_lock hr env.depth) fun _ => .pure

theorem discardLog_lock (env : Env) : Locks r (discardLog env) :=
  .bind (readString_lock hr) fun _ =>
    .bind (discardBlockBody_lock hr env.depth) fun _ => .pure

/-! ## §6. The other packets. -/

theorem readStringBytes_lock : Locks r readStringBytes := by
  refine .bind (readVarint_lock hr) fun value => ?_
  exact .bind .liftExcept fun len => hr len

theorem readStringLossy_lock : Locks r readStringLossy :=
  .bind (readStringBytes_lock hr) fun _ => .pure

variable (depth : Nat)

theorem exceptionLevels_lock (root : Option (Int × String)) (messages : List String) :
    Locks r (exceptionLevels depth root messages) := by
  induction depth generalizing root messages with
  | zero => exact .tooDeep
  | succ depth ih =>
    refine .bind (hr 4) fun code => ?_
    refine .bind (readStringLossy_lock hr) fun name => ?_
    refine .bind (readStringLossy_lock hr) fun msg => ?_
    refine .bind (readStringBytes_lock hr) fun _ => ?_
    refine .bind (readByte_lock hr) fun nested => ?_
    exact .ite .pure (ih _ _)

theorem readExceptionPacket_lock :
    Lock r (readExceptionPacket depth : Read σ α) (readExceptionPacket depth) :=
  .bind (exceptionLevels_lock hr depth none []) fun _ => .fail

variable (rev : Nat)

theorem skipProgressPacket_lock : Locks r (skipProgressPacket rev) := by
  have hv := readVarint_lock hr
  refine .bind hv fun _ => .bind hv fun _ => .bind hv fun _ => ?_
  refine .bind (.ite (.bind hv fun _ => .bind hv fun _ => .pure) .pure)
    fun _ => ?_
  refine .bind (.ite (.bind hv fun _ => .pure) .pure) fun _ => ?_
  exact .ite (.bind hv fun _ => .pure) .pure

theorem skipProfileInfoPacket_lock : Locks r (skipProfileInfoPacket rev) := by
  have hv := readVarint_lock hr
  have hb := readByte_lock hr
  refine .bind hv fun _ => .bind hv fun _ => .bind hv fun _ => ?_
  refine .bind hb fun _ => .bind hv fun _ => .bind hb fun _ => ?_
  exact .ite (.bind hb fun _ => .bind hv fun _ => .pure) .pure

theorem discardExactBy1024_lock (len : Nat) : Locks r (discardExactBy1024 len) :=
  .of_rel (discardWindows_rel _ (fun n => (hr n).rel) _ len len)

theorem skipPartUuidsPacket_lock : Locks r skipPartUuidsPacket := by
  refine .bind (readVarint_lock hr) fun count => ?_
  exact .bind .liftExcept fun len => discardExactBy1024_lock hr len

theorem skipMergeTreePartInfo_lock : Locks r skipMergeTreePartInfo := by
  have hu := readU64_lock hr
  refine .bind hu fun _ => .bind (readString_lock hr) fun _ => .bind hu fun _ => ?_
  refine .bind hu fun _ => .bind hu fun _ => .bind hu fun _ => ?_
  exact .bind (readByte_lock hr) fun _ => .pure

theorem skipMarkRanges_lock : Locks r skipMarkRanges := by
  refine .bind (readU64_lock hr) fun count => ?_
  exact .bind .liftExcept fun len => discardExactBy1024_lock hr len

theorem skipRangesInDataPartsDescription_lock : Locks r skipRangesInDataPartsDescription := by
  have hv := readVarint_lock hr
  refine .bind hv fun count => .times ?_ count
  refine .bind (skipMergeTreePartInfo_lock hr) fun _ => ?_
  refine .bind (skipMarkRanges_lock hr) fun _ => .bind hv fun _ => ?_
  exact .bind (readString_lock hr) fun _ => .bind hv fun _ => .pure

theorem skipParallelReadAnnouncement_lock : Locks r skipParallelReadAnnouncement := by
  have hv := readVarint_lock hr
  have hu := readU64_lock hr
  refine .bind hu fun _ => .bind (readByte_lock hr) fun _ => ?_
  refine .bind (skipRangesInDataPartsDescription_lock hr) fun _ => ?_
  refine .bind hu fun _ => .bind hu fun _ => .bind hv fun _ => .bind hv fun _ => ?_
  exact .bind (readString_lock hr) fun _ => .pure

theorem readParallelReadRequestStreamId_lock : Locks r readParallelReadRequestStreamId := by
  have hu := readU64_lock hr
  refine .bind hu fun _ => .bind (readByte_lock hr) fun _ => ?_
  refine .bind hu fun _ => .bind hu fun _ => ?_
  exact .bind (skipRangesInDataPartsDescription_lock hr) fun _ => readString_lock hr

theorem readTableStatus_lock : Locks r (readTableStatus rev) := by
  have hv := readVarint_lock hr
  refine .bind (readByte_lock hr) fun flag => .ite .pure ?_
  refine .bind hv fun delay => ?_
  exact .ite (.bind hv fun readonly => .pure) .pure

theorem tablesStatusPacket_lock (packetType : Nat) :
    Locks r (tablesStatusPacket depth rev packetType) := by
  unfold tablesStatusPacket
  split
  · exact readExceptionPacket_lock hr depth
  · refine .ite .fail ?_
    refine .bind (readVarint_lock hr) fun count => .bind .liftExcept fun count => ?_
    refine .collect (fun _ => ?_) _
    refine .bind (readString_lock hr) fun database => ?_
    refine .bind (readString_lock hr) fun table => ?_
    exact .bind (readTableStatus_lock hr rev) fun status => .pure
  · exact .fail

theorem tablesStatusReply_lock : Locks r (tablesStatusReply depth rev) :=
  .bind (readVarint_lock hr) fun packetType => tablesStatusPacket_lock hr depth rev packetType

theorem pingReply_lock : Locks r pingReply :=
  .bind (readByte_lock hr) fun _ => .ite .pure .fail

end Bodies

/-! ## §7. The loops. -/

section Loops

variable [Duplex σ] [Duplex τ]

/-- Reads, the clock and writes of two streams in lockstep. -/
structure DuplexAlike (r : σ → τ → Prop) : Prop where
  reads : ReadsAlike Error r
  expired : Lock r (expired : Read σ Bool) expired
  write : ∀ pkt, Lock r (writeNative pkt : Read σ Unit) (writeNative pkt)

omit [Duplex σ] [Duplex τ] [ByteStream Error σ] [ByteStream Error τ] in
/-- **A loop in lockstep.** -/
theorem loop_lock {H R : Type} {turnA : H → Read σ (Turn H R)}
    {turnB : H → Read τ (Turn H R)} (hturn : ∀ h, Lock r (turnA h) (turnB h)) (fuel : Nat)
    (h : H) : Lock r (loop turnA fuel h) (loop turnB fuel h) := by
  induction fuel generalizing h with
  | zero => exact .tooDeep
  | succ fuel ih =>
    refine .bind (hturn h) fun turn => ?_
    cases turn with
    | more h => exact ih h
    | done res => exact .pure

variable (hr : DuplexAlike r) {H R : Type}

include hr

theorem handleCoordinatorPacket_lock (packetType : Nat) :
    Lock r (handleCoordinatorPacket packetType : Read σ Bool)
      (handleCoordinatorPacket packetType) := by
  refine .ite ?_ (.ite ?_ (.ite ?_ .pure))
  · exact .bind (hr.write _) fun _ => .pure
  · exact .bind (skipParallelReadAnnouncement_lock hr.reads) fun _ => .pure
  · refine .bind (readParallelReadRequestStreamId_lock hr.reads) fun streamId => ?_
    exact .bind (hr.write _) fun _ => .pure

/-- The handlers of one loop on two streams. -/
structure HandlersAlike (r : σ → τ → Prop) (p : Handlers σ H R) (q : Handlers τ H R) : Prop where
  header : Lock r p.header q.header
  onData : ∀ h, Lock r (p.onData h) (q.onData h)
  onSide : Lock r p.onSide q.onSide
  onLog : Lock r p.onLog q.onLog
  onTagged : Lock r p.onTagged q.onTagged
  onEnd : p.onEnd = q.onEnd
  unknown : p.unknown = q.unknown

theorem packet_lock (env : Env) (reply : Reply) {p : Handlers σ H R} {q : Handlers τ H R}
    (hp : HandlersAlike r p q) (h : H) (packetType : Nat) :
    Lock r (p.packet env reply h packetType) (q.packet env reply h packetType) := by
  have hread := hr.reads
  unfold Handlers.packet
  split
  · exact hp.onData h
  · exact readExceptionPacket_lock hread env.depth
  · exact .bind (skipProgressPacket_lock hread reply.rev) fun _ => .pure
  · exact .pure
  · rw [hp.onEnd]
    exact .bind .liftExcept fun res => .pure
  · exact .bind (skipProfileInfoPacket_lock hread reply.rev) fun _ => .pure
  · exact .bind hp.onSide fun _ => .pure
  · exact .bind hp.onSide fun _ => .pure
  · exact .bind hp.onLog fun _ => .pure
  · exact .bind hp.onTagged fun _ => .pure
  · exact .bind (skipPartUuidsPacket_lock hread) fun _ => .pure
  · exact .bind (readTableColumnsFrom_lock hread env reply.compressed) fun _ => .pure
  · exact .bind (readString_lock hread) fun _ => .pure
  rw [hp.unknown]
  refine .bind (handleCoordinatorPacket_lock hr _) fun handled => ?_
  exact .ite .pure .fail

/-- **One packet in lockstep.** -/
theorem turn_lock (env : Env) (reply : Reply) {p : Handlers σ H R} {q : Handlers τ H R}
    (hp : HandlersAlike r p q) (h : H) : Lock r (p.turn env reply h) (q.turn env reply h) :=
  .bind hp.header fun packetType => packet_lock hr env reply hp h packetType

theorem responseHeader_lock : Lock r (responseHeader : Read σ Nat) responseHeader := by
  refine .bind hr.expired fun late => .ite .fail ?_
  exact mapError_lock timedOutText (readVarint_lock hr.reads)

variable (env : Env) (reply : Reply)

theorem blocksHandlers_alike :
    HandlersAlike r (blocksHandlers env reply : Handlers σ _ _) (blocksHandlers env reply) where
  header := responseHeader_lock hr
  onData _ := .bind (readBlockFrom_lock hr.reads env reply.compressed) fun _ =>
    .bind .liftExcept fun _ => .pure
  onSide := .bind (readBlockFrom_lock hr.reads env reply.compressed) fun _ => .pure
  onLog := readLog_lock hr.reads env
  onTagged := readTaggedBlockBodyFrom_lock hr.reads env reply.compressed
  onEnd := rfl
  unknown := rfl

theorem rowCountHandlers_alike :
    HandlersAlike r (rowCountHandlers env reply : Handlers σ _ _) (rowCountHandlers env reply) where
  header := responseHeader_lock hr
  onData _ := .bind (discardBlockFrom_lock hr.reads env reply.compressed) fun _ =>
    .bind .liftExcept fun _ => .pure
  onSide := .bind (discardBlockFrom_lock hr.reads env reply.compressed) fun _ => .pure
  onLog := discardLog_lock hr.reads env
  onTagged := discardTaggedBlockBodyFrom_lock hr.reads env reply.compressed
  onEnd := rfl
  unknown := rfl

theorem viewsHandlers_alike (visitor : Nat → Block → Result Unit) :
    HandlersAlike r (viewsHandlers env reply visitor : Handlers σ _ _)
      (viewsHandlers env reply visitor) where
  __ := rowCountHandlers_alike hr env reply
  onData _ := .bind (readBlockFrom_lock hr.reads env reply.compressed) fun _ =>
    .bind .liftExcept fun _ => .pure
  onEnd := rfl
  unknown := rfl

theorem structureHandlers_alike :
    HandlersAlike r (structureHandlers env reply : Handlers σ _ _)
      (structureHandlers env reply) where
  __ := blocksHandlers_alike hr env reply
  header := .bind hr.expired fun _ => .ite .fail (readVarint_lock hr.reads)
  onData _ := .bind (readBlockFrom_lock hr.reads env reply.compressed) fun _ => .pure
  onEnd := rfl
  unknown := rfl

end Loops

end Sync

end StClickHouse
