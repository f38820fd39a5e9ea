/-
  StClickHouse.Column.Context
  **READING A COLUMN OUT OF A BUFFER.**

  `ReadColumnContext` (`shared/block.rs`) and the String column (`shared/column/string.rs`),
  on which the typed columns are built.  A decoder ends with a value, with an error, or it
  panics and does not return, which is `Stop.depth`.  Machine words have 64 bits.
-/
import StClickHouse.Lib.Utf8
import StClickHouse.Query.Packet
import StClickHouse.Wire.Varint

namespace StClickHouse

open ByteReader RustText List

/-! ## §1. The context. -/

/-- `ReadColumnContext`. -/
structure ReadColumnContext where
  rows : Nat
  pos : Nat
  buf : Bytes
  deriving Repr, DecidableEq

/-- A decoder of a column. -/
abbrev Decoder (α : Type) := Read ReadColumnContext α

/-- The decoder panics. -/
def panics {α : Type} : Readout α := .error .depth

/-- The result of a step that does not move the context. -/
def ofResult {α : Type} (x : Readout α) : Decoder α := fun ctx => (x, ctx)

namespace ReadColumnContext

/-- The row count of the context. -/
def getRows : Decoder Nat := fun ctx => (.ok ctx.rows, ctx)

/-- The rest of a decoder with another row count, which is put back after it. -/
def withRows {α : Type} (rows : Nat) (x : Decoder α) : Decoder α := fun ctx =>
  match x { ctx with rows := rows } with
  | (res, ctx') => (res, { ctx' with rows := ctx.rows })

/-- `read_exact`. -/
def readExact (n : Nat) : Decoder Bytes := fun ctx =>
  if 2 ^ 64 ≤ ctx.pos + n then
    (.error (.error (.text ("ReadColumnContext: requested " ++ toString n ++ " bytes at offset "
      ++ toString ctx.pos ++ ", length overflow"))), ctx)
  else if ctx.buf.length < ctx.pos + n then
    (.error (.error (.text ("ReadColumnContext: requested " ++ toString n ++ " bytes at offset "
      ++ toString ctx.pos ++ ", buffer len " ++ toString ctx.buf.length))), ctx)
  else (.ok ((ctx.buf.drop ctx.pos).take n), { ctx with pos := ctx.pos + n })

/-- `rows * width` bytes, or an error of the caller where that does not fit. -/
def readRows (overflow : String) (width : Nat) : Decoder Bytes := do
  let rows ← getRows
  if 2 ^ 64 ≤ rows * width then fail (.text overflow)
  else readExact (rows * width)

/-- `read_rows_bytes`. -/
def readRowsBytes (width : Nat) : Decoder Bytes :=
  readRows "ReadColumnContext: row byte length overflow" width

/-- `read_offsets`. -/
def readOffsets : Decoder (List Nat) := do
  let rows ← getRows
  if rows = 0 then return []
  else do
    let bytes ← readRowsBytes 8
    return (chunksExact 8 bytes).map leNat

end ReadColumnContext

open ReadColumnContext

/-- `read_varint_from_slice`: the value, and how many bytes it takes. -/
def readVarintFromSlice (data : Bytes) : Readout (Nat × Nat) :=
  match varintLoop (sliceByte "unexpected end of data in varint") (fail varintOverflow) 10 0 0
      data with
  | (.ok value, rest) => .ok (value, data.length - rest.length)
  | (.error e, _) => .error e

/-! ## §2. The String column. -/

/-- `StringColumnData`: where the body of each string is in the bytes of the column. -/
structure StringColumnData where
  ranges : List (Nat × Nat)
  data : Bytes
  deriving Repr, DecidableEq

/-- The scan of `String::read_column`.  The slice a length is read from starts where the
    body before it ends, which nothing has checked against the buffer. -/
def scanStrings (buf : Bytes) (pos : Nat) :
    Nat → Nat → Readout (List (Nat × Nat) × Nat)
  | 0, scanPos => .ok ([], scanPos)
  | rows + 1, scanPos =>
    if buf.length < pos + scanPos then panics
    else do
      let len ← readVarintFromSlice (buf.drop (pos + scanPos))
      let bodyStart := scanPos + len.2
      let bodyEnd := bodyStart + len.1
      if 2 ^ 64 ≤ bodyEnd then
        .error (.error (.text "StringColumnData: body range overflow"))
      else do
        let later ← scanStrings buf pos rows bodyEnd
        return ((bodyStart, bodyEnd) :: later.1, later.2)

/-- `Vec::with_capacity`: elements of a size, as many as fit `isize::MAX` bytes. -/
def withCapacity (size n : Nat) : Readout Unit :=
  if 2 ^ 63 ≤ n * size then panics else .ok ()

/-- The ranges of the strings before the context, and where the last of them ends. -/
def stringRanges (rows : Nat) : Decoder (List (Nat × Nat) × Nat) := fun ctx =>
  (scanStrings ctx.buf ctx.pos rows 0, ctx)

/-- `String::read_column`. -/
def readStringColumn : Decoder StringColumnData := do
  let rows ← getRows
  if rows = 0 then return ⟨[], []⟩
  else do
    ofResult (withCapacity 16 rows)
    let found ← stringRanges rows
    let data ← ReadColumnContext.readExact found.2
    return ⟨found.1, data⟩

namespace StringColumnData

/-- `get_bytes`. -/
def getBytes (col : StringColumnData) (index : Nat) : Readout Bytes :=
  match col.ranges[index]? with
  | none => .error (.error (.text "StringColumnData: index out of bounds"))
  | some (start, stop) =>
    if start ≤ stop ∧ stop ≤ col.data.length then
      .ok ((col.data.drop start).take (stop - start))
    else .error (.error (.text "StringColumnData: invalid range"))

/-- `get_string`. -/
def getString (col : StringColumnData) (index : Nat) : Readout Text := do
  let bytes ← col.getBytes index
  return fromUtf8Lossy bytes

end StringColumnData

/-! ## §3. Reading what has been written. -/

/-- Virtual addresses have at most 57 bits, so no buffer is longer. -/
def maxMemory : Nat := 2 ^ 57

namespace ReadColumnContext

/-- The bytes the context has before it, in a buffer that is in memory. -/
structure Holds (ctx : ReadColumnContext) (bytes : Bytes) : Prop where
  inside : ctx.pos ≤ ctx.buf.length
  rest : ctx.buf.drop ctx.pos = bytes
  fits : ctx.buf.length ≤ maxMemory

/-- The context some bytes further on. -/
def advance (ctx : ReadColumnContext) (n : Nat) : ReadColumnContext := { ctx with pos := ctx.pos + n }

variable {ctx : ReadColumnContext} {a b : Bytes}

theorem Holds.length (h : ctx.Holds b) : ctx.pos + b.length = ctx.buf.length := by
  have hlen := congrArg List.length h.rest
  rw [length_drop] at hlen
  have := h.inside
  omega

theorem Holds.length_le (h : ctx.Holds b) : ctx.pos + b.length ≤ 2 ^ 57 := by
  rw [h.length]
  exact h.fits

theorem Holds.advance (h : ctx.Holds (a ++ b)) : (ctx.advance a.length).Holds b where
  inside := by
    have hlen := h.length
    rw [length_append] at hlen
    show ctx.pos + a.length ≤ ctx.buf.length
    omega
  rest := by
    show ctx.buf.drop (ctx.pos + a.length) = b
    rw [← drop_drop, h.rest, drop_left]
  fits := h.fits

theorem Holds.rows (h : ctx.Holds b) (rows : Nat) : Holds { ctx with rows := rows } b :=
  ⟨h.inside, h.rest, h.fits⟩

theorem advance_advance (ctx : ReadColumnContext) (m n : Nat) :
    (ctx.advance m).advance n = ctx.advance (m + n) := by
  unfold ReadColumnContext.advance
  rw [add_assoc]

theorem readExact_at (h : ctx.Holds (a ++ b)) :
    ReadColumnContext.readExact a.length ctx = (.ok a, ctx.advance a.length) := by
  have hlen := h.length
  have hle := h.length_le
  rw [length_append] at hlen hle
  unfold ReadColumnContext.readExact
  rw [if_neg (by omega), if_neg (by omega), h.rest, take_left]
  rfl

theorem readRows_at (overflow : String) {width : Nat} (h : ctx.Holds (a ++ b))
    (hlen : a.length = ctx.rows * width) :
    readRows overflow width ctx = (.ok a, ctx.advance a.length) := by
  have hle := h.length_le
  rw [length_append] at hle
  unfold readRows
  rw [bind_ok (show getRows ctx = (.ok ctx.rows, ctx) from rfl), if_neg (by omega), ← hlen]
  exact readExact_at h

theorem chunksExact_words : ∀ words : List Nat,
    chunksExact 8 (words.flatMap (leBytes 8)) = words.map (leBytes 8) := by
  intro words
  induction words with
  | nil => rfl
  | cons word words ih =>
    have hlen : (leBytes 8 word).length = 8 := leBytes_length 8 word
    rw [flatMap_cons, chunksExact_append (by decide) _ (by rw [hlen]), ih]
    unfold chunksExact
    rw [hlen]
    show [(leBytes 8 word).take 8] ++ _ = _
    rfl

theorem length_words (words : List Nat) : (words.flatMap (leBytes 8)).length = words.length * 8 := by
  induction words with
  | nil => rfl
  | cons word words ih =>
    rw [flatMap_cons, length_append, leBytes_length, ih, length_cons]
    omega

theorem readOffsets_at {offsets : List Nat} (h : ctx.Holds (offsets.flatMap (leBytes 8) ++ b))
    (hrows : ctx.rows = offsets.length) (hword : ∀ offset ∈ offsets, offset < 2 ^ 64) :
    readOffsets ctx = (.ok offsets, ctx.advance (offsets.flatMap (leBytes 8)).length) := by
  unfold readOffsets
  rw [bind_ok (show getRows ctx = (.ok ctx.rows, ctx) from rfl)]
  by_cases hzero : ctx.rows = 0
  · rw [if_pos hzero]
    obtain rfl : offsets = [] := length_eq_zero_iff.mp (by omega)
    rfl
  have hbytes : readRowsBytes 8 ctx
      = (.ok (offsets.flatMap (leBytes 8)), ctx.advance (offsets.flatMap (leBytes 8)).length) :=
    readRows_at _ h (by rw [length_words, hrows])
  rw [if_neg hzero, bind_ok hbytes, chunksExact_words, map_map]
  have hid : offsets.map (leNat ∘ leBytes 8) = offsets := by
    refine (map_congr_left fun offset hmem => ?_).trans (map_id offsets)
    have hlt : offset < 256 ^ 8 := Nat.lt_of_lt_of_eq (hword offset hmem) (by decide)
    exact leNat_leBytes hlt
  rw [hid]
  rfl

end ReadColumnContext

theorem readVarintFromSlice_encode {n : Nat} (h : n < 2 ^ 64) (rest : Bytes) :
    readVarintFromSlice (encodeVarint n ++ rest) = .ok (n, (encodeVarint n).length) := by
  unfold readVarintFromSlice
  rw [(sliceLoop_ok_iff (fails_fail _)).mpr ⟨_, rfl, isVarint_encode h⟩]
  dsimp only
  rw [length_append, Nat.add_sub_cancel]

/-- The body of a string is where its range says. -/
def Body (data : Bytes) (range : Nat × Nat) (s : Text) : Prop :=
  range.1 ≤ range.2 ∧ range.2 ≤ data.length ∧ (data.drop range.1).take (range.2 - range.1) = toUtf8 s

theorem scanStrings_at {buf : Bytes} {pos : Nat} (ss : List Text) {done b : Bytes} :
    pos ≤ buf.length → buf.drop pos = done ++ (ss.flatMap writeString ++ b) →
    buf.length ≤ maxMemory →
    ∃ ranges, scanStrings buf pos ss.length done.length
        = .ok (ranges, (done ++ ss.flatMap writeString).length) ∧
      List.Forall₂ (Body (done ++ ss.flatMap writeString)) ranges ss := by
  induction ss generalizing done b with
  | nil =>
    intro _ _ _
    exact ⟨[], by simp [scanStrings], .nil⟩
  | cons s ss ih =>
    intro hpos hrest hfits
    have hlen := congrArg List.length hrest
    simp only [length_drop, length_append, flatMap_cons, writeString,
      writeStringBytes] at hlen
    unfold maxMemory at hfits
    have hbytes : buf.drop (pos + done.length) = encodeVarint (toUtf8 s).length
        ++ (toUtf8 s ++ (ss.flatMap writeString ++ b)) := by
      rw [← drop_drop, hrest, drop_left, flatMap_cons]
      simp only [writeString, writeStringBytes, append_assoc]
    have hnext : buf.drop pos = (done ++ writeString s) ++ (ss.flatMap writeString ++ b) := by
      rw [hrest, flatMap_cons]
      simp only [append_assoc]
    obtain ⟨ranges, hscan, hranges⟩ := ih hpos hnext hfits
    have hstart : (done ++ writeString s).length
        = done.length + (encodeVarint (toUtf8 s).length).length + (toUtf8 s).length := by
      simp only [length_append, writeString, writeStringBytes]
      omega
    have hall : done ++ (s :: ss).flatMap writeString
        = done ++ writeString s ++ ss.flatMap writeString := by
      rw [flatMap_cons, append_assoc]
    refine ⟨(done.length + (encodeVarint (toUtf8 s).length).length,
      done.length + (encodeVarint (toUtf8 s).length).length + (toUtf8 s).length) :: ranges, ?_, ?_⟩
    · rw [length_cons, scanStrings, if_neg (by omega), hbytes,
        readVarintFromSlice_encode (by omega)]
      show (if 2 ^ 64 ≤ done.length + (encodeVarint (toUtf8 s).length).length + (toUtf8 s).length
        then _ else _) = _
      rw [if_neg (by omega), ← hstart, hscan, hall]
      rfl
    rw [hall]
    refine .cons ⟨Nat.le_add_right _ _, ?_, ?_⟩ hranges
    · rw [length_append]
      omega
    rw [Nat.add_sub_cancel_left, ← length_append]
    have hbody : done ++ writeString s ++ ss.flatMap writeString
        = (done ++ encodeVarint (toUtf8 s).length) ++ (toUtf8 s ++ ss.flatMap writeString) := by
      simp only [writeString, writeStringBytes, append_assoc]
    rw [hbody, drop_left, take_left]

/-- **Strings that have been written are read.** -/
theorem stringColumn_reads {ctx : ReadColumnContext} {ss : List Text} {b : Bytes}
    (h : ctx.Holds (ss.flatMap writeString ++ b)) (hrows : ctx.rows = ss.length) :
    ∃ col, readStringColumn ctx = (.ok col, ctx.advance (ss.flatMap writeString).length) ∧
      col.ranges.length = ss.length ∧ ∀ i s, ss[i]? = some s → col.getString i = .ok s := by
  unfold readStringColumn
  rw [bind_ok (show getRows ctx = (.ok ctx.rows, ctx) from rfl)]
  by_cases hzero : ctx.rows = 0
  · obtain rfl : ss = [] := length_eq_zero_iff.mp (by omega)
    rw [if_pos hzero]
    exact ⟨⟨[], []⟩, rfl, rfl, nofun⟩
  obtain ⟨ranges, hscan, hranges⟩ := @scanStrings_at ctx.buf ctx.pos ss [] b h.inside h.rest h.fits
  -- every string takes a byte at least
  have hbytes : ss.length ≤ (ss.flatMap writeString).length := length_le_flatMap fun s _ => by
    exact append_ne_nil_of_left_ne_nil (encodeVarint_ne_nil _) _
  have hle := h.length_le
  rw [length_append] at hle
  have hcap : ofResult (withCapacity 16 ctx.rows) ctx = (.ok (), ctx) := by
    unfold ofResult withCapacity
    rw [if_neg (by omega)]
  rw [if_neg hzero, bind_ok hcap]
  rw [nil_append, length_nil] at hscan
  have hdata := readExact_at h
  have hfound : stringRanges ctx.rows ctx
      = (.ok (ranges, (ss.flatMap writeString).length), ctx) := by
    unfold stringRanges
    rw [hrows, hscan]
  rw [bind_ok hfound, bind_ok hdata]
  refine ⟨⟨ranges, ss.flatMap writeString⟩, rfl, hranges.length_eq, fun i s hs => ?_⟩
  obtain ⟨hi, rfl⟩ := List.getElem?_eq_some_iff.mp hs
  have hir : i < ranges.length := by rw [hranges.length_eq]; exact hi
  obtain ⟨hle, hlen, hbody⟩ := hranges.get hir hi
  unfold StringColumnData.getString StringColumnData.getBytes
  rw [List.getElem?_eq_getElem hir]
  dsimp only
  rw [if_pos ⟨hle, hlen⟩]
  have hlossy := fromUtf8Lossy_toUtf8 (ss.get ⟨i, hi⟩)
  rw [← hbody] at hlossy
  exact congrArg Except.ok hlossy

end StClickHouse
