/-
  StClickHouse.Buffer.Framing
  **THE SKIPPER FRAMES COLUMNS LIKE THE STREAM READER.**

  `skip_column_data` passes over exactly the bytes `read_column_async` takes,
  for the types on which the two agree how a column is laid out (`framedAlike`).
  The reader looks at more than the frame: it refuses a LowCardinality index
  outside its dictionary and a JSON path that is not UTF-8, which the skipper
  passes over, and it has a byte budget for a raw column.
-/
import StClickHouse.Async.ColumnReader
import StClickHouse.Buffer.Carried
import StClickHouse.Wire.Varint

namespace StClickHouse

open ByteReader RustText List

/-! ## §1. A stream of bytes and a buffer. -/

section Slice

variable {c : Corr Error Error Bytes Slice}

theorem sliceTake_sim (hc : c.state = Eq) (msg : String) (n : Nat) :
    Sim c Eq (readExact n) (sliceTake msg n) := by
  intro s t hst
  rw [hc] at hst
  cases hst
  unfold sliceTake
  by_cases hn : n ≤ s.length
  · rw [readExact_list hn, if_pos hn]
    refine ⟨?_, rfl⟩
    rw [hc]
  have hfail : readExact (ε := Error) n s = (.error (.error endOfInput), []) := if_neg hn
  rw [hfail, if_neg hn]
  trivial

theorem sliceByte_sim (hc : c.state = Eq) (msg : String) :
    Sim c Eq readByte (sliceByte msg) := by
  refine bind_both (sliceTake_sim hc msg 1) fun bs => ?_
  exact .pure rfl

theorem readU64Le_sim (hc : c.state = Eq) : Sim c Eq readU64 readU64Le := by
  refine bind_both (sliceTake_sim hc _ 8) fun bs => ?_
  exact .pure rfl

theorem sliceVarint_sim (hc : c.state = Eq) (msg : String) :
    Sim c Eq readVarint (sliceVarint msg) :=
  varintLoop_rel c.logic (sliceByte_sim hc msg) .fail_bind_fail 10 0 0

theorem wireStringLen_sim {σ τ : Type} {c : Corr Error Error σ τ} (value : Nat) (what : String) :
    Sim c Eq (liftExcept (checkedStringLen value what))
      (liftExcept (wireStringLen value)) := by
  unfold checkedStringLen checkedLimit wireStringLen
  by_cases hcap : value > maxStringBytes
  · rw [if_pos hcap, if_pos hcap]
    exact .fail_fail
  · rw [if_neg hcap, if_neg hcap]
    exact .pure rfl

theorem checkedColumnLen_sim {σ τ : Type} {c : Corr Error Error σ τ} (rows width : Nat)
    (what what' : String) :
    Sim c Eq (liftExcept (checkedColumnLen rows width what))
      (liftExcept (checkedColumnLen rows width what')) := by
  unfold checkedColumnLen checkedLimit
  by_cases hover : rows * width ≥ usizeBound
  · rw [if_pos hover, if_pos hover]
    exact .fail_fail
  rw [if_neg hover, if_neg hover]
  by_cases hcap : rows * width > maxColumnBytes
  · rw [if_pos hcap, if_pos hcap]
    exact .fail_fail
  · rw [if_neg hcap, if_neg hcap]
    exact .pure rfl

end Slice

/-! ## §2. The types both lay out alike. -/

namespace ColumnType

mutual

/-- The stream reader and the skipper lay the type out alike: an element type
survives printing, a dictionary has no state prefix (the skipper reads none for
it), and a Variant is laid out alike by the raw walkers. -/
def framedAlike : ColumnType → Bool
  | .nullable inner | .array inner => inner.framedAlike && !inner.dropsParams
  | .lowCardinality inner => inner.framedAlike && !inner.dropsParams && inner.stateless
  | .map k v => k.framedAlike && !k.dropsParams && (v.framedAlike && !v.dropsParams)
  | .tuple types => framedAlikeAll types
  | .variant types => rawAlikeAll types && !dropsParamsAny types
  | _ => true

/-- All elements of a Tuple. -/
def framedAlikeAll : List ColumnType → Bool
  | [] => true
  | t :: ts => t.framedAlike && !t.dropsParams && framedAlikeAll ts

end

theorem framedAlikeAll_iff {types : List ColumnType} :
    framedAlikeAll types = true ↔
      ∀ t ∈ types, t.framedAlike = true ∧ t.dropsParams = false := by
  induction types with
  | nil => simp [framedAlikeAll]
  | cons t ts ih => simp [framedAlikeAll, ih]

/-- The element types of a type that is laid out alike survive printing and are
laid out alike; a Variant is the raw walkers' business. -/
theorem framedAlike_child {ct : ColumnType} (h : ct.framedAlike = true)
    (hvariant : ∀ types, ct ≠ .variant types) :
    ∀ t ∈ ct.children, t.framedAlike = true ∧ t.dropsParams = false := by
  cases ct with
  | nullable inner | array inner =>
    have hinner : (inner.framedAlike && !inner.dropsParams) = true := h
    simp only [Bool.and_eq_true, Bool.not_eq_true'] at hinner
    exact forall_mem_singleton.mpr hinner
  | lowCardinality inner =>
    have hinner : (inner.framedAlike && !inner.dropsParams && inner.stateless) = true := h
    simp only [Bool.and_eq_true, Bool.not_eq_true'] at hinner
    exact forall_mem_singleton.mpr hinner.1
  | map k v =>
    have hboth : (k.framedAlike && !k.dropsParams && (v.framedAlike && !v.dropsParams)) = true := h
    simp only [Bool.and_eq_true, Bool.not_eq_true'] at hboth
    exact forall_mem_cons.mpr ⟨hboth.1, forall_mem_singleton.mpr hboth.2⟩
  | tuple types => exact framedAlikeAll_iff.mp h
  | variant types => exact absurd rfl (hvariant types)
  | point | ring | polygon | multiPolygon => exact forall_mem_singleton.mpr ⟨rfl, rfl⟩
  | _ => intro t ht; cases ht

end ColumnType

/-! ## §3. What the reader refuses and the skipper passes over. -/

/-- The reader stops alone: at a cap, where a LowCardinality column does not
expand, or at a JSON path that is not UTF-8. -/
def RejectsContent (e : Error) : Prop :=
  e.isCap = true
  ∨ (∃ dict inner idxs iw ni, materializeLcInner dict inner idxs iw ni = .error e)
  ∨ ∃ bytes u, fromUtf8 bytes = .error u
      ∧ e = .text ("utf8 in " ++ "JSON path length" ++ ": " ++ u.render)

/-- The stream reader against the skipper: equal positions, and the errors each
side may report alone. -/
def framing : Corr Error Error Bytes Slice where
  state := Eq
  left := fun e => ∃ e', e = .error e' ∧ RejectsContent e'
  right := fun e => e = .error notCarried

theorem framing_allowsCaps : Corr.AllowsCaps framing := fun e he => ⟨e, rfl, .inl he⟩

/-! ## §4. The raw walkers. -/

/-- The recording of a stream against a buffer. -/
abbrev rawFraming : Corr Error Error (Recorded Bytes) Slice := recordedCorr framing

theorem readExactRecorded_sim (msg : String) (n : Nat) :
    Sim rawFraming Eq (readExactRecorded n) (sliceTake msg n) :=
  takeRecorded_sim framing_allowsCaps (sliceTake_sim rfl msg n)

theorem readVarintRecorded_sim : Sim rawFraming Eq readVarintRecorded parseVarint :=
  varintRecorded_sim framing_allowsCaps (sliceByte_sim rfl _) .fail_bind_fail

theorem stringsRecorded_sim (rows : Nat) (lengthName : String) :
    Sim rawFraming Any (stringsRecorded rows lengthName)
      (skipStringRows rows lengthName) := by
  refine rawFraming.logic.times ?_ rows
  refine bind_both readVarintRecorded_sim fun value => ?_
  refine .liftExcept_both fun len _ => ?_
  exact .bind (readExactRecorded_sim _ len) fun _ _ _ => .pure trivial

theorem offsetsRecorded_sim (rows : Nat) (name : String) :
    Sim rawFraming Eq (offsetsRecorded rows name) (skipOffsets rows name) := by
  refine bind_both (checkedColumnLen_sim rows 8 _ _) fun nbytes => ?_
  refine bind_both (readExactRecorded_sim _ nbytes) fun offsets => ?_
  exact .liftExcept_same (scanOffsets name 0 offsets)

variable {α : Type} {lengthName : String}

theorem stringBytes_sim {β : Type} {R : α → β → Prop}
    {f : Bytes → Read (Recorded Bytes) α}
    {g : Bytes → Read Slice β} (h : ∀ bytes, Sim rawFraming R (f bytes) (g bytes)) :
    Sim rawFraming R
      (do
        let value ← readVarintRecorded
        let len ← liftExcept (checkedStringLen value lengthName)
        let buf ← readExactRecorded len
        f buf)
      (parseStringBytes >>= g) := by
  unfold parseStringBytes
  rw [bind_assoc]
  refine bind_both readVarintRecorded_sim fun value => ?_
  rw [bind_assoc]
  refine bind_both (wireStringLen_sim value lengthName) fun len => ?_
  refine bind_both (readExactRecorded_sim _ len) fun bytes => ?_
  exact h bytes

theorem jsonPathRecorded_sim :
    Sim rawFraming Any (recordedOps : RawOps (Recorded Bytes)).jsonPath
      skipOps.jsonPath := by
  show Sim _ _ (readStringRecorded "JSON path length" >>= fun _ => pure ())
    (parseStringBytes >>= fun _ => pure ())
  unfold readStringRecorded
  simp only [bind_assoc]
  refine stringBytes_sim fun bytes => ?_
  cases hutf : fromUtf8 bytes with
  | ok name => exact .pure trivial
  | error u => exact .fail_left ⟨_, rfl, .inr (.inr ⟨bytes, u, hutf, rfl⟩)⟩

theorem typeNameRecorded_sim :
    Sim rawFraming Eq (recordedOps : RawOps (Recorded Bytes)).typeName
      skipOps.typeName := by
  refine stringBytes_sim fun bytes => ?_
  cases fromUtf8 bytes with
  | ok name => exact .pure rfl
  | error u => exact .fail_fail

theorem lcHeader_sim {σ τ : Type} {c : Corr Error Error σ τ} (header : Bytes) :
    Sim c Eq (liftExcept (lcHeaderRecorded header))
      (liftExcept (lcHeaderSkip header)) := by
  unfold lcHeaderRecorded lcHeaderSkip
  rcases lcKeyCount (lcWords header).2.2 with e | numKeys
  · cases lcIdxWidth (lcWords header).1 (lcWords header).2.1 with
    | ok idxWidth | error e' => exact .fail_fail
  cases lcIdxWidth (lcWords header).1 (lcWords header).2.1 with
  | ok idxWidth => exact .pure rfl
  | error e => exact .fail_fail

theorem fixedRecorded_sim (rows width : Nat) (what : String) :
    Sim rawFraming Any
      (do
        let len ← liftExcept (checkedColumnLen rows width what)
        let _ ← readExactRecorded len
        return () : Read (Recorded Bytes) Unit)
      (skipFixed rows width) := by
  refine bind_both (checkedColumnLen_sim rows width _ _) fun len => ?_
  exact .bind (readExactRecorded_sim _ len) fun _ _ _ => .pure trivial

theorem bytesRecorded_sim (rows : Nat) (what : String) :
    Sim rawFraming Any
      (do
        let len ← liftExcept (checkedColumnLen rows 1 what)
        let _ ← readExactRecorded len
        return () : Read (Recorded Bytes) Unit)
      (skipBytes rows) := by
  refine .liftExcept_left (fun len hlen => ?_)
    fun e he => framing_allowsCaps e (checkedColumnLen_error he)
  obtain ⟨rfl, _⟩ := checkedColumnLen_ok hlen
  rw [mul_one]
  exact .bind (readExactRecorded_sim _ rows) fun _ _ _ => .pure trivial

variable {depth : Nat} {ct : ColumnType} {rows : Nat}

theorem leafRecorded_sim (hct : ct.rawAlike = true) (hleaf : ct.isLeaf = true) (rows : Nat) :
    Sim rawFraming Any (leafRecorded ct rows) (skipLeaf ct rows) := by
  cases ct with
  | nothing => cases hct
  | uint8 | int8 | bool | enum8 => exact bytesRecorded_sim rows _
  | string | other => exact stringsRecorded_sim rows _
  | aggregateFunction | simpleAggregateFunction => exact .fail_fail
  | decimal => exact decimal_sim fun width => fixedRecorded_sim rows width _
  | _ => first | exact fixedRecorded_sim rows _ _ | cases hleaf

theorem dynamicTypeCarrying_sim (name : Text) :
    Sim rawFraming (fun a b => a = b ∧ RawAlike a)
      (liftExcept ((recordedOps : RawOps (Recorded Bytes)).dynamicType name))
      (liftExcept ((skipOps.carrying ColumnType.rawAlike).dynamicType name)) := by
  show Sim _ _ (liftExcept (parseTypeAs "dynamic type" name))
    (liftExcept (parseTypeAs "dynamic type" name >>= fun ct =>
      if ct.rawAlike then .ok ct else .error notCarried))
  unfold parseTypeAs
  rcases hparse : parseType name with e | ct
  · exact .fail_fail
  show Sim _ _ (pure ct) (liftExcept (if ct.rawAlike then .ok ct else .error notCarried))
  by_cases hct : ct.rawAlike = true
  · rw [if_pos hct]
    exact .pure ⟨rfl, ⟨name, hparse⟩, hct⟩
  · rw [if_neg hct]
    exact .fail_right rfl

theorem variantTypeRecorded_sim {types : List ColumnType} (hct : RawAlike (.variant types))
    (compact : Bool) : ∀ t ∈ types,
    Sim rawFraming (fun a b => a = b ∧ RawAlike a)
      (liftExcept ((recordedOps : RawOps (Recorded Bytes)).variantType compact t))
      (liftExcept ((skipOps.carrying ColumnType.rawAlike).variantType compact t)) := by
  intro t ht
  obtain ⟨hparsed, halike⟩ := hct
  have hboth : (ColumnType.rawAlikeAll types && !ColumnType.dropsParamsAny types) = true := halike
  simp only [Bool.and_eq_true, Bool.not_eq_true'] at hboth
  have hdrops := ColumnType.dropsParamsAny_eq_false.mp hboth.2 t ht
  have ht' : t.Parsed := hparsed.child t ht
  show Sim _ _ (liftExcept (parseTypeAs "variant type" t.display)) (pure t)
  unfold parseTypeAs
  rw [ht'.display_eq hdrops]
  exact .pure ⟨rfl, ht', ColumnType.rawAlikeAll_iff.mp hboth.1 t ht⟩

/-- **The recording reader and the skipper in step**, on raw columns. -/
theorem recordedOps_simulates :
    recordedOps.Simulates rawFraming.logic RawAlike (skipOps.carrying ColumnType.rawAlike) where
  field := readExactRecorded_sim _
  bytes := readExactRecorded_sim _
  varint := readVarintRecorded_sim
  jsonPath := jsonPathRecorded_sim
  typeName := typeNameRecorded_sim
  columnLen := fun rows width _ => checkedColumnLen_sim rows width _ _
  offsets := offsetsRecorded_sim
  strings := stringsRecorded_sim
  leaf := fun _ rows hct hleaf => leafRecorded_sim hct.2 hleaf rows
  dynamicType := dynamicTypeCarrying_sim
  variantType := fun _ hct compact => variantTypeRecorded_sim hct compact
  lcHeader := lcHeader_sim
  below := fun _ hct t ht => ⟨hct.1.child t ht, ColumnType.rawAlike_child hct.2 t ht⟩

/-! ## §5. String columns. -/

/-- Where the row to come starts: its first length byte may already have been
read. -/
def rowStart : Option UInt8 → Bytes → Bytes
  | none, s => s
  | some b, s => b :: s

theorem firstLengthByte_eq (pending : Option UInt8) (s : Bytes)
    (f : Nat → Read Bytes α) :
    (firstLengthByte pending >>= fun first => varintAfter first >>= f) s
      = (readVarintAsync >>= f) (rowStart pending s) := by
  have hassoc : (readVarintAsync >>= f : Read Bytes α)
      = readByte >>= fun first => varintAfter first >>= f := by
    unfold readVarintAsync
    rw [bind_assoc]
  rw [hassoc]
  rcases pending with _ | b
  · rfl
  show (varintAfter b >>= f) s = (readByte >>= fun first => varintAfter first >>= f) (b :: s)
  rw [bind_ok (readByte_cons b s)]

theorem skipStringRows_nil (rows : Nat) (lengthName : String) :
    ∃ e, skipStringRows (rows + 1) lengthName [] = (.error e, []) := ⟨_, rfl⟩

theorem simOut_map_left {c : Corr Error Error Bytes Slice} {β γ : Type}
    {x : Read Bytes α} {f : α → β} {s : Bytes}
    {out : Readout γ × Slice} (h : SimOut c Any (x s) out) :
    SimOut c Any ((x >>= fun a => pure (f a)) s) out := by
  rw [bind_apply]
  rcases hx : x s with ⟨r, s'⟩
  rw [hx] at h
  obtain ⟨q, t⟩ := out
  cases r <;> cases q <;> exact h

/-- A value read together with the first length byte of the next row. -/
theorem lookahead_sim {left len total : Nat} (hleft : left ≠ 0)
    (ih : ∀ (pending : Option UInt8) (s : Bytes), SimOut framing Any (readStringRows lengthName left pending total s) (skipStringRows left lengthName (rowStart pending s)))
    (s : Bytes) :
    SimOut framing Any
      ((do
        let scratch ← readExact len.succ
        let rest ← readStringRows lengthName left (some (scratch.getD len 0)) total
        return encodeVarint len ++ scratch.take len ++ rest : Read Bytes _) s)
      ((advancePos len >>= fun _ => skipStringRows left lengthName) s) := by
  by_cases hlen : len.succ ≤ s.length
  · have hlt : len < s.length := hlen
    -- the byte read ahead and the rest are where the skipper stands
    have hstart : rowStart (some ((s.take len.succ).getD len 0)) (s.drop len.succ)
        = s.drop len := by
      rw [drop_eq_getElem_cons hlt, getD_eq_getElem?_getD,
        List.getElem?_take_of_lt (Nat.lt_succ_self len), List.getElem?_eq_getElem hlt]
      rfl
    have hskip : advancePos len s = (.ok (s.take len), s.drop len) := if_pos (le_of_lt hlt)
    rw [bind_ok (readExact_list hlen), bind_ok hskip, ← hstart]
    exact simOut_map_left (ih _ _)
  · have hfail : readExact (ε := Error) len.succ s = (.error (.error endOfInput), []) :=
      if_neg hlen
    rw [bind_error hfail]
    -- the value may be there, but then no row starts after it
    by_cases hle : len ≤ s.length
    · have hskip : advancePos len s = (.ok (s.take len), s.drop len) := if_pos hle
      have hnil : s.drop len = [] := drop_eq_nil_of_le (by omega)
      obtain ⟨rows, rfl⟩ : ∃ rows, left = rows + 1 := ⟨left - 1, by omega⟩
      obtain ⟨e, he⟩ := skipStringRows_nil rows lengthName
      rw [bind_ok hskip, hnil, he]
      trivial
    have hskip : advancePos len s = (.error (.error (.text
        "unexpected end of buffer skipping column data")), s) := if_neg hle
    rw [bind_error hskip]
    trivial

/-- The string rows of the reader, row by row.  The invariant: the skipper stands
at the start of the row of which the reader may have read the first byte. -/
theorem readStringRows_sim (lengthName : String) (rows : Nat) (pending : Option UInt8)
    (total : Nat) :
    (rows = 0 → pending = none) → ∀ s,
      SimOut framing Any (readStringRows lengthName rows pending total s)
        (skipStringRows rows lengthName (rowStart pending s)) := by
  induction rows generalizing pending total with
  | zero =>
    intro hnone s
    rw [hnone rfl]
    exact ⟨rfl, trivial⟩
  | succ left ih =>
    intro _ s
    have hskip : skipStringRows (left + 1) lengthName = parseVarint >>= fun value =>
        liftExcept (checkedStringLen value lengthName) >>= fun len =>
          advancePos len >>= fun _ => skipStringRows left lengthName := by
      show ((parseVarint >>= _) >>= _) = _
      simp only [bind_assoc, pure_bind]
      rfl
    unfold readStringRows
    rw [firstLengthByte_eq, hskip]
    refine Sim.bind (c := framing) (R := fun a b => a = b) ?_ ?_ _ _ rfl
    · rw [readVarintAsync_eq]
      exact sliceVarint_sim rfl _
    intro value _ heq
    cases heq
    refine Sim.liftExcept_both fun len _ => ?_
    refine Sim.liftExcept_left (fun total' _ => ?_) fun e he => ?_
    · by_cases hbig : len > stringColMergedMax
      · rw [if_pos hbig]
        refine Sim.bind (sliceTake_sim rfl _ len) fun body _ _ => ?_
        intro s₁ _ hst
        cases hst
        exact simOut_map_left (ih none total' (fun _ => rfl) s₁)
      rw [if_neg hbig]
      by_cases hlast : left = 0
      · subst hlast
        have hbody : Sim framing Any
            (if len > 0 then readExact len else pure [])
            (advancePos len >>= fun _ => skipStringRows 0 lengthName) := by
          by_cases hpos : len > 0
          · rw [if_pos hpos]
            exact Sim.map_right (Sim.mono (sliceTake_sim rfl _ len) fun _ _ _ => trivial)
              fun _ _ _ => trivial
          have hzero : len = 0 := by omega
          rw [if_neg hpos, hzero]
          exact Sim.pure trivial
        exact Sim.map_left hbody fun _ _ _ => trivial
      · rw [if_neg hlast]
        intro s₁ _ hst
        cases hst
        exact lookahead_sim hlast (ih · total' (fun h => absurd h hlast)) s₁
    · exact ⟨e, rfl, .inl (checkedColumnBytes_error he)⟩

/-- **A string column in step.** -/
theorem readStringColumn_sim (rows : Nat) (lengthName : String) :
    Sim framing Any (readStringColumnWithPrefixes rows lengthName)
      (skipStringRows rows lengthName) := by
  intro s t hst
  cases hst
  exact readStringRows_sim lengthName rows none 0 (fun _ => rfl) s

/-! ## §6. Columns. -/

theorem readFixedColumn_sim (rows width : Nat) (what : String) :
    Sim framing Any (readFixedColumn rows width what) (skipFixed rows width) := by
  refine bind_both (checkedColumnLen_sim rows width _ _) fun len => ?_
  exact .map_right (.mono (sliceTake_sim rfl _ len) fun _ _ _ => trivial) fun _ _ _ => trivial

theorem readByteColumn_sim (rows : Nat) (what : String) :
    Sim framing Any (readFixedColumn rows 1 what) (skipBytes rows) := by
  refine .liftExcept_left (fun len hlen => ?_)
    fun e he => framing_allowsCaps e (checkedColumnLen_error he)
  obtain ⟨rfl, _⟩ := checkedColumnLen_ok hlen
  rw [mul_one]
  exact .map_right (.mono (sliceTake_sim rfl _ rows) fun _ _ _ => trivial) fun _ _ _ => trivial

theorem readLeafAsync_sim (hleaf : ct.isLeaf = true ∨ ct = .json) (rows : Nat) :
    Sim framing Any (readLeafAsync ct rows) (skipLeaf ct rows) := by
  cases ct with
  | nullable | array | map | tuple | lowCardinality | variant | dynamic | point | ring | polygon
  | multiPolygon =>
    obtain h | h := hleaf
    · cases h
    · cases h
  | uint8 | int8 | bool | enum8 => exact readByteColumn_sim rows _
  | nothing =>
    exact .map_right (.mono (sliceTake_sim rfl _ rows) fun _ _ _ => trivial)
      fun _ _ _ => trivial
  | json =>
    refine bind_both (readU64Le_sim rfl) fun version => ?_
    exact .ite (fun _ => .fail_fail) (fun _ => readStringColumn_sim rows _)
  | string | other => exact readStringColumn_sim rows _
  | aggregateFunction | simpleAggregateFunction => exact .fail_fail
  | decimal => exact decimal_sim fun width => readFixedColumn_sim rows width _
  | _ => exact readFixedColumn_sim rows _ _

theorem readOffsetsColumn_sim (rows : Nat) (name : String) :
    Sim framing (fun offsets total => offsets.2 = total) (readOffsetsColumn rows name)
      (skipOffsets rows name) := by
  refine bind_both (checkedColumnLen_sim rows 8 _ _) fun nbytes => ?_
  refine bind_both (sliceTake_sim rfl _ nbytes) fun offsets => ?_
  exact .map_left (.liftExcept_same (scanOffsets name 0 offsets)) fun _ _ heq => heq

theorem readNested_sim (rows : Nat) (name : String) {below : Nat → Read Bytes α}
    {skipBelow : Nat → Read Slice Unit} {f : Bytes → α → Bytes}
    (hbelow : ∀ n, n ≠ 0 → Sim framing Any (below n) (skipBelow n)) :
    Sim framing Any
      (do
        let offsets ← readOffsetsColumn rows name
        if offsets.2 > 0 then do
          let values ← below offsets.2
          return f offsets.1 values
        else return offsets.1)
      (do
        let total ← skipOffsets rows name
        if total = 0 then pure () else skipBelow total) := by
  refine .bind (readOffsetsColumn_sim rows name) fun offsets total htotal => ?_
  by_cases hpos : offsets.2 > 0
  · rw [if_pos hpos, if_neg (by omega), ← htotal]
    exact .map_left (hbelow _ (by omega)) fun _ _ _ => trivial
  · rw [if_neg hpos, if_pos (by omega)]
    exact .pure trivial

/-- A LowCardinality column: header, dictionary and indexes in step; then the
reader alone expands them. -/
theorem readLcAsync_sim {inner : ColumnType} (hrows : rows ≠ 0)
    (hdict : ∀ n, n ≠ 0 → Sim framing Any (readColumnAsync depth inner.display n)
      (skipOpsAlike.bodyRaw depth inner .none n)) :
    Sim framing Any (readLcAsync (readColumnAsync depth) inner rows)
      (skipLcColumn skipOpsAlike depth inner rows .none) := by
  unfold readLcAsync
  rw [if_neg hrows]
  refine bind_both (sliceTake_sim rfl _ 24) fun header => ?_
  -- the two checks of the header, as one step
  have hheader : ∀ {α : Type} (f : Nat → Nat → Read Bytes α),
      (liftExcept (lcKeyCount (lcWords header).2.2) >>= fun numKeys =>
        liftExcept (lcIdxWidth (lcWords header).1 (lcWords header).2.1) >>= fun idxWidth =>
          f numKeys idxWidth)
        = liftExcept (lcHeaderRecorded header) >>= fun keys => f keys.1 keys.2 := by
    intro α f
    unfold lcHeaderRecorded
    rcases lcKeyCount (lcWords header).2.2 with e | numKeys
    · rfl
    cases lcIdxWidth (lcWords header).1 (lcWords header).2.1 with
    | error e | ok idxWidth => rfl
  rw [hheader]
  refine bind_both (lcHeader_sim header) fun keys => ?_
  have hkeys : Sim framing Any
      (if keys.1 > 0 then readColumnAsync depth inner.display keys.1 else pure [])
      (if keys.1 = 0 then pure () else skipOpsAlike.bodyRaw depth inner .none keys.1) := by
    by_cases hpos : keys.1 > 0
    · rw [if_pos hpos, if_neg (by omega)]
      exact hdict _ (by omega)
    · rw [if_neg hpos, if_pos (by omega)]
      exact .pure trivial
  refine .bind hkeys fun dict _ _ => ?_
  refine bind_both (readU64Le_sim rfl) fun ni => ?_
  refine .ite (fun _ => .fail_fail) (fun _ => ?_)
  refine bind_both (checkedColumnLen_sim ni keys.2 _ _) fun len => ?_
  refine .bind (sliceTake_sim rfl _ len) fun indexes _ _ => ?_
  by_cases hzero : keys.1 = 0
  · rw [if_pos hzero]
    exact .pure trivial
  rw [if_neg hzero]
  cases hexpand : materializeLcInner dict inner indexes keys.2 ni with
  | ok data => exact .pure trivial
  | error e => exact .fail_left ⟨e, rfl, .inr (.inl ⟨_, _, _, _, _, hexpand⟩)⟩

variable {name : Text}

theorem readDynamic_sim (hparse : parseType name = .ok .dynamic) (hrows : rows ≠ 0) :
    Sim framing Any (recording (readColumnRawRecorded (depth + 1) name rows))
      (do
        let state ← skipOpsAlike.dynamicState (skipOpsAlike.statePrefix depth)
        skipOpsAlike.dynamicBody (skipOpsAlike.bodyRaw depth) state rows) := by
  have hbody : ∀ {σ : Type} (ops : RawOps σ) (state : DynamicRawState),
      ops.bodyRaw (depth + 1) .dynamic (.dynamic state) rows
        = ops.dynamicBody (ops.bodyRaw depth) state rows := fun _ _ => if_neg hrows
  have hraw : (readColumnRawRecorded (depth + 1) name rows : Read (Recorded Bytes) Unit)
      = recordedOps.dynamicState (recordedOps.statePrefix depth) >>= fun state =>
          recordedOps.dynamicBody (recordedOps.bodyRaw depth) state rows := by
    unfold readColumnRawRecorded parseTypeAs
    rw [hparse]
    show ((recordedOps.dynamicState (recordedOps.statePrefix depth) >>= fun state =>
      pure (.dynamic state)) >>= fun state =>
        recordedOps.bodyRaw (depth + 1) .dynamic state rows) = _
    simp only [bind_assoc, pure_bind, hbody]
  rw [hraw]
  refine recording_sim (.bind (dynamicState_sim recordedOps_simulates
    (statePrefix_sim recordedOps_simulates depth)) fun state _ hstate => ?_)
  obtain ⟨rfl, hknown⟩ := hstate
  exact dynamicBody_sim recordedOps_simulates
    (bodyRaw_sim recordedOps_simulates depth) hknown rows

theorem readVariant_sim {types : List ColumnType} (hparsed : ColumnType.Parsed (.variant types))
    (hct : (ColumnType.variant types).rawAlike = true) (rows : Nat) :
    Sim framing Any
      (recording do
        let state ← readColumnStatePrefixRecorded (depth + 1) (.variant types)
        readVariantBodyRawRecorded depth types state.variantStates rows)
      (do
        let states ← collect (skipOpsAlike.statePrefix depth) types
        skipOpsAlike.variantBody (skipOpsAlike.bodyRaw depth) types states rows) := by
  refine recording_sim ?_
  show Sim rawFraming _ ((collect (recordedOps.statePrefix depth) types >>= fun states =>
    pure (RawColumnState.variant states)) >>= fun state =>
      recordedOps.variantBody (recordedOps.bodyRaw depth) types state.variantStates rows) _
  simp only [bind_assoc, pure_bind]
  have hbelow := recordedOps_simulates.below (.variant types) ⟨hparsed, hct⟩
  refine .bind (rawFraming.logic.collect fun t ht =>
    statePrefix_sim recordedOps_simulates depth t (hbelow t ht))
    fun states _ hstates => ?_
  obtain ⟨rfl, hknown⟩ := hstates
  exact variantBody_sim recordedOps_simulates
    (bodyRaw_sim recordedOps_simulates depth) ⟨hparsed, hct⟩
    (knownStates_iff.mpr hknown) rows

/-- **Columns in step**, one level: the call one level deeper is given. -/
theorem readTypedAsync_sim (hparse : parseType name = .ok ct) (hct : ct.framedAlike = true)
    (hrows : rows ≠ 0)
    (ih : ∀ {t : ColumnType}, t.Parsed → t.framedAlike = true → t.dropsParams = false → ∀ n, n ≠ 0 → Sim framing Any (readColumnAsync depth t.display n) (skipColumnWith skipOpsAlike depth t n))
    :
    Sim framing Any (readTypedAsync (readColumnAsync depth) depth name ct rows)
      (skipTyped skipOpsAlike (skipColumnWith skipOpsAlike depth) depth ct rows) := by
  have hparsed : ct.Parsed := ⟨name, hparse⟩
  -- an element type, where the type is no Variant
  have hchild : (∀ types, ct ≠ .variant types) → ∀ t ∈ ct.children, ∀ n, n ≠ 0 →
      Sim framing Any (readColumnAsync depth t.display n)
        (skipColumnWith skipOpsAlike depth t n) := by
    intro hvariant t ht n hn
    obtain ⟨hframed, hdrops⟩ := ColumnType.framedAlike_child hct hvariant t ht
    exact ih (hparsed.child t ht) hframed hdrops n hn
  have hleaf : ct.isLeaf = true ∨ ct = .json →
      Sim framing Any (readLeafAsync ct rows) (skipLeaf ct rows) :=
    fun h => readLeafAsync_sim h rows
  cases ct with
  | nullable inner =>
    have hinner := hchild nofun inner mem_cons_self rows hrows
    refine .bind (sliceTake_sim rfl _ rows) fun _ _ _ => ?_
    exact .map_left hinner fun _ _ _ => trivial
  | array inner =>
    exact readNested_sim rows _ (f := fun a b => a ++ b) (hchild nofun inner mem_cons_self)
  | map key value =>
    have hvalue : value ∈ (ColumnType.map key value).children :=
      mem_cons_of_mem key mem_cons_self
    have hbelow : ∀ n, n ≠ 0 → Sim framing Any
        (do
          let keys ← readColumnAsync depth key.display n
          let values ← readColumnAsync depth value.display n
          return (keys, values))
        (do
          skipColumnWith skipOpsAlike depth key n
          skipColumnWith skipOpsAlike depth value n) := fun n hn =>
      .bind (hchild nofun key mem_cons_self n hn) fun _ _ _ =>
        .map_left (hchild nofun value hvalue n hn) fun _ _ _ => trivial
    have hmap := readNested_sim rows "map offset"
      (f := fun offsets (parts : Bytes × Bytes) => offsets ++ parts.1 ++ parts.2) hbelow
    simp only [bind_assoc, pure_bind] at hmap
    exact hmap
  | tuple elems =>
    refine .map_left ?_ (fun _ _ _ => trivial) (R := fun _ _ => True)
    exact .collect_forEach fun elem helem => hchild nofun elem helem rows hrows
  | lowCardinality inner =>
    have hinner : (inner.framedAlike && !inner.dropsParams && inner.stateless) = true := hct
    rw [Bool.and_eq_true] at hinner
    refine readLcAsync_sim hrows fun n hn => ?_
    rw [bodyRaw_stateless depth hinner.2 hn]
    exact hchild nofun inner mem_cons_self n hn
  | point =>
    have hcoord := hchild nofun .float64 mem_cons_self rows hrows
    refine .bind hcoord fun _ _ _ => ?_
    exact .map_left hcoord fun _ _ _ => trivial
  | ring | polygon | multiPolygon => exact hchild nofun _ mem_cons_self rows hrows
  | dynamic => exact readDynamic_sim hparse hrows
  | variant types => exact readVariant_sim hparsed hct rows
  | json => exact hleaf (.inr rfl)
  | _ => exact hleaf (.inl rfl)

/-- **Columns in step.** -/
theorem readColumnAsync_sim (depth : Nat) {ct : ColumnType} :
    parseType name = .ok ct → ct.framedAlike = true → ∀ rows,
      Sim framing Any (readColumnAsync depth name rows)
        (skipColumnWith skipOpsAlike depth ct rows) := by
  induction depth generalizing name ct with
  | zero =>
    intro _ _ rows
    exact .ite (fun _ => .pure trivial) (fun _ => .tooDeep_tooDeep)
  | succ depth ih =>
    intro hparse hct rows
    refine .ite (fun _ => .pure trivial) (fun hrows => ?_)
    rw [hparse]
    exact readTypedAsync_sim hparse hct hrows fun hparsed hframed hdrops n _ =>
      ih (hparsed.display_eq hdrops) hframed n

/-- **The skipper frames columns like the stream reader.**  On a type both lay
out alike, and bytes whose Dynamic columns carry only types the raw walkers lay
out alike: what the reader consumes the skipper passes over; and where the
skipper gets to, the reader gets to, unless it refuses what it has read. -/
theorem skipColumnData_frames {depth : Nat} {name : Text} {ct : ColumnType} {rows : Nat}
    {s : Bytes} (hparse : parseType name = .ok ct) (hct : ct.framedAlike = true)
    (hcarried : CarriesOnly ColumnType.rawAlike depth ct rows s) :
    (∀ data s', readColumnAsync depth name rows s = (.ok data, s') →
      skipColumnData depth ct rows s = (.ok (), s'))
    ∧ ∀ s', skipColumnData depth ct rows s = (.ok (), s') →
      (∃ data, readColumnAsync depth name rows s = (.ok data, s'))
      ∨ ∃ e t, readColumnAsync depth name rows s = (.error (.error e), t) ∧ RejectsContent e := by
  have hout := readColumnAsync_sim depth hparse hct rows s s rfl
  constructor
  · intro data s' hread
    rw [carries_iff hcarried]
    rw [hread] at hout
    rcases hskip : skipColumnWith skipOpsAlike depth ct rows s with ⟨q, t⟩
    rw [hskip] at hout
    rcases q with e | u
    · cases hout
      exact absurd hskip (hcarried t)
    obtain ⟨hst, _⟩ := hout
    cases hst
    rfl
  · intro s' hskip
    rw [carries_iff hcarried] at hskip
    rw [hskip] at hout
    rcases hread : readColumnAsync depth name rows s with ⟨r, t⟩
    rw [hread] at hout
    rcases r with e | data
    · obtain ⟨e', rfl, hrejects⟩ := hout
      exact .inr ⟨e', t, rfl, hrejects⟩
    obtain ⟨hst, _⟩ := hout
    cases hst
    exact .inl ⟨data, rfl⟩

/-- A Dynamic column of one row that names the type UInt8, before one more byte. -/
def dynamicSample : Bytes :=
  [2, 0, 0, 0, 0, 0, 0, 0, 1, 5, 85, 73, 110, 116, 56, 0, 9, 255]

theorem skipColumnData_frames_dynamic :
    skipColumnData 2 .dynamic 1 dynamicSample = (.ok (), [255])
      ∧ ((∃ data, readColumnAsync 2 "Dynamic".toList 1 dynamicSample = (.ok data, [255]))
        ∨ ∃ e t, readColumnAsync 2 "Dynamic".toList 1 dynamicSample = (.error (.error e), t)
            ∧ RejectsContent e) := by
  have hcarried : CarriesOnly ColumnType.rawAlike 2 .dynamic 1 dynamicSample := by
    have hskip : skipColumnWith skipOpsAlike 2 .dynamic 1 dynamicSample = (.ok (), [255]) := by rfl
    intro t h
    cases h
  have hparse : parseType "Dynamic".toList = .ok .dynamic := by rfl
  have hskip : skipColumnData 2 .dynamic 1 dynamicSample = (.ok (), [255]) := by rfl
  exact ⟨hskip, (skipColumnData_frames hparse rfl hcarried).2 _ hskip⟩

/-- A LowCardinality index outside its dictionary: skipped, and not read. -/
theorem skipColumnData_lcIndex :
    let bytes : Bytes := [1, 0, 0, 0, 0, 0, 0, 0, 0, 2, 0, 0, 0, 0, 0, 0,
      1, 0, 0, 0, 0, 0, 0, 0, 7, 1, 0, 0, 0, 0, 0, 0, 0, 5]
    skipColumnData 2 (.lowCardinality .uint8) 1 bytes = (.ok (), [])
      ∧ readColumnAsync 2 "LowCardinality(UInt8)".toList 1 bytes
        = (.error (.error (.text "LowCardinality dictionary index out of bounds")), []) :=
  ⟨rfl, rfl⟩

end StClickHouse
