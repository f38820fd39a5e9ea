/-
  StClickHouse.LowCardinality.Lookup
  **MATERIALIZING A LOWCARDINALITY COLUMN IS A DICTIONARY LOOKUP, WHERE IT IS.**

  What the readers make of a LowCardinality column: a column of the inner type
  whose row `i` is the dictionary entry that index `i` names.  The abstract
  layer says how the rows of a column lie in its bytes (`RowLayout`,
  `RowColumn`), which entry a number names (`Entry`) and what a lookup is
  (`LooksUp`); both materializers are compared with it.

  Results:
  - `Sync.materialise_looksUp`    : the sync engine looks up, on every type it expands
  - `lookup_iff`                  : both engines look up and agree on a dictionary
                                    exactly where `lcExpands`, with a key, and with
                                    `ShortestLengths`
-/
import StClickHouse.Async.ColumnReader
import StClickHouse.Sync.ColumnReader
import StClickHouse.Wire.Varint

namespace StClickHouse

open ByteReader RustText List

/-! ## §1. Columns as rows. -/

/-- A string as it stands on the wire: its length, in as many bytes as the writer
liked, and its value. -/
structure WireString where
  head : Bytes
  value : Bytes
  reads : Parses parseVarint head value.length

/-- The bytes of a string on the wire. -/
def WireString.bytes (s : WireString) : Bytes := s.head ++ s.value

/-- How the rows of a column lie in its bytes. -/
inductive RowLayout where
  | fixed (width : Nat)
  | strings
  | nullable (value : RowLayout)

/-- The layout of a column whose rows lie one after the other; the other types
(Array, Map, Tuple, Variant and the like) have no rows of their own in the bytes. -/
def ColumnType.rowLayout : ColumnType → Option RowLayout
  | .string | .json | .other _ => some .strings
  | .nullable value => value.rowLayout.map .nullable
  | .nothing => some (.fixed 1)
  | .point => none
  | t => t.fixedWidth.map .fixed

/-- The bytes hold these rows.  A row of a Nullable column is its null byte
followed by its value. -/
def RowColumn : RowLayout → List Bytes → Bytes → Prop
  | .fixed width, rows, bs => (∀ row ∈ rows, row.length = width) ∧ bs = rows.flatten
  | .strings, rows, bs =>
    ∃ strings : List WireString, rows = strings.map (·.value) ∧ bs = strings.flatMap (·.bytes)
  | .nullable value, rows, bs =>
    ∃ nulls values tail, nulls.length = values.length ∧ rows = List.zipWith (· :: ·) nulls values
      ∧ RowColumn value values tail ∧ bs = nulls ++ tail

/-- Entry number `j` of a dictionary of `numKeys` entries.  An entry of no bytes
is there under every number. -/
def Entry : RowLayout → Nat → Bytes → Nat → Bytes → Prop
  | .fixed width, _, dict, j, row =>
    j * width + width ≤ dict.length ∧ row = (dict.drop (j * width)).take width
  | .strings, _, dict, j, row => ∃ rows, RowColumn .strings rows dict ∧ rows[j]? = some row
  | .nullable value, numKeys, dict, j, row =>
    ∃ null rest, (dict.take numKeys)[j]? = some null
      ∧ Entry value numKeys (dict.drop numKeys) j rest ∧ row = null :: rest

/-- The index of row `i`. -/
def lcIndex (indexes : Bytes) (idxWidth i : Nat) : Nat :=
  leNat ((indexes.drop (i * idxWidth)).take idxWidth)

/-- The widths an index can have. -/
def IndexWidth (idxWidth : Nat) : Prop :=
  idxWidth = 1 ∨ idxWidth = 2 ∨ idxWidth = 4 ∨ idxWidth = 8

/-- The dictionary column as the readers hand it over: `numKeys` rows of the
inner type, within the caps on keys and on string values. -/
def IsDictionary (inner : ColumnType) (numKeys : Nat) (dict : Bytes) : Prop :=
  numKeys ≤ maxJsonDynamicItems ∧
    ∀ layout, inner.rowLayout = some layout →
      ∃ rows, rows.length = numKeys ∧ RowColumn layout rows dict
        ∧ (layout = .strings → ∀ row ∈ rows, row.length ≤ maxStringBytes)

/-- The column holds, row for row, the entries the indexes name. -/
def LooksUp (inner : ColumnType) (numKeys : Nat) (dict indexes : Bytes)
    (idxWidth numIdx : Nat) (out : Bytes) : Prop :=
  ∃ layout rows, inner.rowLayout = some layout ∧ rows.length = numIdx ∧ RowColumn layout rows out
    ∧ ∀ i row, rows[i]? = some row → Entry layout numKeys dict (lcIndex indexes idxWidth i) row

/-! ## §2. The two materializers. -/

/-- The end of `read_lc_async`: without keys nothing is looked up. -/
def Async.materialise (numKeys : Nat) (dict : Bytes) (inner : ColumnType)
    (indexes : Bytes) (idxWidth numIdx : Nat) : Result Bytes :=
  if numIdx = 0 ∨ numKeys = 0 then .ok []
  else materializeLcInner dict inner indexes idxWidth numIdx

/-- **The claim for one dictionary**: whatever the index width and the indexes,
a materializer that succeeds returns the column of the entries looked up, and
two that succeed return the same bytes. -/
def MaterialisesByLookup (inner : ColumnType) (numKeys : Nat) (dict : Bytes) : Prop :=
  ∀ (idxWidth numIdx : Nat) (indexes : Bytes), IndexWidth idxWidth →
    indexes.length = numIdx * idxWidth →
    (∀ out, Async.materialise numKeys dict inner indexes idxWidth numIdx = .ok out →
      LooksUp inner numKeys dict indexes idxWidth numIdx out) ∧
    (∀ out, Sync.materializeLowCardinalityInner dict inner indexes idxWidth numIdx = .ok out →
      LooksUp inner numKeys dict indexes idxWidth numIdx out) ∧
    (∀ out out', Async.materialise numKeys dict inner indexes idxWidth numIdx = .ok out →
      Sync.materializeLowCardinalityInner dict inner indexes idxWidth numIdx = .ok out' →
      out = out')

/-! ## §3. Indexes and fixed-width entries. -/

variable {indexes dict out : Bytes} {idxWidth numIdx width j numKeys : Nat} {js : List Nat}
  {inner : ColumnType} {strings picked : List WireString} {s : WireString}

theorem readLcIdx_eq {i : Nat} (hw : IndexWidth idxWidth)
    (h : (i + 1) * idxWidth ≤ indexes.length) :
    readLcIdx indexes i idxWidth = lcIndex indexes idxWidth i := by
  unfold readLcIdx lcIndex
  rw [if_neg (by omega)]
  obtain rfl | rfl | rfl | rfl := hw <;> rfl

theorem map_readLcIdx (hw : IndexWidth idxWidth)
    (hlen : indexes.length = numIdx * idxWidth) :
    (List.range numIdx).map (fun i => readLcIdx indexes i idxWidth)
      = (List.range numIdx).map (lcIndex indexes idxWidth) := by
  apply map_congr_left
  intro i hi
  apply readLcIdx_eq hw
  rw [hlen]
  exact Nat.mul_le_mul_right _ (mem_range.mp hi)

theorem Sync.readLcIndex_ok {row idx : Nat}
    (h : Sync.readLcIndex indexes row idxWidth = .ok idx) : idx = lcIndex indexes idxWidth row := by
  unfold Sync.readLcIndex at h
  split at h
  · cases h
  split at h
  · cases h
  split at h <;> cases h <;> rfl

theorem Sync.readLcIndex_eq {row : Nat} (hw : IndexWidth idxWidth)
    (hsmall : row * idxWidth + idxWidth < usizeBound)
    (hlen : row * idxWidth + idxWidth ≤ indexes.length) :
    Sync.readLcIndex indexes row idxWidth = .ok (lcIndex indexes idxWidth row) := by
  unfold Sync.readLcIndex lcIndex
  rw [if_neg (by omega), if_neg (by omega)]
  obtain rfl | rfl | rfl | rfl := hw <;> rfl

/-- The bytes of entry `j` of a fixed-width dictionary. -/
def lcSlice (dict : Bytes) (width j : Nat) : Bytes := (dict.drop (j * width)).take width

/-- The entries these numbers name are in the dictionary, and `out` is all of them. -/
def Sliced (dict : Bytes) (width : Nat) (js : List Nat) (out : Bytes) : Prop :=
  (∀ j ∈ js, j * width + width ≤ dict.length) ∧ out = (js.map (lcSlice dict width)).flatten

theorem Sliced.cons (hj : j * width + width ≤ dict.length) (h : Sliced dict width js out) :
    Sliced dict width (j :: js) (lcSlice dict width j ++ out) := by
  obtain ⟨hjs, rfl⟩ := h
  exact ⟨forall_mem_cons.mpr ⟨hj, hjs⟩, by rw [map_cons, flatten_cons]⟩

variable {out : Bytes}

theorem lcFixedEntries_ok {js : List Nat} :
    lcFixedEntries dict width js = .ok out → Sliced dict width js out := by
  induction js generalizing out with
  | nil =>
    intro h
    cases h
    exact ⟨by simp, rfl⟩
  | cons j js ih =>
    intro h
    rw [lcFixedEntries] at h
    split at h
    · cases h
    split at h
    · cases h
    next hbound =>
    obtain ⟨rest, hrest, hout⟩ := bind_eq_ok h
    cases hout
    exact (ih hrest).cons (by omega)

variable {rows : List Nat}

theorem Sync.materializeLcFixedRows_ok :
    Sync.materializeLcFixedRows dict width indexes idxWidth rows = .ok out →
      Sliced dict width (rows.map (lcIndex indexes idxWidth)) out := by
  induction rows generalizing out with
  | nil =>
    intro h
    cases h
    exact ⟨by simp, rfl⟩
  | cons row rows ih =>
    intro h
    obtain ⟨idx, hidx, h⟩ := bind_eq_ok h
    rw [Sync.readLcIndex_ok hidx] at h
    split at h
    · cases h
    split at h
    · cases h
    next hbound =>
    obtain ⟨rest, hrest, hout⟩ := bind_eq_ok h
    cases hout
    exact (ih hrest).cons (by omega)

/-- Entries of no bytes are all there, and together they are nothing. -/
theorem Sliced.zero (dict : Bytes) (js : List Nat) : Sliced dict 0 js [] := by
  refine ⟨by simp, ?_⟩
  induction js with
  | nil => rfl
  | cons j js ih => rw [map_cons, flatten_cons, ← ih]; rfl

theorem materializeLcFixed_ok (hw : IndexWidth idxWidth) (hlen : indexes.length = numIdx * idxWidth)
    (h : materializeLcFixed dict width indexes idxWidth numIdx = .ok out) :
    Sliced dict width ((List.range numIdx).map (lcIndex indexes idxWidth)) out := by
  unfold materializeLcFixed at h
  split at h
  · next hzero =>
    cases h
    obtain rfl | rfl := hzero
    · exact ⟨by simp, rfl⟩
    · exact Sliced.zero _ _
  split at h
  · cases h
  split at h
  · cases h
  split at h
  · cases h
  rw [map_readLcIdx hw hlen] at h
  exact lcFixedEntries_ok h

theorem Sync.materializeLcFixed_ok
    (h : Sync.materializeLcFixed dict width indexes idxWidth numIdx = .ok out) :
    Sliced dict width ((List.range numIdx).map (lcIndex indexes idxWidth)) out := by
  obtain ⟨_, _, h⟩ := bind_eq_ok h
  exact Sync.materializeLcFixedRows_ok h

theorem Sliced.rowColumn
    (h : Sliced dict width js out) : RowColumn (.fixed width) (js.map (lcSlice dict width)) out := by
  refine ⟨?_, h.2⟩
  intro row hrow
  obtain ⟨j, hj, rfl⟩ := mem_map.mp hrow
  have hbound := h.1 j hj
  unfold lcSlice
  rw [length_take, length_drop]
  omega

theorem Sliced.entry {row : Bytes} {i : Nat}
    (h : Sliced dict width js out) (hrow : (js.map (lcSlice dict width))[i]? = some row) :
    ∃ j, js[i]? = some j ∧ Entry (.fixed width) numKeys dict j row := by
  rw [List.getElem?_map, Option.map_eq_some_iff] at hrow
  obtain ⟨j, hj, rfl⟩ := hrow
  exact ⟨j, hj, h.1 j (mem_of_getElem? hj), rfl⟩

/-- Where the rows are those the numbers name, the column is a lookup. -/
theorem LooksUp.of_rows {layout : RowLayout} {rows : List Bytes}
    (hlayout : inner.rowLayout = some layout) (hlen : rows.length = numIdx)
    (hcolumn : RowColumn layout rows out)
    (hentry : ∀ (i : Nat) (row : Bytes), rows[i]? = some row →
      ∃ j, ((List.range numIdx).map (lcIndex indexes idxWidth))[i]? = some j
        ∧ Entry layout numKeys dict j row) :
    LooksUp inner numKeys dict indexes idxWidth numIdx out := by
  refine ⟨layout, rows, hlayout, hlen, hcolumn, ?_⟩
  intro i row hrow
  obtain ⟨j, hj, hj'⟩ := hentry i row hrow
  rw [List.getElem?_map, Option.map_eq_some_iff] at hj
  obtain ⟨k, hk, rfl⟩ := hj
  obtain ⟨_, hki⟩ := List.getElem?_eq_some_iff.mp hk
  rw [getElem_range] at hki
  rw [hki]
  exact hj'

theorem Sliced.looksUp (hlayout : inner.rowLayout = some (.fixed width))
    (h : Sliced dict width ((List.range numIdx).map (lcIndex indexes idxWidth)) out) :
    LooksUp inner numKeys dict indexes idxWidth numIdx out :=
  LooksUp.of_rows hlayout (by simp) h.rowColumn fun _ _ hrow => h.entry hrow

/-! ## §4. String entries. -/

theorem WireString.length_head (s : WireString) : 0 < s.head.length ∧ s.head.length ≤ 10 := by
  obtain ⟨e, he, hvarint⟩ := sliceVarint_ok_iff.mp (s.reads [])
  obtain rfl := append_cancel_right he
  exact ⟨hvarint.pos, hvarint.short⟩

theorem WireString.length_bytes (s : WireString) :
    s.bytes.length = s.head.length + s.value.length := length_append

theorem WireString.sliceVarint_head (s : WireString) (msg : String) (rest : Bytes) :
    sliceVarint msg (s.head ++ rest) = (.ok s.value.length, rest) :=
  sliceVarint_ok_iff.mpr (sliceVarint_ok_iff.mp (s.reads rest))

/-- The string with its length in the shortest form. -/
def WireString.shortest (value : Bytes) (h : value.length < 2 ^ 64) : WireString where
  head := encodeVarint value.length
  value := value
  reads := fun rest => sliceVarint_encode _ h rest

theorem WireString.bytes_ne_nil (s : WireString) (rest : Bytes) : s.bytes ++ rest ≠ [] := by
  intro h
  have hpos := s.length_head.1
  have hlen := congrArg List.length h
  rw [length_append, s.length_bytes, length_nil] at hlen
  omega

/-- A dictionary reader that takes one string after the other, over all of them. -/
theorem WireString.read_all {read : Nat → Bytes → Result (List Bytes)}
    {item : WireString → Bytes} (hnil : ∀ fuel, read fuel [] = .ok [])
    (hcons : ∀ (s : WireString) {rest fuel items}, read fuel rest = .ok items →
      read (fuel + 1) (s.bytes ++ rest) = .ok (item s :: items)) :
    ∀ {strings : List WireString} {fuel : Nat}, (strings.flatMap (·.bytes)).length ≤ fuel →
      read fuel (strings.flatMap (·.bytes)) = .ok (strings.map item) := by
  intro strings
  induction strings with
  | nil => exact fun {fuel} _ => hnil fuel
  | cons s strings ih =>
    intro fuel hfuel
    rw [flatMap_cons, length_append, s.length_bytes] at hfuel
    have hpos := s.length_head.1
    cases fuel with
    | zero => omega
    | succ fuel => exact hcons s (ih (by omega))

theorem lcStringDict_strings {strings : List WireString} {fuel : Nat} :
    (strings.flatMap (·.bytes)).length ≤ fuel →
      lcStringDict fuel (strings.flatMap (·.bytes)) = .ok (strings.map (·.value)) := by
  refine WireString.read_all (fun fuel => by cases fuel <;> rfl) ?_
  intro s rest fuel items hrest
  rw [lcStringDict, if_neg (s.bytes_ne_nil _), WireString.bytes, append_assoc,
    s.sliceVarint_head]
  dsimp only
  rw [if_neg (by rw [length_append]; omega), take_left, drop_left, hrest]
  rfl

theorem Sync.lcStringDict_strings {strings : List WireString} {fuel : Nat} :
    (strings.flatMap (·.bytes)).length ≤ fuel →
      Sync.lcStringDict fuel (strings.flatMap (·.bytes)) = .ok (strings.map (·.bytes)) := by
  refine WireString.read_all (fun fuel => by cases fuel <;> rfl) ?_
  intro s rest fuel items hrest
  have hread : parseVarint (s.bytes ++ rest) = (.ok s.value.length, s.value ++ rest) := by
    rw [WireString.bytes, append_assoc]
    exact s.reads _
  -- what has been read so far is the length, and the value comes on top
  have htaken : (s.bytes ++ rest).length - (s.value ++ rest).length + s.value.length
      = s.bytes.length := by
    rw [length_append, length_append, s.length_bytes]
    omega
  rw [Sync.lcStringDict, if_neg (s.bytes_ne_nil _), hread]
  dsimp only
  rw [if_neg (by rw [length_append]; omega), htaken, take_left, drop_left, hrest]
  rfl

/-- The strings these numbers name, one for each. -/
def Picked (strings : List WireString) (js : List Nat) (picked : List WireString) : Prop :=
  js.map (fun j => strings[j]?) = picked.map some

theorem Picked.unique {picked' : List WireString}
    (h : Picked strings js picked) (h' : Picked strings js picked') : picked = picked' :=
  map_injective_iff.mpr (Option.some_injective _) (h.symm.trans h')

theorem lcStringEntries_ok {js : List Nat} {total : Nat} :
    lcStringEntries (strings.map (·.value)) js total = .ok out →
      ∃ picked, Picked strings js picked
        ∧ (∀ s ∈ picked, s.value.length ≤ maxColumnBytes)
        ∧ out = picked.flatMap fun s => encodeVarint s.value.length ++ s.value := by
  induction js generalizing total out with
  | nil =>
    intro h
    cases h
    exact ⟨[], rfl, by simp, rfl⟩
  | cons j js ih =>
    intro h
    rw [lcStringEntries, List.getElem?_map] at h
    rcases hs : strings[j]? with _ | s
    · rw [hs] at h
      cases h
    rw [hs] at h
    obtain ⟨total', htotal, h⟩ := bind_eq_ok h
    obtain ⟨rest, hrest, hout⟩ := bind_eq_ok h
    obtain ⟨picked, hpicked, hsmall, rfl⟩ := ih hrest
    cases hout
    refine ⟨s :: picked, ?_, ?_, by rw [flatMap_cons]⟩
    · unfold Picked at hpicked ⊢
      rw [map_cons, map_cons, hs, hpicked]
    · have hcap : total + s.value.length ≤ maxColumnBytes := (checkedColumnBytes_ok htotal).2
      exact forall_mem_cons.mpr ⟨by omega, hsmall⟩

theorem Sync.materializeLcStringRows_ok {total : Nat} :
    Sync.materializeLcStringRows (strings.map (·.bytes)) indexes idxWidth rows total = .ok out →
      ∃ picked, Picked strings (rows.map (lcIndex indexes idxWidth)) picked
        ∧ out = picked.flatMap (·.bytes) := by
  induction rows generalizing total out with
  | nil =>
    intro h
    cases h
    exact ⟨[], rfl, rfl⟩
  | cons row rows ih =>
    intro h
    obtain ⟨idx, hidx, h⟩ := bind_eq_ok h
    rw [Sync.readLcIndex_ok hidx, List.getElem?_map] at h
    rcases hs : strings[lcIndex indexes idxWidth row]? with _ | s
    · rw [hs] at h
      cases h
    rw [hs] at h
    obtain ⟨total', _, h⟩ := bind_eq_ok h
    obtain ⟨rest, hrest, hout⟩ := bind_eq_ok h
    obtain ⟨picked, hpicked, rfl⟩ := ih hrest
    cases hout
    refine ⟨s :: picked, ?_, by rw [flatMap_cons]⟩
    unfold Picked at hpicked ⊢
    rw [map_cons, map_cons, map_cons, hs, hpicked]

theorem Picked.looksUp {written : List WireString}
    (hlayout : inner.rowLayout = some .strings)
    (h : Picked strings ((List.range numIdx).map (lcIndex indexes idxWidth)) picked)
    (hwritten : written.map (·.value) = picked.map (·.value))
    (hout : out = written.flatMap (·.bytes)) :
    LooksUp inner numKeys (strings.flatMap (·.bytes)) indexes idxWidth numIdx out := by
  have hlen : picked.length = numIdx := by
    have := congrArg List.length h
    simpa using this.symm
  have hcolumn : RowColumn .strings (picked.map (·.value)) out := ⟨written, hwritten.symm, hout⟩
  refine LooksUp.of_rows hlayout (by simpa using hlen) hcolumn ?_
  intro i row hrow
  rw [List.getElem?_map, Option.map_eq_some_iff] at hrow
  obtain ⟨s, hs, rfl⟩ := hrow
  have hpick := congrArg (fun l => l[i]?) h
  simp only [List.getElem?_map, hs, Option.map_some] at hpick ⊢
  obtain ⟨j, hj, hj'⟩ := Option.map_eq_some_iff.mp hpick
  refine ⟨j, hj, strings.map (·.value), ⟨strings, rfl, rfl⟩, ?_⟩
  rw [List.getElem?_map, hj']
  rfl

/-! ## §5. The sync engine. -/

theorem Sync.lcNullRows_ok {nulls : Bytes} :
    Sync.lcNullRows nulls indexes idxWidth rows = .ok out →
      (rows.map (lcIndex indexes idxWidth)).map (fun j => nulls[j]?) = out.map some := by
  induction rows generalizing out with
  | nil =>
    intro h
    cases h
    rfl
  | cons row rows ih =>
    intro h
    obtain ⟨idx, hidx, h⟩ := bind_eq_ok h
    rw [Sync.readLcIndex_ok hidx] at h
    rcases hnull : nulls[lcIndex indexes idxWidth row]? with _ | null
    · rw [hnull] at h
      cases h
    rw [hnull] at h
    obtain ⟨rest, hrest, hout⟩ := bind_eq_ok h
    cases hout
    rw [map_cons, map_cons, map_cons, hnull, ih hrest]

/-- What the sync engine makes of an element type that is not Nullable: slices of
a fixed-width dictionary, or picked strings. -/
theorem Sync.materializeLcPlain_ok
    (h : Sync.materializeLcPlain dict inner indexes idxWidth numIdx = .ok out) :
    (∃ width, inner.rowLayout = some (.fixed width) ∧ inner.fixedWidth = some width ∧
      Sliced dict width ((List.range numIdx).map (lcIndex indexes idxWidth)) out) ∨
    (inner.rowLayout = some .strings ∧ inner.fixedWidth = none ∧
      Sync.materializeLcString dict indexes idxWidth numIdx = .ok out) := by
  cases inner <;> first
    | exact .inl ⟨_, rfl, rfl, Sync.materializeLcFixed_ok h⟩
    | exact .inr ⟨rfl, rfl, h⟩
    | cases h

theorem Sync.materializeLowCardinalityInner_plain
    (h : ∀ value, inner ≠ .nullable value) (dict indexes : Bytes) (idxWidth numIdx : Nat) :
    Sync.materializeLowCardinalityInner dict inner indexes idxWidth numIdx
      = Sync.materializeLcPlain dict inner indexes idxWidth numIdx := by
  cases inner <;> first
    | rfl
    | exact absurd rfl (h _)

theorem length_flatten_fixed {rows : List Bytes} (h : ∀ row ∈ rows, row.length = width) :
    rows.flatten.length = rows.length * width := by
  rw [length_flatten, map_congr_left h]
  simp

/-- The null map of a Nullable dictionary is as long as the number of its keys. -/
theorem nullable_dictionary {rows : List Bytes}
    (hlen : rows.length = numKeys) (h : RowColumn (.nullable (.fixed width)) rows dict) :
    dict.length / (width + 1) = numKeys := by
  obtain ⟨nulls, values, tail, hvalues, rfl, ⟨hwidth, rfl⟩, rfl⟩ := h
  have hkeys : values.length = numKeys := by simpa [hvalues] using hlen
  rw [length_append, length_flatten_fixed hwidth, hvalues, hkeys, add_comm, ← Nat.mul_succ,
    Nat.mul_div_cancel _ (by omega)]

/-- Null bytes and values looked up alike are the rows of a Nullable column. -/
theorem nullable_looksUp {nulls values : Bytes}
    (hlayout : inner.rowLayout = some (.nullable (.fixed width)))
    (hvalues : Sliced (dict.drop numKeys) width
      ((List.range numIdx).map (lcIndex indexes idxWidth)) values)
    (hnulls : ((List.range numIdx).map (lcIndex indexes idxWidth)).map
      (fun j => (dict.take numKeys)[j]?) = nulls.map some) :
    LooksUp inner numKeys dict indexes idxWidth numIdx (nulls ++ values) := by
  have hlen : nulls.length = numIdx := by
    have := congrArg List.length hnulls
    simpa using this.symm
  have hcolumn := hvalues.rowColumn
  generalize hjs : (List.range numIdx).map (lcIndex indexes idxWidth) = js at hvalues hnulls hcolumn
  have hlen' : nulls.length = (js.map (lcSlice (dict.drop numKeys) width)).length := by
    rw [length_map, ← hjs, length_map, length_range, hlen]
  have hrows : RowColumn (.nullable (.fixed width))
      (List.zipWith (· :: ·) nulls (js.map (lcSlice (dict.drop numKeys) width)))
      (nulls ++ values) := ⟨nulls, _, values, hlen', rfl, hcolumn, rfl⟩
  refine LooksUp.of_rows hlayout ?_ hrows ?_
  · rw [length_zipWith, ← hlen', hlen, Nat.min_self]
  intro i row hrow
  rw [hjs]
  obtain ⟨null, value, hnull, hvalue, rfl⟩ := List.getElem?_zipWith_eq_some.mp hrow
  obtain ⟨j, hj, hentry⟩ := hvalues.entry hvalue
  refine ⟨j, hj, null, value, ?_, hentry, rfl⟩
  have hpick := congrArg (fun l => l[i]?) hnulls
  simp only [List.getElem?_map, hj, hnull, Option.map_some] at hpick
  exact Option.some.inj hpick

theorem IsDictionary.wireStrings
    (h : IsDictionary inner numKeys dict) (hlayout : inner.rowLayout = some .strings) :
    ∃ strings : List WireString, dict = strings.flatMap (·.bytes) ∧ strings.length = numKeys
      ∧ ∀ s ∈ strings, s.value.length ≤ maxStringBytes := by
  obtain ⟨rows, hlen, ⟨strings, rfl, hdict⟩, hsmall⟩ := h.2 .strings hlayout
  refine ⟨strings, hdict, by simpa using hlen, ?_⟩
  intro s hs
  exact hsmall rfl s.value (mem_map_of_mem hs)

/-- **The sync engine looks up**: on every element type it expands, every row is
the entry its index names. -/
theorem Sync.materialise_looksUp (hdict : IsDictionary inner numKeys dict)
    (h : Sync.materializeLowCardinalityInner dict inner indexes idxWidth numIdx = .ok out) :
    LooksUp inner numKeys dict indexes idxWidth numIdx out := by
  by_cases hnullable : ∃ value, inner = .nullable value
  · obtain ⟨value, rfl⟩ := hnullable
    change Sync.materializeLcNullable dict value indexes idxWidth numIdx = .ok out at h
    unfold Sync.materializeLcNullable at h
    split at h
    · cases h
    next width hwidth =>
    obtain ⟨values, hvalues, h⟩ := bind_eq_ok h
    obtain ⟨_, _, h⟩ := bind_eq_ok h
    obtain ⟨nulls, hnulls, hout⟩ := bind_eq_ok h
    cases hout
    obtain ⟨w, hlayout, hw, hsliced⟩ | ⟨_, hnone, _⟩ := Sync.materializeLcPlain_ok hvalues
    · obtain rfl : w = width := Option.some.inj (hw.symm.trans hwidth)
      have hlayout' : (ColumnType.nullable value).rowLayout = some (.nullable (.fixed w)) := by
        rw [ColumnType.rowLayout, hlayout]
        rfl
      obtain ⟨entries, hentries, hcolumn, -⟩ := hdict.2 _ hlayout'
      rw [nullable_dictionary hentries hcolumn] at hsliced hnulls
      exact nullable_looksUp hlayout' hsliced (Sync.lcNullRows_ok hnulls)
    · rw [hnone] at hwidth
      cases hwidth
  · rw [Sync.materializeLowCardinalityInner_plain (fun value hv => hnullable ⟨value, hv⟩)] at h
    obtain ⟨width, hlayout, -, hsliced⟩ | ⟨hlayout, -, hstrings⟩ := Sync.materializeLcPlain_ok h
    · exact hsliced.looksUp hlayout
    obtain ⟨strings, rfl, -, -⟩ := hdict.wireStrings hlayout
    obtain ⟨entries, hentries, hrows⟩ := bind_eq_ok hstrings
    rw [Sync.lcStringDict_strings le_rfl] at hentries
    cases hentries
    obtain ⟨picked, hpicked, hout⟩ := Sync.materializeLcStringRows_ok hrows
    exact hpicked.looksUp hlayout rfl hout

theorem Sync.materializeLowCardinalityInner_strings
    (hlayout : inner.rowLayout = some .strings) (dict indexes : Bytes)
    (idxWidth numIdx : Nat) :
    Sync.materializeLowCardinalityInner dict inner indexes idxWidth numIdx
      = Sync.materializeLcString dict indexes idxWidth numIdx := by
  cases inner with
  | nullable value =>
    obtain ⟨_, _, h⟩ := Option.map_eq_some_iff.mp hlayout
    cases h
  | string | json | other s => rfl
  | decimal precision scale =>
    obtain ⟨_, _, h⟩ := Option.map_eq_some_iff.mp hlayout
    cases h
  | _ => cases hlayout

/-! ## §6. The async engine. -/

/-- The element types `materialize_lc_inner` has a branch for; it wraps every
other column up in its wire form again. -/
def lcExpands : ColumnType → Bool
  | .uint8 | .int8 | .bool | .enum8 | .uint16 | .int16 | .date | .enum16
  | .uint32 | .int32 | .float32 | .date32 | .dateTime | .ipv4
  | .uint64 | .int64 | .float64 | .dateTime64 _ | .uint128 | .int128 | .uuid | .ipv6
  | .uint256 | .int256 | .string | .other _ | .fixedString _ => true
  | _ => false

/-- The lengths in a dictionary of strings are written in the shortest form. -/
def ShortestLengths (dict : Bytes) : Prop :=
  ∀ strings : List WireString, dict = strings.flatMap (·.bytes) →
    ∀ s ∈ strings, s.head = encodeVarint s.value.length

/-- The string branch of `materialize_lc_inner`. -/
def materializeLcStrings (dict indexes : Bytes) (idxWidth numIdx : Nat) :
    Result Bytes := do
  let entries ← lcStringDict dict.length dict
  lcStringEntries entries ((List.range numIdx).map fun i => readLcIdx indexes i idxWidth) 0

theorem materializeLcInner_ok (hexp : lcExpands inner = true)
    (h : materializeLcInner dict inner indexes idxWidth numIdx = .ok out) :
    (∃ width, inner.rowLayout = some (.fixed width) ∧
      materializeLcFixed dict width indexes idxWidth numIdx = .ok out) ∨
    (inner.rowLayout = some .strings ∧
      materializeLcStrings dict indexes idxWidth numIdx = .ok out) := by
  unfold materializeLcInner at h
  split at h
  · cases h
  split at h
  · cases h
  cases inner <;> first
    | exact .inl ⟨_, rfl, h⟩
    | exact .inr ⟨rfl, h⟩
    | cases hexp

theorem materializeLcInner_unexpanded (hexp : lcExpands inner = false)
    (hsmall : numIdx * idxWidth < usizeBound) (hlen : indexes.length = numIdx * idxWidth) :
    materializeLcInner dict inner indexes idxWidth numIdx
      = .ok (lcUnexpanded dict indexes idxWidth numIdx) := by
  unfold materializeLcInner
  rw [if_neg (by omega), if_neg (by omega)]
  cases inner <;> first
    | rfl
    | cases hexp

theorem materializeLcInner_strings (hexp : lcExpands inner = true)
    (hlayout : inner.rowLayout = some .strings)
    (hsmall : numIdx * idxWidth < usizeBound) (hlen : indexes.length = numIdx * idxWidth) :
    materializeLcInner dict inner indexes idxWidth numIdx
      = materializeLcStrings dict indexes idxWidth numIdx := by
  unfold materializeLcInner
  rw [if_neg (by omega), if_neg (by omega)]
  cases inner with
  | string | other s => rfl
  | json | nullable value | decimal precision scale => cases hexp
  | _ => cases hlayout

/-- What the async engine returns for a type it expands: slices, or picked strings
with their lengths in the shortest form. -/
theorem Async.materialise_ok (hexp : lcExpands inner = true)
    (hkeyed : numKeys = 0 → inner = .fixedString 0) (hw : IndexWidth idxWidth)
    (hlen : indexes.length = numIdx * idxWidth)
    (h : Async.materialise numKeys dict inner indexes idxWidth numIdx = .ok out) :
    (∃ width, inner.rowLayout = some (.fixed width) ∧
      Sliced dict width ((List.range numIdx).map (lcIndex indexes idxWidth)) out) ∨
    (inner.rowLayout = some .strings ∧
      ∀ strings : List WireString, dict = strings.flatMap (·.bytes) →
        ∃ picked, Picked strings ((List.range numIdx).map (lcIndex indexes idxWidth)) picked
          ∧ (∀ s ∈ picked, s.value.length ≤ maxColumnBytes)
          ∧ out = picked.flatMap fun s => encodeVarint s.value.length ++ s.value) := by
  unfold Async.materialise at h
  split at h
  · next hnone =>
    cases h
    obtain rfl | hkeys := hnone
    · -- no rows: nothing is looked up
      have hlayout : (∃ width, inner.rowLayout = some (.fixed width)) ∨
          inner.rowLayout = some .strings := by
        cases inner <;> first
          | exact .inl ⟨_, rfl⟩
          | exact .inr rfl
          | cases hexp
      obtain ⟨width, hlayout⟩ | hlayout := hlayout
      · exact .inl ⟨width, hlayout, by simp, rfl⟩
      · exact .inr ⟨hlayout, fun _ _ => ⟨[], rfl, by simp, rfl⟩⟩
    · rw [hkeyed hkeys]
      exact .inl ⟨0, rfl, Sliced.zero _ _⟩
  obtain ⟨width, hlayout, hfixed⟩ | ⟨hlayout, hstrings⟩ := materializeLcInner_ok hexp h
  · exact .inl ⟨width, hlayout, materializeLcFixed_ok hw hlen hfixed⟩
  refine .inr ⟨hlayout, ?_⟩
  rintro strings rfl
  obtain ⟨entries, hentries, hrows⟩ := bind_eq_ok hstrings
  rw [lcStringDict_strings le_rfl] at hentries
  cases hentries
  rw [map_readLcIdx hw hlen] at hrows
  exact lcStringEntries_ok hrows

/-! ## §7. Where the lookup fails. -/

theorem Entry.length_le : ∀ {layout : RowLayout} {numKeys j : Nat} {dict row : Bytes},
    Entry layout numKeys dict j row → row.length ≤ dict.length := by
  intro layout
  induction layout with
  | fixed width =>
    rintro numKeys j dict row ⟨hbound, rfl⟩
    rw [length_take, length_drop]
    omega
  | strings =>
    rintro numKeys j dict row ⟨rows, ⟨strings, rfl, rfl⟩, hrow⟩
    rw [List.getElem?_map, Option.map_eq_some_iff] at hrow
    obtain ⟨s, hs, rfl⟩ := hrow
    have hle : s.bytes.length ≤ (strings.flatMap (·.bytes)).length :=
      (sublist_flatten_of_mem
        (mem_map_of_mem (mem_of_getElem? hs))).length_le
    have hlen := s.length_bytes
    omega
  | nullable value ih =>
    rintro numKeys j dict row ⟨null, rest, hnull, hrest, rfl⟩
    have hle := ih hrest
    have hpos : 0 < (dict.take numKeys).length :=
      length_pos_of_mem (mem_of_getElem? hnull)
    have hsplit : (dict.take numKeys).length + (dict.drop numKeys).length = dict.length := by
      rw [← length_append, take_append_drop]
    rw [length_cons]
    omega

theorem RowColumn.length_le : ∀ {layout : RowLayout} {row out : Bytes},
    RowColumn layout [row] out → out.length ≤ row.length + 10 := by
  intro layout
  induction layout with
  | fixed width =>
    rintro row out ⟨-, rfl⟩
    simp
  | strings =>
    rintro row out ⟨strings, hrow, rfl⟩
    match strings, hrow with
    | [s], hrow =>
      obtain rfl : row = s.value := by simpa using hrow
      have hhead := s.length_head.2
      rw [flatMap_cons, flatMap_nil, append_nil, s.length_bytes]
      omega
  | nullable value ih =>
    rintro row out ⟨nulls, values, tail, hlen, hrow, htail, rfl⟩
    match nulls, values, hrow with
    | [null], [rest], hrow =>
      obtain rfl : row = null :: rest := by simpa using hrow
      have hle := ih htail
      rw [length_append, length_cons, length_cons, length_nil]
      omega
    | [null], rest :: _ :: _, _ => simp at hlen
    | null :: _ :: _, [rest], _ => simp at hlen

theorem rowLayout_zero (h : inner.rowLayout = some (.fixed 0)) :
    inner = .fixedString 0 := by
  cases inner with
  | fixedString n =>
    have hn : n.toNat = (0 : UInt64).toNat := by
      simpa [ColumnType.rowLayout, ColumnType.fixedWidth] using h
    rw [UInt64.toNat_inj.mp hn]
  | decimal precision scale =>
    simp only [ColumnType.rowLayout, ColumnType.fixedWidth, ColumnType.decimalWidth] at h
    split_ifs at h <;> cases h
  | nullable value =>
    obtain ⟨_, _, h⟩ := Option.map_eq_some_iff.mp h
    cases h
  | _ => cases h

theorem rowColumn_nil {layout : RowLayout} {row : Bytes}
    (hlayout : inner.rowLayout = some layout) (h : RowColumn layout [row] []) :
    inner = .fixedString 0 := by
  cases layout with
  | fixed width =>
    obtain ⟨hwidth, hrow⟩ := h
    obtain rfl : row = [] := by simpa using hrow.symm
    obtain rfl : 0 = width := hwidth [] (by simp)
    exact rowLayout_zero hlayout
  | strings =>
    obtain ⟨strings, hrow, hbytes⟩ := h
    match strings, hrow with
    | [s], _ => exact absurd hbytes.symm (s.bytes_ne_nil _)
  | nullable value =>
    obtain ⟨nulls, values, tail, hlen, hrow, -, hbytes⟩ := h
    match nulls, hrow with
    | null :: _, _ => cases hbytes

/-- Unless the type is expanded, one row comes back longer than any entry. -/
theorem MaterialisesByLookup.expands
    (h : MaterialisesByLookup inner numKeys dict) (hkeys : numKeys ≠ 0) :
    lcExpands inner = true := by
  by_contra hexp
  rw [Bool.not_eq_true] at hexp
  have hasync : Async.materialise numKeys dict inner [0] 1 1
      = .ok (lcUnexpanded dict [0] 1 1) := by
    unfold Async.materialise
    rw [if_neg (by omega)]
    exact materializeLcInner_unexpanded hexp (by decide) rfl
  obtain ⟨layout, rows, -, hlen, hcolumn, hentry⟩ := (h 1 1 [0] (.inl rfl) rfl).1 _ hasync
  obtain ⟨row, rfl⟩ := length_eq_one_iff.mp hlen
  have hrow := (hentry 0 row rfl).length_le
  have hout := hcolumn.length_le
  have hlong : (lcUnexpanded dict [0] 1 1).length = 33 + dict.length := by
    simp only [lcUnexpanded, length_append, leBytes_length, length_cons, length_nil]
    omega
  omega

theorem MaterialisesByLookup.keyed
    (h : MaterialisesByLookup inner numKeys dict) (hkeys : numKeys = 0) :
    inner = .fixedString 0 := by
  have hasync : Async.materialise numKeys dict inner [0] 1 1 = .ok [] :=
    if_pos (.inr hkeys)
  obtain ⟨layout, rows, hlayout, hlen, hcolumn, -⟩ := (h 1 1 [0] (.inl rfl) rfl).1 _ hasync
  obtain ⟨row, rfl⟩ := length_eq_one_iff.mp hlen
  exact rowColumn_nil hlayout hcolumn

theorem lcIndex_leBytes (h : j < 2 ^ 64) : lcIndex (leBytes 8 j) 8 0 = j := by
  unfold lcIndex
  rw [zero_mul, drop_zero, take_of_length_le (by rw [leBytes_length])]
  exact leNat_leBytes h

/-- One index into a dictionary of strings: the async engine writes the length anew. -/
theorem materializeLcStrings_one
    (hj : strings[j]? = some s) (hsmall : j < 2 ^ 64) (hs : s.value.length ≤ maxStringBytes) :
    materializeLcStrings (strings.flatMap (·.bytes)) (leBytes 8 j) 8 1
      = .ok (encodeVarint s.value.length ++ s.value) := by
  have hlen : (leBytes 8 j).length = 1 * 8 := leBytes_length 8 j
  have hcap : 0 + s.value.length ≤ maxColumnBytes := by
    have : maxStringBytes ≤ maxColumnBytes := by decide
    omega
  unfold materializeLcStrings
  rw [lcStringDict_strings le_rfl, map_readLcIdx (Or.inr (Or.inr (Or.inr rfl))) hlen]
  show lcStringEntries (strings.map (·.value)) [lcIndex (leBytes 8 j) 8 0] 0 = _
  rw [lcIndex_leBytes hsmall, lcStringEntries, List.getElem?_map, hj]
  show (checkedColumnBytes 0 s.value.length _ >>= _) = _
  rw [checkedColumnBytes_of_le hcap]
  show Except.ok (encodeVarint s.value.length ++ s.value ++ []) = _
  rw [append_nil]

/-- One index into a dictionary of strings: the sync engine copies the entry. -/
theorem Sync.materializeLcString_one
    (hj : strings[j]? = some s) (hsmall : j < 2 ^ 64) (hs : s.value.length ≤ maxStringBytes) :
    Sync.materializeLcString (strings.flatMap (·.bytes)) (leBytes 8 j) 8 1 = .ok s.bytes := by
  have hlen : (leBytes 8 j).length = 8 := leBytes_length 8 j
  have hcap : 0 + s.bytes.length ≤ maxColumnBytes := by
    have hroom : maxStringBytes + 10 ≤ maxColumnBytes := by
      unfold maxStringBytes maxColumnBytes
      omega
    have hhead := s.length_head.2
    rw [s.length_bytes]
    omega
  unfold Sync.materializeLcString
  rw [Sync.lcStringDict_strings le_rfl]
  have hindex := @Sync.readLcIndex_eq (leBytes 8 j) 8 0 (Or.inr (Or.inr (Or.inr rfl)))
    (by unfold usizeBound; omega) (by omega)
  rw [lcIndex_leBytes hsmall] at hindex
  have hentry : (strings.map (·.bytes))[j]? = some s.bytes := by rw [List.getElem?_map, hj]; rfl
  have hrow : Sync.materializeLcStringRows (strings.map (·.bytes)) (leBytes 8 j) 8 [0] 0
      = .ok (s.bytes ++ []) := by
    rw [Sync.materializeLcStringRows, hindex]
    dsimp only [bind, Except.bind]
    rw [hentry]
    dsimp only
    rw [checkedColumnBytes_of_le hcap]
    rfl
  rw [append_nil] at hrow
  dsimp only [bind, Except.bind]
  exact hrow

/-- A string whose length is not in the shortest form tells the engines apart. -/
theorem MaterialisesByLookup.shortest
    (h : MaterialisesByLookup inner numKeys dict) (hdict : IsDictionary inner numKeys dict)
    (hlayout : inner.rowLayout = some .strings) : ShortestLengths dict := by
  rintro strings rfl s hs
  obtain ⟨j, hlt, rfl⟩ := mem_iff_getElem.mp hs
  have hj : strings[j]? = some strings[j] := List.getElem?_eq_getElem hlt
  -- the dictionary is read in one way only, so the caps hold for these strings too
  obtain ⟨capped, hsame, hkeys, hcap⟩ := hdict.wireStrings hlayout
  have hvalues : strings.map (·.value) = capped.map (·.value) := by
    have hread := @lcStringDict_strings strings _ le_rfl
    rw [hsame, lcStringDict_strings le_rfl] at hread
    exact (Except.ok.inj hread).symm
  have hlen : strings.length = numKeys := by
    have hcount := congrArg List.length hvalues
    simpa [hkeys] using hcount
  have hsmall : strings[j].value.length ≤ maxStringBytes := by
    have hmem : strings[j].value ∈ capped.map (·.value) := by
      rw [← hvalues]
      exact mem_map_of_mem hs
    obtain ⟨t, ht, hvalue⟩ := mem_map.mp hmem
    rw [← hvalue]
    exact hcap t ht
  have hindex : j < 2 ^ 64 := by
    have hmax : maxJsonDynamicItems < 2 ^ 64 := by decide
    have hbound := hdict.1
    omega
  have hpos : numKeys ≠ 0 := by omega
  have hone : (leBytes 8 j).length = 1 * 8 := leBytes_length 8 j
  have hasync : Async.materialise numKeys (strings.flatMap (·.bytes)) inner (leBytes 8 j) 8 1
      = .ok (encodeVarint strings[j].value.length ++ strings[j].value) := by
    unfold Async.materialise
    rw [if_neg (by omega), materializeLcInner_strings (h.expands hpos) hlayout (by decide) hone]
    exact materializeLcStrings_one hj hindex hsmall
  have hsync : Sync.materializeLowCardinalityInner (strings.flatMap (·.bytes)) inner
      (leBytes 8 j) 8 1 = .ok strings[j].bytes := by
    rw [Sync.materializeLowCardinalityInner_strings hlayout]
    exact Sync.materializeLcString_one hj hindex hsmall
  have heq := (h 8 1 (leBytes 8 j) (Or.inr (Or.inr (Or.inr rfl))) hone).2.2 _ _ hasync hsync
  exact (append_cancel_right heq).symm

/-! ## §8. Where it holds. -/

/-- With lengths in the shortest form, writing them anew changes nothing. -/
theorem Picked.rewritten (h : Picked strings js picked)
    (hshort : ∀ s ∈ strings, s.head = encodeVarint s.value.length) :
    (picked.flatMap fun s => encodeVarint s.value.length ++ s.value)
      = picked.flatMap (·.bytes) := by
  apply flatMap_congr
  intro s hs
  have hmem : some s ∈ js.map fun j => strings[j]? := by
    rw [h]
    exact mem_map_of_mem hs
  obtain ⟨j, -, hj⟩ := mem_map.mp hmem
  unfold WireString.bytes
  rw [hshort s (mem_of_getElem? hj)]

theorem materialisesByLookup_of
    (hdict : IsDictionary inner numKeys dict) (hexp : lcExpands inner = true)
    (hkeyed : numKeys = 0 → inner = .fixedString 0)
    (hshort : inner.rowLayout = some .strings → ShortestLengths dict) :
    MaterialisesByLookup inner numKeys dict := by
  intro idxWidth numIdx indexes hw hlen
  refine ⟨?_, fun out hout => Sync.materialise_looksUp hdict hout, ?_⟩
  · intro out hout
    obtain ⟨width, hlayout, hsliced⟩ | ⟨hlayout, hpick⟩ :=
      Async.materialise_ok hexp hkeyed hw hlen hout
    · exact hsliced.looksUp hlayout
    obtain ⟨strings, rfl, -, -⟩ := hdict.wireStrings hlayout
    obtain ⟨picked, hpicked, -, rfl⟩ := hpick strings rfl
    exact hpicked.looksUp hlayout rfl (hpicked.rewritten (hshort hlayout strings rfl))
  · intro out out' hout hout'
    have hplain : ∀ value, inner ≠ .nullable value := by
      rintro value rfl
      cases hexp
    rw [Sync.materializeLowCardinalityInner_plain hplain] at hout'
    obtain ⟨width, hlayout, hsliced⟩ | ⟨hlayout, hpick⟩ :=
      Async.materialise_ok hexp hkeyed hw hlen hout
    · obtain ⟨width', hlayout', -, hsliced'⟩ | ⟨hlayout', -, -⟩ := Sync.materializeLcPlain_ok hout'
      · obtain rfl : width = width' := by
          rw [hlayout] at hlayout'
          cases hlayout'
          rfl
        rw [hsliced.2, hsliced'.2]
      · rw [hlayout] at hlayout'
        cases hlayout'
    · obtain ⟨width', hlayout', -, -⟩ | ⟨-, -, hstrings⟩ := Sync.materializeLcPlain_ok hout'
      · rw [hlayout] at hlayout'
        cases hlayout'
      obtain ⟨strings, rfl, -, -⟩ := hdict.wireStrings hlayout
      obtain ⟨picked, hpicked, -, rfl⟩ := hpick strings rfl
      obtain ⟨entries, hentries, hrows⟩ := bind_eq_ok hstrings
      rw [Sync.lcStringDict_strings le_rfl] at hentries
      cases hentries
      obtain ⟨picked', hpicked', rfl⟩ := Sync.materializeLcStringRows_ok hrows
      rw [hpicked.rewritten (hshort hlayout strings rfl), hpicked.unique hpicked']

/-- **Materialization is a dictionary lookup in both engines exactly** when the
async engine has a branch for the type, there is a key to look up (or the rows
have no bytes), and the lengths of string entries are in the shortest form. -/
theorem lookup_iff {inner : ColumnType} {numKeys : Nat} {dict : Bytes}
    (hdict : IsDictionary inner numKeys dict) :
    MaterialisesByLookup inner numKeys dict ↔
      lcExpands inner = true ∧ (numKeys = 0 → inner = .fixedString 0) ∧
        (inner.rowLayout = some .strings → ShortestLengths dict) := by
  constructor
  · intro h
    refine ⟨?_, h.keyed, h.shortest hdict⟩
    by_cases hkeys : numKeys = 0
    · rw [h.keyed hkeys]
      rfl
    · exact h.expands hkeys
  · rintro ⟨hexp, hkeyed, hshort⟩
    exact materialisesByLookup_of hdict hexp hkeyed hshort

theorem WireString.bytes_inj {t : WireString} (h : s.bytes = t.bytes) :
    s.head = t.head ∧ s.value = t.value := by
  have hs := s.reads s.value
  have ht := t.reads t.value
  unfold WireString.bytes at h
  rw [h, ht] at hs
  have hvalue : t.value = s.value := congrArg Prod.snd hs
  rw [hvalue] at h
  exact ⟨append_cancel_right h, hvalue.symm⟩

/-- Strings written with the shortest lengths are a dictionary of shortest lengths. -/
theorem shortestLengths_of (h : ∀ s ∈ strings, s.head = encodeVarint s.value.length) :
    ShortestLengths (strings.flatMap (·.bytes)) := by
  intro others hsame t ht
  have hbytes : others.map (·.bytes) = strings.map (·.bytes) := by
    have hread := @Sync.lcStringDict_strings others _ le_rfl
    rw [← hsame, Sync.lcStringDict_strings le_rfl] at hread
    exact (Except.ok.inj hread).symm
  have hmem : t.bytes ∈ strings.map (·.bytes) := by
    rw [← hbytes]
    exact mem_map_of_mem ht
  obtain ⟨s, hs, heq⟩ := mem_map.mp hmem
  obtain ⟨hhead, hvalue⟩ := WireString.bytes_inj heq
  rw [← hhead, ← hvalue]
  exact h s hs

/-- The strings `a` and `bb`. -/
def twoStrings : List WireString :=
  [.shortest [97] (by decide), .shortest [98, 98] (by decide)]

/-- A dictionary of two strings is looked up by both engines. -/
theorem lookup_twoStrings :
    IsDictionary .string 2 [1, 97, 2, 98, 98] ∧
      MaterialisesByLookup .string 2 [1, 97, 2, 98, 98] := by
  have hbytes : [1, 97, 2, 98, 98] = twoStrings.flatMap (·.bytes) := by decide
  have hdict : IsDictionary .string 2 [1, 97, 2, 98, 98] := by
    refine ⟨by decide, ?_⟩
    rintro layout ⟨⟩
    exact ⟨[[97], [98, 98]], rfl, ⟨twoStrings, rfl, hbytes⟩, fun _ => by decide⟩
  refine ⟨hdict, (lookup_iff hdict).mpr ⟨rfl, nofun, fun _ => ?_⟩⟩
  rw [hbytes]
  apply shortestLengths_of
  decide

/-- One Time value behind one index: the sync engine returns its four bytes, the
async engine returns the LowCardinality column again. -/
theorem time_not_looked_up :
    Sync.materializeLowCardinalityInner [1, 0, 0, 0] .time [0] 1 1 = .ok [1, 0, 0, 0] ∧
      Async.materialise 1 [1, 0, 0, 0] .time [0] 1 1
        = .ok ([1, 0, 0, 0, 0, 0, 0, 0] ++ [0, 0, 0, 0, 0, 0, 0, 0] ++ [4, 0, 0, 0, 0, 0, 0, 0]
            ++ [1, 0, 0, 0] ++ [1, 0, 0, 0, 0, 0, 0, 0] ++ [0]) ∧
      ¬ MaterialisesByLookup .time 1 [1, 0, 0, 0] := by
  refine ⟨by decide +kernel, by decide +kernel, ?_⟩
  intro h
  exact absurd (h.expands (by decide)) (by decide)

end StClickHouse
