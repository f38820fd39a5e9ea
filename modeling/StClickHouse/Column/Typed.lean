/-
  StClickHouse.Column.Typed
  **TYPED COLUMNS.**

  The impls of `ClickHouseValue`, `ClickHouseColumn` and `ClickHouseColumnData` for the
  fixed-width types, `bool`, `Ipv6`, `String`, `Option`, `Vec`, `HashMap` and tuples
  (`shared/column/*.rs`).  The impls of the generic types use those of their parameters,
  so the types are codes and every trait function is one function by recursion on them.
-/
import StClickHouse.Column.Context

namespace StClickHouse

open ByteReader RustText ReadColumnContext List

namespace Column

/-! ## §1. Types and their values. -/

/-- The types of `impl_plain_column_column!`. -/
inductive Plain where
  | u8 | u16 | u32 | u64 | u128 | i8 | i16 | i32 | i64 | i128 | f32 | f64
  | uInt256 | int256 | dateTime64Value | decimal32 | decimal64 | decimal128 | decimal256
  | date | dateTime | uuid | ipv4
  deriving Repr, DecidableEq

/-- `size_of`. -/
def Plain.width : Plain → Nat
  | .u8 | .i8 => 1
  | .u16 | .i16 | .date => 2
  | .u32 | .i32 | .f32 | .decimal32 | .dateTime | .ipv4 => 4
  | .u64 | .i64 | .f64 | .decimal64 | .dateTime64Value => 8
  | .u128 | .i128 | .decimal128 | .uuid => 16
  | .uInt256 | .int256 | .decimal256 => 32

/-- The standard library has a `Default` for the type. -/
def Plain.hasDefault : Plain → Bool
  | .u8 | .u16 | .u32 | .u64 | .u128 | .i8 | .i16 | .i32 | .i64 | .i128 | .f32 | .f64 => true
  | _ => false

/-- The type is `Eq + Hash`. -/
def Plain.isKey : Plain → Bool
  | .f32 | .f64 => false
  | _ => true

mutual
/-- The types of columns. -/
inductive Ty where
  | plain (s : Plain)
  | bool
  | ipv6
  | string
  | option (t : Ty)
  | vec (t : Ty)
  | map (key value : Ty)
  | tuple (ts : Tys)
/-- The element types of a tuple. -/
inductive Tys where
  | nil
  | cons (t : Ty) (ts : Tys)
end

/-- A `HashMap`: its entries in the order in which it hands them out. -/
@[ext]
structure HashMap (κ ν : Type) where
  entries : List (κ × ν)
  nodup : (entries.map Prod.fst).Nodup

mutual
/-- The values of a type.  Numbers are their bits. -/
def Ty.Val : Ty → Type
  | .plain s => BitVec (8 * s.width)
  | .bool => Bool
  | .ipv6 => BitVec 128
  | .string => Text
  | .option t => Option t.Val
  | .vec t => List t.Val
  | .map key value => HashMap key.Val value.Val
  | .tuple ts => ts.Vals
/-- The values of the elements of a tuple. -/
def Tys.Vals : Tys → Type
  | .nil => Unit
  | .cons t ts => t.Val × ts.Vals
end

def Tys.length : Tys → Nat
  | .nil => 0
  | .cons _ ts => ts.length + 1

mutual
/-- The type is `Default`. -/
def Ty.hasDefault : Ty → Bool
  | .plain s => s.hasDefault
  | .bool | .string | .option _ | .vec _ | .map _ _ => true
  | .ipv6 => false
  | .tuple ts => ts.haveDefault
def Tys.haveDefault : Tys → Bool
  | .nil => true
  | .cons t ts => t.hasDefault && ts.haveDefault
end

mutual
/-- The type is `Eq + Hash`. -/
def Ty.isKey : Ty → Bool
  | .plain s => s.isKey
  | .bool | .ipv6 | .string => true
  | .option t | .vec t => t.isKey
  | .map _ _ => false
  | .tuple ts => ts.areKeys
def Tys.areKeys : Tys → Bool
  | .nil => true
  | .cons t ts => t.isKey && ts.areKeys
end

mutual
/-- The type has a `ClickHouseColumn` impl. -/
def Ty.isColumn : Ty → Bool
  | .plain _ | .bool | .ipv6 | .string => true
  | .option t => t.isColumn && t.hasDefault
  | .vec t => t.isColumn
  | .map key value => key.isColumn && key.isKey && value.isColumn
  | .tuple ts => 2 ≤ ts.length && ts.length ≤ 8 && ts.areColumns
def Tys.areColumns : Tys → Bool
  | .nil => true
  | .cons t ts => t.isColumn && ts.areColumns
end

mutual
/-- `Default::default`. -/
def Ty.default : (t : Ty) → t.Val
  | .plain s => (0 : BitVec (8 * s.width))
  | .bool => false
  | .ipv6 => (0 : BitVec 128)
  | .string => ([] : Text)
  | .option _ => none
  | .vec _ => []
  | .map _ _ => ⟨[], nodup_nil⟩
  | .tuple ts => ts.defaults
def Tys.defaults : (ts : Tys) → ts.Vals
  | .nil => ()
  | .cons t ts => (t.default, ts.defaults)
end

/-! ## §2. Writing. -/

/-- Values one after the other, up to the first that fails. -/
def writeEach {α : Type} (write : α → Result Bytes) : List α → Result Bytes
  | [] => .ok []
  | a :: as => do
    let first ← write a
    let rest ← writeEach write as
    return first ++ rest

/-- `write_to`.  Tuples write nothing. -/
def Ty.writeTo : (t : Ty) → t.Val → Result Bytes
  | .plain s, v => .ok (leBytes s.width (BitVec.toNat v))
  | .bool, true => .ok [1]
  | .bool, false => .ok [0]
  | .ipv6, v => .ok (leBytes 16 (BitVec.toNat v)).reverse
  | .string, s => .ok (writeString s)
  | .option _, none => .ok [1]
  | .option t, some v => do
    let bytes ← t.writeTo v
    return 0 :: bytes
  | .vec _, _ => .error (.text "Vec<T> RowBinary write not supported")
  | .map _ _, _ => .error (.text "HashMap RowBinary write not supported")
  | .tuple _, _ => .ok []

/-- The running total of lengths. -/
def cumulative (total : Nat) : List Nat → List Nat
  | [] => []
  | n :: ns => (total + n) :: cumulative (total + n) ns

/-- The offsets of rows with these lengths. -/
def offsetBytes (lengths : List Nat) : Bytes := (cumulative 0 lengths).flatMap (leBytes 8)

/-- The elements of tuples, one column after the other. -/
def Tys.writeColumns : (ts : Tys) → List ts.Vals → Result Bytes
  | .nil, _ => .ok []
  | .cons t ts, rows => do
    let first ← writeEach t.writeTo (rows.map fun row : t.Val × ts.Vals => row.1)
    let rest ← ts.writeColumns (rows.map fun row : t.Val × ts.Vals => row.2)
    return first ++ rest

section Generic

variable {α β : Type}

/-- One byte a row: 1 where there is no value. -/
def nullMask (values : List (Option α)) : Bytes :=
  values.map fun value => if value.isNone then 1 else 0

/-- `Option::write_column`. -/
def writeNullable (write : α → Result Bytes) (default : α) (values : List (Option α)) :
    Result Bytes := do
  let bytes ← writeEach write (values.map fun value => value.getD default)
  return nullMask values ++ bytes

/-- `Vec::write_column`. -/
def writeArray (write : α → Result Bytes) (rows : List (List α)) :
    Result Bytes := do
  let elems ← writeEach write rows.flatten
  return offsetBytes (rows.map List.length) ++ elems

/-- `HashMap::write_column`. -/
def writeMap (writeKey : α → Result Bytes) (writeValue : β → Result Bytes)
    (rows : List (HashMap α β)) : Result Bytes := do
  let keys ← writeEach writeKey (rows.flatMap fun m => m.entries.map Prod.fst)
  let values ← writeEach writeValue (rows.flatMap fun m => m.entries.map Prod.snd)
  return offsetBytes (rows.map fun m => m.entries.length) ++ keys ++ values

end Generic

/-- `write_column`.  The elements of generic types are written with `write_to`; tuples of
    more than four elements write nothing. -/
def Ty.writeColumn : (t : Ty) → List t.Val → Result Bytes
  | .plain s, values => writeEach (Ty.plain s).writeTo values
  | .bool, values => writeEach Ty.bool.writeTo values
  | .ipv6, values => writeEach Ty.ipv6.writeTo values
  | .string, values => writeEach Ty.string.writeTo values
  | .option t, values => writeNullable t.writeTo t.default values
  | .vec t, rows => writeArray t.writeTo rows
  | .map key value, rows => writeMap key.writeTo value.writeTo rows
  | .tuple ts, rows => if ts.length ≤ 4 then ts.writeColumns rows else .ok []

/-! ## §3. Reading. -/

/-- `PlainColumnData` and `Ipv6ColumnData`. -/
structure PlainColumnData where
  buf : Bytes
  count : Nat

/-- `NullableColumnData`. -/
structure NullableColumnData (δ : Type) where
  nullMask : Bytes
  inner : δ

/-- `ArrayColumnData`. -/
structure ArrayColumnData (δ : Type) where
  offsets : List Nat
  inner : δ

/-- `MapColumnData`. -/
structure MapColumnData (κ ν : Type) where
  offsets : List Nat
  keys : κ
  values : ν

/-- `Tuple2Data` to `Tuple8Data`. -/
structure TupleData (δ : Type) where
  columns : δ
  rows : Nat

mutual
/-- `ColumnData`. -/
def Ty.Data : Ty → Type
  | .plain _ | .ipv6 => PlainColumnData
  | .bool => Bytes
  | .string => StringColumnData
  | .option t => NullableColumnData t.Data
  | .vec t => ArrayColumnData t.Data
  | .map key value => MapColumnData key.Data value.Data
  | .tuple ts => TupleData ts.Datas
def Tys.Datas : Tys → Type
  | .nil => Unit
  | .cons t ts => t.Data × ts.Datas
end

/-- Indexing a vector panics past its end. -/
def indexed {α : Type} (as : List α) (i : Nat) : Readout α :=
  match as[i]? with
  | some a => .ok a
  | none => panics

/-- A column of fixed width. -/
def readPlain (overflow : String) (width : Nat) : Decoder PlainColumnData := do
  let rows ← getRows
  let buf ← readRows overflow width
  return ⟨buf, rows⟩

/-- The row count of the columns inside an Array or a Map: the last offset. -/
def readOffsetsTotal (rows : Nat) : Decoder (List Nat × Nat) := do
  let offsets ← readOffsets
  let total ← ofResult (indexed offsets (rows - 1))
  return (offsets, total)

section Generic

variable {δ κ ν : Type}

/-- `Option::read_column`. -/
def readNullable (inner : Decoder δ) : Decoder (NullableColumnData δ) := do
  let rows ← getRows
  let nullMask ← ReadColumnContext.readExact rows
  let inner ← inner
  return ⟨nullMask, inner⟩

/-- `Vec::read_column`. -/
def readArray (inner : Decoder δ) : Decoder (ArrayColumnData δ) := do
  let rows ← getRows
  if rows = 0 then do
    let inner ← inner
    return ⟨[], inner⟩
  else do
    let offsets ← readOffsetsTotal rows
    let inner ← withRows offsets.2 inner
    return ⟨offsets.1, inner⟩

/-- `HashMap::read_column`. -/
def readMap (keys : Decoder κ) (values : Decoder ν) : Decoder (MapColumnData κ ν) := do
  let rows ← getRows
  if rows = 0 then do
    let keys ← keys
    let values ← values
    return ⟨[], keys, values⟩
  else do
    let offsets ← readOffsetsTotal rows
    let keys ← withRows offsets.2 keys
    let values ← withRows offsets.2 values
    return ⟨offsets.1, keys, values⟩

/-- `read_column` of a tuple. -/
def readTuple (columns : Decoder δ) : Decoder (TupleData δ) := do
  let rows ← getRows
  let columns ← columns
  return ⟨columns, rows⟩

end Generic

/-- `bool::read_column`. -/
def readBool : Decoder Bytes := do
  let rows ← getRows
  ReadColumnContext.readExact rows

mutual
/-- `read_column`. -/
def Ty.readColumn : (t : Ty) → Decoder t.Data
  | .plain s => readPlain "column size overflow" s.width
  | .ipv6 => readPlain "IPv6 column size overflow" 16
  | .bool => readBool
  | .string => readStringColumn
  | .option t => readNullable t.readColumn
  | .vec t => readArray t.readColumn
  | .map key value => readMap key.readColumn value.readColumn
  | .tuple ts => readTuple ts.readColumns
def Tys.readColumns : (ts : Tys) → Decoder ts.Datas
  | .nil => (pure () : Decoder Unit)
  | .cons t ts => do
    let column ← t.readColumn
    let columns ← ts.readColumns
    return (column, columns)
end

/-- The bytes of one value of a column of fixed width, or what becomes of it where there
    are too few. -/
def PlainColumnData.window (col : PlainColumnData) (name overflow : String) (width index : Nat)
    (short : Readout Bytes) : Readout Bytes :=
  if col.count ≤ index then
    .error (.error (.text (name ++ ": index " ++ toString index ++ " out of bounds (len "
      ++ toString col.count ++ ")")))
  else if 2 ^ 64 ≤ index * width then .error (.error (.text overflow))
  else if col.buf.length < index * width + width then short
  else .ok ((col.buf.drop (index * width)).take width)

/-- `PlainColumnData::get`. -/
def PlainColumnData.get (col : PlainColumnData) (width index : Nat) :
    Readout (BitVec (8 * width)) := do
  let bytes ← col.window "PlainColumnData" "PlainColumnData: index byte offset overflow" width index
    (.error (.error (.text "PlainColumnData: buffer shorter than logical length")))
  return BitVec.ofNat (8 * width) (leNat bytes)

/-- `Ipv6ColumnData::get`, which slices the buffer; the bytes are in network order. -/
def PlainColumnData.getIpv6 (col : PlainColumnData) (index : Nat) :
    Readout (BitVec 128) := do
  let bytes ← col.window "Ipv6ColumnData" "IPv6 column offset overflow" 16 index panics
  return BitVec.ofNat 128 (leNat bytes.reverse)

/-- `BoolColumnData::get`. -/
def getBool (col : Bytes) (index : Nat) : Readout Bool :=
  match col[index]? with
  | some b => .ok (b != 0)
  | none => .error (.error (.text "BoolColumnData: index out of bounds"))

/-- `element_range` of an Array or a Map. -/
def elementRange (name : String) (offsets : List Nat) (index : Nat) :
    Readout (Nat × Nat) :=
  let at? (i : Nat) : Readout Nat :=
    match offsets[i]? with
    | some offset => .ok offset
    | none => .error (.error (.text (name ++ ": index out of bounds")))
  do
    let start ← if index = 0 then .ok 0 else at? (index - 1)
    let stop ← at? index
    return (start, stop)

/-- The values at a number of indices from one on, up to the first that fails. -/
def valuesFrom {α : Type} (get : Nat → Readout α) :
    Nat → Nat → Readout (List α)
  | _, 0 => .ok []
  | start, n + 1 => do
    let a ← get start
    let rest ← valuesFrom get (start + 1) n
    return a :: rest

/-- The values of one row of an Array or a Map; `end - start` panics where the offsets
    decrease. -/
def rowValues {α : Type} (name : String) (offsets : List Nat) (get : Nat → Readout α)
    (index : Nat) : Readout (List α) := do
  let range ← elementRange name offsets index
  if range.2 < range.1 then panics
  else valuesFrom get range.1 (range.2 - range.1)

namespace HashMap

variable {κ ν : Type} [DecidableEq κ]

/-- An entry put in, in the place of one with its key. -/
def insertEntry (k : κ) (v : ν) : List (κ × ν) → List (κ × ν)
  | [] => [(k, v)]
  | e :: es => if e.1 = k then (e.1, v) :: es else e :: insertEntry k v es

theorem mem_keys_insertEntry {k x : κ} {v : ν} {es : List (κ × ν)} :
    x ∈ (insertEntry k v es).map Prod.fst → x = k ∨ x ∈ es.map Prod.fst := by
  induction es with
  | nil =>
    intro h
    exact .inl (mem_singleton.mp h)
  | cons e es ih =>
    intro h
    unfold insertEntry at h
    split at h
    · exact .inr h
    rcases mem_cons.mp h with rfl | h
    · exact .inr mem_cons_self
    · exact (ih h).imp_right (mem_cons_of_mem _)

theorem nodup_insertEntry (k : κ) (v : ν) {es : List (κ × ν)} :
    (es.map Prod.fst).Nodup → ((insertEntry k v es).map Prod.fst).Nodup := by
  induction es with
  | nil =>
    intro _
    exact nodup_cons.mpr ⟨not_mem_nil, nodup_nil⟩
  | cons e es ih =>
    intro h
    obtain ⟨hfresh, htail⟩ := nodup_cons.mp h
    unfold insertEntry
    split
    · exact h
    · rename_i hne
      refine nodup_cons.mpr ⟨fun hmem => ?_, ih htail⟩
      rcases mem_keys_insertEntry hmem with heq | hmem
      · exact hne heq
      · exact hfresh hmem

/-- `HashMap::insert`. -/
def insert (m : HashMap κ ν) (k : κ) (v : ν) : HashMap κ ν :=
  ⟨insertEntry k v m.entries, nodup_insertEntry k v m.nodup⟩

/-- A map with these entries put in. -/
def ofEntries (es : List (κ × ν)) : HashMap κ ν :=
  es.foldl (fun m e => m.insert e.1 e.2) ⟨[], nodup_nil⟩

end HashMap

section Generic

variable {α β δ κ ν : Type}

/-- `NullableColumnData::get`. -/
def NullableColumnData.get (get : δ → Nat → Readout α) (col : NullableColumnData δ)
    (index : Nat) : Readout (Option α) :=
  if col.nullMask[index]?.getD 0 ≠ 0 then .ok none
  else do
    let value ← get col.inner index
    return some value

/-- `ArrayColumnData::get`. -/
def ArrayColumnData.get (get : δ → Nat → Readout α) (col : ArrayColumnData δ)
    (index : Nat) : Readout (List α) :=
  rowValues "ArrayColumnData" col.offsets (get col.inner) index

/-- The entry of a Map column at an index. -/
def MapColumnData.entry (getKey : κ → Nat → Readout α)
    (getValue : ν → Nat → Readout β) (col : MapColumnData κ ν) (index : Nat) :
    Readout (α × β) := do
  let k ← getKey col.keys index
  let v ← getValue col.values index
  return (k, v)

/-- `MapColumnData::get`. -/
def MapColumnData.get [DecidableEq α] (getKey : κ → Nat → Readout α)
    (getValue : ν → Nat → Readout β) (col : MapColumnData κ ν) (index : Nat) :
    Readout (HashMap α β) := do
  let entries ← rowValues "MapColumnData" col.offsets (col.entry getKey getValue) index
  return HashMap.ofEntries entries

end Generic

mutual
/-- `Eq` of the values. -/
def Ty.decEq : (t : Ty) → DecidableEq t.Val
  | .plain s => inferInstanceAs (DecidableEq (BitVec (8 * s.width)))
  | .bool => inferInstanceAs (DecidableEq Bool)
  | .ipv6 => inferInstanceAs (DecidableEq (BitVec 128))
  | .string => inferInstanceAs (DecidableEq (List Char))
  | .option t =>
    have := t.decEq
    inferInstanceAs (DecidableEq (Option t.Val))
  | .vec t =>
    have := t.decEq
    inferInstanceAs (DecidableEq (List t.Val))
  | .map key value => fun a b =>
    have := key.decEq
    have := value.decEq
    decidable_of_iff (HashMap.entries a = HashMap.entries b)
      ⟨fun h => by cases a; cases b; cases h; rfl, fun h => by rw [h]⟩
  | .tuple ts => ts.decEqs
def Tys.decEqs : (ts : Tys) → DecidableEq ts.Vals
  | .nil => inferInstanceAs (DecidableEq Unit)
  | .cons t ts =>
    have := t.decEq
    have := ts.decEqs
    inferInstanceAs (DecidableEq (t.Val × ts.Vals))
end

instance (t : Ty) : DecidableEq t.Val := t.decEq

mutual
/-- `ClickHouseColumnData::get`. -/
def Ty.get : (t : Ty) → t.Data → Nat → Readout t.Val
  | .plain s, col, index => PlainColumnData.get col s.width index
  | .ipv6, col, index => PlainColumnData.getIpv6 col index
  | .bool, col, index => getBool col index
  | .string, col, index => StringColumnData.getString col index
  | .option t, col, index => NullableColumnData.get t.get col index
  | .vec t, col, index => ArrayColumnData.get t.get col index
  | .map key value, col, index => MapColumnData.get key.get value.get col index
  | .tuple ts, col, index => ts.gets (TupleData.columns col) index
def Tys.gets : (ts : Tys) → ts.Datas → Nat → Readout ts.Vals
  | .nil, _, _ => .ok ()
  | .cons t ts, cols, index => do
    let first ← t.get (Prod.fst cols) index
    let rest ← ts.gets (Prod.snd cols) index
    return (first, rest)
end

/-- `ClickHouseColumnData::len`. -/
def Ty.len : (t : Ty) → t.Data → Nat
  | .plain _, col | .ipv6, col => PlainColumnData.count col
  | .bool, col => List.length col
  | .string, col => (StringColumnData.ranges col).length
  | .option _, col => (NullableColumnData.nullMask col).length
  | .vec _, col => (ArrayColumnData.offsets col).length
  | .map _ _, col => (MapColumnData.offsets col).length
  | .tuple _, col => TupleData.rows col

end Column

end StClickHouse
