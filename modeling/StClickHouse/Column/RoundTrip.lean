/-
  StClickHouse.Column.RoundTrip
  **TYPED COLUMNS READ BACK.**

  `write_column` writes the elements of `Option`, `Vec`, `HashMap` and tuples with
  `write_to`, one row after the other, which is the column format only for the types that
  are not generic.  A nullable or a tuple inside another type is written in a format that
  `read_column` does not read, and a tuple of more than four elements is not written at all.

      roundTrips_iff        — the types whose columns are read back
      nested_option_misread — `Vec<Option<u8>>`
-/
import StClickHouse.Column.Typed

namespace StClickHouse

open ByteReader RustText ReadColumnContext List

namespace Column

/-! ## §1. What is to be shown. -/

/-- What `write_column` has written is read back: every byte is taken, the column has as
    many rows, and each of them its value. -/
def RoundTrips (t : Ty) (values : List t.Val) : Prop :=
  ∀ bytes, t.writeColumn values = .ok bytes → bytes.length ≤ maxMemory →
    ∃ col, t.readColumn ⟨values.length, 0, bytes⟩
        = (.ok col, ⟨values.length, bytes.length, bytes⟩) ∧
      t.len col = values.length ∧ ∀ i v, values[i]? = some v → t.get col i = .ok v

/-- The types that are not generic: `write_to` writes one row of the column. -/
def Ty.isSimple : Ty → Bool
  | .plain _ | .bool | .ipv6 | .string => true
  | _ => false

/-- The types whose `write_to` is not supported. -/
def Ty.refuses : Ty → Bool
  | .vec _ | .map _ _ => true
  | _ => false

def Tys.allSimple : Tys → Bool
  | .nil => true
  | .cons t ts => t.isSimple && ts.allSimple

def Tys.anyRefuses : Tys → Bool
  | .nil => false
  | .cons t ts => t.refuses || ts.anyRefuses

/-- The types whose columns are read back: what they have inside is not generic, or it is
    never written because `write_to` fails. -/
def Ty.Columnar : Ty → Bool
  | .plain _ | .bool | .ipv6 | .string => true
  | .option t | .vec t => t.isSimple || t.refuses
  | .map key value => key.refuses || value.refuses || (key.isSimple && value.isSimple)
  | .tuple ts => ts.length ≤ 4 && (ts.anyRefuses || ts.allSimple)

/-- Bytes that are read as a column of these values, wherever they are in a buffer. -/
def Serves {α δ : Type} (read : Decoder δ) (len : δ → Nat) (get : δ → Nat → Readout α)
    (values : List α) (bytes : Bytes) : Prop :=
  ∀ (ctx : ReadColumnContext) (b : Bytes), ctx.Holds (bytes ++ b) →
    ctx.rows = values.length →
    ∃ col, read ctx = (.ok col, ctx.advance bytes.length) ∧ len col = values.length ∧
      ∀ i v, values[i]? = some v → get col i = .ok v

/-- The same of the columns of a type. -/
def ReadsBack (t : Ty) (values : List t.Val) (bytes : Bytes) : Prop :=
  Serves t.readColumn t.len t.get values bytes

/-! ## §2. Types of fixed width. -/

section Fixed

variable {α : Type} {write : α → Bytes} {width : Nat}

theorem length_fixed (hwrite : ∀ a, (write a).length = width) (values : List α) :
    (values.flatMap write).length = values.length * width := by
  simp [length_flatMap, hwrite]

theorem window_fixed (hwrite : ∀ a, (write a).length = width) : ∀ {values : List α} {i : Nat} {v : α},
    values[i]? = some v → ((values.flatMap write).drop (i * width)).take width = write v := by
  intro values
  induction values with
  | nil =>
    nofun
  | cons a values ih =>
    intro i v h
    rw [flatMap_cons]
    rcases i with _ | i
    · cases h
      rw [zero_mul, drop_zero, ← hwrite a, take_left]
    rw [Nat.succ_mul, add_comm, ← drop_drop, ← hwrite a, drop_left, hwrite a]
    exact ih h

theorem window_length (hwrite : ∀ a, (write a).length = width) {values : List α} {i : Nat} {v : α}
    (h : values[i]? = some v) : i * width + width ≤ (values.flatMap write).length := by
  obtain ⟨hi, _⟩ := List.getElem?_eq_some_iff.mp h
  rw [length_fixed hwrite, ← Nat.succ_mul]
  exact Nat.mul_le_mul_right width hi

theorem writeEach_ok {put : α → Result Bytes} (hput : ∀ a, put a = .ok (write a)) :
    ∀ values, writeEach put values = .ok (values.flatMap write) := by
  intro values
  induction values with
  | nil => rfl
  | cons a values ih =>
    unfold writeEach
    rw [hput a, ih]
    rfl

end Fixed

variable {bytes : Bytes} {ctx ctx' : ReadColumnContext} {t : Ty} {width : Nat} {α : Type}
    {key value : Ty} {ns : List Nat}

theorem getRows_apply (ctx : ReadColumnContext) : getRows ctx = (.ok ctx.rows, ctx) := rfl

variable (overflow : String)

theorem readPlain_at {ctx : ReadColumnContext} {a b : Bytes} (h : ctx.Holds (a ++ b))
    (hlen : a.length = ctx.rows * width) :
    readPlain overflow width ctx = (.ok ⟨a, ctx.rows⟩, ctx.advance a.length) := by
  unfold readPlain
  rw [bind_ok (getRows_apply ctx), bind_ok (readRows_at overflow h hlen)]
  rfl

/-- Values of fixed width are read back where each is found in its place. -/
theorem fixed_readsBack (t : Ty) (write : t.Val → Bytes)
    (hwrite : ∀ v, (write v).length = width) (hput : ∀ v, t.writeTo v = .ok (write v))
    (hread : ∀ (ctx : ReadColumnContext) (a b : Bytes), ctx.Holds (a ++ b) →
      a.length = ctx.rows * width →
      ∃ col, t.readColumn ctx = (.ok col, ctx.advance a.length) ∧ t.len col = ctx.rows ∧
        ∀ i v, i < ctx.rows → i * width + width ≤ a.length →
          (a.drop (i * width)).take width = write v → t.get col i = .ok v)
    {values : List t.Val} (hw : writeEach t.writeTo values = .ok bytes) :
    ReadsBack t values bytes := by
  rw [writeEach_ok hput] at hw
  cases hw
  intro ctx b h hrows
  obtain ⟨col, hcol, hlen, hget⟩ := hread ctx _ b h (by rw [length_fixed hwrite, hrows])
  refine ⟨col, hcol, hlen.trans hrows, fun i v hv => ?_⟩
  obtain ⟨hi, _⟩ := List.getElem?_eq_some_iff.mp hv
  exact hget i v (by rw [hrows]; exact hi) (window_length hwrite hv) (window_fixed hwrite hv)

theorem window_at {buf : Bytes} {count width i : Nat} (hi : i < count)
    (hlen : i * width + width ≤ buf.length) (hfits : buf.length ≤ 2 ^ 57)
    (name overflow : String) (short : Readout Bytes) :
    (PlainColumnData.mk buf count).window name overflow width i short
      = .ok ((buf.drop (i * width)).take width) := by
  unfold PlainColumnData.window
  dsimp only
  rw [if_neg (by omega), if_neg (by omega), if_neg (by omega)]

theorem holds_fits {ctx : ReadColumnContext} {a b : Bytes} (h : ctx.Holds (a ++ b)) :
    a.length ≤ 2 ^ 57 := by
  have hle := h.length_le
  rw [length_append] at hle
  omega

variable (s : Plain)

theorem bitVec_readsBack (v : BitVec (8 * s.width)) :
    BitVec.ofNat (8 * s.width) (leNat (leBytes s.width v.toNat)) = v := by
  have hlt : v.toNat < 256 ^ s.width := by
    have := v.isLt
    rwa [pow_mul] at this
  rw [leNat_leBytes hlt, BitVec.ofNat_toNat, BitVec.setWidth_eq]

theorem plain_readsBack {values : List (Ty.plain s).Val}
    (hw : writeEach (Ty.plain s).writeTo values = .ok bytes) :
    ReadsBack (.plain s) values bytes := by
  refine fixed_readsBack (.plain s) (fun v => leBytes s.width (BitVec.toNat v))
    (fun v => leBytes_length s.width _) (fun _ => rfl)
    (fun ctx a b h hlen => ⟨(⟨a, ctx.rows⟩ : PlainColumnData), readPlain_at _ h hlen, rfl,
      fun i v hi hin hv => ?_⟩) hw
  show PlainColumnData.get ⟨a, ctx.rows⟩ s.width i = _
  unfold PlainColumnData.get
  rw [window_at hi hin (holds_fits h), hv]
  exact congrArg Except.ok (bitVec_readsBack s v)

theorem ipv6_readsBack {values : List Ty.ipv6.Val}
    (hw : writeEach Ty.ipv6.writeTo values = .ok bytes) : ReadsBack .ipv6 values bytes := by
  refine fixed_readsBack .ipv6 (fun v => (leBytes 16 (BitVec.toNat v)).reverse)
    (fun v => (length_reverse).trans (leBytes_length 16 _)) (fun _ => rfl)
    (fun ctx a b h hlen => ⟨(⟨a, ctx.rows⟩ : PlainColumnData), readPlain_at _ h hlen, rfl,
      fun i v hi hin hv => ?_⟩) hw
  show PlainColumnData.getIpv6 ⟨a, ctx.rows⟩ i = _
  unfold PlainColumnData.getIpv6
  rw [window_at hi hin (holds_fits h), hv]
  refine congrArg Except.ok ?_
  exact bitVec_readsBack .u128 v

/-- The byte of a `bool`. -/
def boolByte (b : Bool) : Bytes := if b then [1] else [0]

theorem bool_readsBack {values : List Ty.bool.Val}
    (hw : writeEach Ty.bool.writeTo values = .ok bytes) : ReadsBack .bool values bytes := by
  have hwidth : ∀ v, (boolByte v).length = 1 := fun v => by cases v <;> rfl
  refine fixed_readsBack .bool boolByte hwidth (fun v => by cases v <;> rfl)
    (fun ctx a b h hlen => ⟨a, ?_, ?_, fun i v hi hin hv => ?_⟩) hw
  · show readBool ctx = _
    unfold readBool
    rw [bind_ok (getRows_apply ctx), show ctx.rows = a.length by omega]
    exact readExact_at h
  · show a.length = ctx.rows
    omega
  show getBool a i = .ok v
  have hi : i < a.length := by omega
  rw [mul_one, drop_eq_getElem_cons hi, take_succ_cons, take_zero] at hv
  unfold getBool
  rw [List.getElem?_eq_getElem hi]
  rcases v with _ | _
  · obtain h0 : a[i] = 0 := (List.cons.inj hv).1
    rw [h0]
    rfl
  obtain h1 : a[i] = 1 := (List.cons.inj hv).1
  rw [h1]
  rfl

/-! ## §3. What `write_to` writes. -/

theorem simple_readsBack (ht : t.isSimple = true) {values : List t.Val} (hw : writeEach t.writeTo values = .ok bytes) :
    ReadsBack t values bytes := by
  cases t with
  | plain s => exact plain_readsBack s hw
  | bool => exact bool_readsBack hw
  | ipv6 => exact ipv6_readsBack hw
  | string =>
    have hall : writeEach Ty.string.writeTo values
        = .ok (values.flatMap fun s : Text => writeString s) :=
      writeEach_ok (fun _ => rfl) values
    rw [hall] at hw
    cases hw
    intro ctx b h hrows
    exact stringColumn_reads h hrows
  | option _ | vec _ | map _ _ | tuple _ => cases ht

theorem refuses_nil (ht : t.refuses = true) {values : List t.Val}
    (hw : writeEach t.writeTo values = .ok bytes) : values = [] := by
  rcases values with _ | ⟨v, values⟩
  · rfl
  obtain ⟨first, hfirst, _⟩ := bind_eq_ok hw
  cases t with
  | vec _ | map _ _ => cases hfirst
  | plain _ | bool | ipv6 | string | option _ | tuple _ => cases ht

/-! ## §4. Nullable columns. -/

theorem length_nullMask (values : List (Option α)) :
    (nullMask values).length = values.length := length_map _

theorem nullable_serves {α δ : Type} {read : Decoder δ} {len : δ → Nat}
    {get : δ → Nat → Readout α} {default : α} {values : List (Option α)}
    (hinner : Serves read len get (values.map fun value => value.getD default) bytes) :
    Serves (readNullable read) (fun col => col.nullMask.length) (NullableColumnData.get get) values
      (nullMask values ++ bytes) := by
  intro ctx b h hrows
  rw [append_assoc] at h
  have hmask := readExact_at h
  rw [length_nullMask, ← hrows] at hmask
  obtain ⟨inner, hcol, _, hget⟩ := hinner _ b h.advance (hrows.trans (length_map _).symm)
  refine ⟨⟨nullMask values, inner⟩, ?_, length_nullMask values, fun i v hv => ?_⟩
  · unfold readNullable
    rw [length_nullMask, ← hrows] at hcol
    rw [bind_ok (getRows_apply ctx), bind_ok hmask, bind_ok hcol, advance_advance,
      length_append, length_nullMask, hrows]
    rfl
  have hbyte : (nullMask values)[i]?.getD 0 = if v.isNone then 1 else 0 := by
    unfold nullMask
    rw [List.getElem?_map, hv]
    rfl
  unfold NullableColumnData.get
  rw [hbyte]
  rcases v with _ | v
  · rfl
  have hinner := hget i v (by rw [List.getElem?_map, hv]; rfl)
  rw [hinner]
  rfl

/-! ## §5. Arrays and maps. -/

theorem length_cumulative (total : Nat) (ns : List Nat) : (cumulative total ns).length = ns.length := by
  induction ns generalizing total with
  | nil => rfl
  | cons n ns ih => exact congrArg Nat.succ (ih (total + n))

theorem cumulative_get {i : Nat} (hi : i < ns.length) (total : Nat) :
    (cumulative total ns)[i]? = some (total + (ns.take (i + 1)).sum) := by
  induction ns generalizing total i with
  | nil => exact absurd hi (Nat.not_lt_zero i)
  | cons n ns ih =>
    rcases i with _ | i
    · show some (total + n) = _
      rw [take_succ_cons, take_zero, sum_cons, sum_nil, add_zero]
    show (cumulative (total + n) ns)[i]? = _
    rw [ih (Nat.lt_of_succ_lt_succ hi), take_succ_cons, sum_cons, add_assoc]

theorem cumulative_le {total offset : Nat} (h : offset ∈ cumulative total ns) :
    offset ≤ total + ns.sum := by
  induction ns generalizing total with
  | nil => cases h
  | cons n ns ih =>
    rw [sum_cons]
    rcases mem_cons.mp h with rfl | h
    · omega
    · have := ih h
      omega

theorem readOffsetsTotal_at {ctx : ReadColumnContext} {b : Bytes}
    (h : ctx.Holds (offsetBytes ns ++ b)) (hrows : ctx.rows = ns.length) (hne : ns ≠ [])
    (hsum : ns.sum < 2 ^ 64) :
    readOffsetsTotal ctx.rows ctx
      = (.ok (cumulative 0 ns, ns.sum), ctx.advance (offsetBytes ns).length) := by
  have hoffsets := readOffsets_at h (by rw [length_cumulative, hrows]) (fun offset hmem => by
    have := cumulative_le hmem
    omega)
  have hpos : 0 < ns.length := length_pos_of_ne_nil hne
  have hlast : (cumulative 0 ns)[ctx.rows - 1]? = some ns.sum := by
    rw [cumulative_get (by omega), zero_add, hrows, Nat.sub_add_cancel hpos,
      take_of_length_le le_rfl]
  have htotal : ∀ c : ReadColumnContext,
      ofResult (indexed (cumulative 0 ns) (ctx.rows - 1)) c = (.ok ns.sum, c) := by
    intro c
    unfold ofResult indexed
    rw [hlast]
  unfold readOffsetsTotal
  rw [bind_ok hoffsets, bind_ok (htotal _)]
  rfl

theorem valuesFrom_ok {get : Nat → Readout α} (row : List α) (start : Nat) :
    (∀ i v, row[i]? = some v → get (start + i) = .ok v) → valuesFrom get start row.length = .ok row := by
  induction row generalizing start with
  | nil =>
    intro _
    rfl
  | cons v row ih =>
    intro h
    have hfirst : get start = .ok v := h 0 v rfl
    have hrest := ih (start + 1) fun i w hw => by
      have := h (i + 1) w hw
      rwa [show start + 1 + i = start + (i + 1) by omega]
    rw [length_cons, valuesFrom, hfirst, hrest]
    rfl

variable {rows : List (List α)}

theorem getElem?_flatten_row {i j : Nat} {row : List α} {v : α} (h : rows[i]? = some row)
    (hv : row[j]? = some v) :
    rows.flatten[((rows.map List.length).take i).sum + j]? = some v := by
  obtain ⟨hi, hrow⟩ := List.getElem?_eq_some_iff.mp h
  obtain ⟨hj, _⟩ := List.getElem?_eq_some_iff.mp hv
  rw [← List.getElem?_drop, drop_sum_flatten, drop_eq_getElem_cons hi, hrow,
    flatten_cons, List.getElem?_append_left hj]
  exact hv

theorem rowValues_ok (name : String) {get : Nat → Readout α}
    (hget : ∀ i v, rows.flatten[i]? = some v → get i = .ok v) {i : Nat} {row : List α}
    (hrow : rows[i]? = some row) :
    rowValues name (cumulative 0 (rows.map List.length)) get i = .ok row := by
  obtain ⟨hi, hat⟩ := List.getElem?_eq_some_iff.mp hrow
  have hlen : i < (rows.map List.length).length := by rw [length_map]; exact hi
  have hstop : ((rows.map List.length).take (i + 1)).sum
      = ((rows.map List.length).take i).sum + row.length := by
    rw [take_add_one, List.getElem?_map, hrow, sum_append]
    rfl
  have hrange : elementRange name (cumulative 0 (rows.map List.length)) i
      = .ok (((rows.map List.length).take i).sum,
        ((rows.map List.length).take i).sum + row.length) := by
    unfold elementRange
    dsimp only
    rw [cumulative_get hlen, zero_add, hstop]
    rcases i with _ | i
    · rfl
    rw [if_neg (Nat.succ_ne_zero i), Nat.add_sub_cancel, cumulative_get (by omega),
      zero_add]
    rfl
  unfold rowValues
  rw [hrange]
  show (if _ < _ then _ else _) = _
  rw [if_neg (by omega)]
  rw [Nat.add_sub_cancel_left]
  exact valuesFrom_ok row _ fun j v hv => hget _ v (getElem?_flatten_row hrow hv)

/-- The offsets of the rows of an array or a map. -/
theorem rowOffsets_at {ctx : ReadColumnContext} {rest : Bytes}
    (h : ctx.Holds (offsetBytes (rows.map List.length) ++ rest)) (hrows : ctx.rows = rows.length)
    (hzero : ctx.rows ≠ 0) (hsize : rows.flatten.length ≤ rest.length) :
    readOffsetsTotal ctx.rows ctx = (.ok (cumulative 0 (rows.map List.length), rows.flatten.length),
      ctx.advance (offsetBytes (rows.map List.length)).length) := by
  have hfits := h.length_le
  rw [length_append] at hfits
  rw [length_flatten] at hsize ⊢
  refine readOffsetsTotal_at h (by rw [length_map, hrows]) ?_ (by omega)
  exact fun hnil => hzero (by rw [hrows, map_eq_nil_iff.mp hnil]; rfl)

theorem withRows_at {δ : Type} {read : Decoder δ} {ctx : ReadColumnContext} {rows n : Nat} {col : δ}
    (h : read { ctx with rows := rows } = (.ok col, advance { ctx with rows := rows } n)) :
    withRows rows read ctx = (.ok col, ctx.advance n) := by
  unfold withRows
  rw [h]
  rfl

theorem array_serves {α δ : Type} {read : Decoder δ} {len : δ → Nat}
    {get : δ → Nat → Readout α} {rows : List (List α)}
    (hinner : Serves read len get rows.flatten bytes) (hsize : rows.flatten.length ≤ bytes.length) :
    Serves (readArray read) (fun col => col.offsets.length) (ArrayColumnData.get get) rows
      (offsetBytes (rows.map List.length) ++ bytes) := by
  intro ctx b h hrows
  rw [append_assoc] at h
  unfold readArray
  rw [bind_ok (getRows_apply ctx)]
  by_cases hzero : ctx.rows = 0
  · obtain rfl : rows = [] := length_eq_zero_iff.mp (by omega)
    obtain ⟨inner, hcol, _, _⟩ := hinner ctx b h hrows
    rw [if_pos hzero, bind_ok hcol]
    exact ⟨⟨[], inner⟩, rfl, rfl, nofun⟩
  have hoffsets := rowOffsets_at h hrows hzero (by rw [length_append]; omega)
  obtain ⟨inner, hcol, _, hget⟩ := hinner _ b (h.advance.rows rows.flatten.length) rfl
  rw [if_neg hzero, bind_ok hoffsets, bind_ok (withRows_at hcol), advance_advance,
    ← length_append]
  refine ⟨⟨_, inner⟩, rfl, ?_, fun i row hrow => rowValues_ok _ hget hrow⟩
  show (cumulative 0 (rows.map List.length)).length = rows.length
  rw [length_cumulative, length_map]

namespace HashMap

variable {κ ν : Type} [DecidableEq κ]

theorem insertEntry_fresh {k : κ} {v : ν} : ∀ {es : List (κ × ν)}, k ∉ es.map Prod.fst →
    insertEntry k v es = es ++ [(k, v)] := by
  intro es
  induction es with
  | nil => exact fun _ => rfl
  | cons e es ih =>
    intro hfresh
    rw [map_cons, mem_cons, not_or] at hfresh
    unfold insertEntry
    rw [if_neg (fun h => hfresh.1 h.symm), ih hfresh.2]
    rfl

theorem foldl_insert_entries (es : List (κ × ν)) (m : HashMap κ ν) :
    ((m.entries ++ es).map Prod.fst).Nodup →
    (es.foldl (fun m e => m.insert e.1 e.2) m).entries = m.entries ++ es := by
  induction es generalizing m with
  | nil =>
    intro _
    exact (append_nil _).symm
  | cons e es ih =>
    intro hnodup
    have hfresh : e.1 ∉ m.entries.map Prod.fst := by
      rw [map_append, map_cons] at hnodup
      intro hmem
      exact (nodup_append.mp hnodup).2.2 _ hmem _ mem_cons_self rfl
    have hinsert : (m.insert e.1 e.2).entries = m.entries ++ [e] := insertEntry_fresh hfresh
    rw [foldl_cons, ih _ (by rw [hinsert, append_assoc]; exact hnodup), hinsert,
      append_assoc]
    rfl

theorem ofEntries_entries (m : HashMap κ ν) : ofEntries m.entries = m :=
  HashMap.ext (foldl_insert_entries m.entries ⟨[], nodup_nil⟩ m.nodup)

end HashMap

theorem map_serves {α β κ ν : Type} [DecidableEq α] {readKey : Decoder κ} {readValue : Decoder ν}
    {lenKey : κ → Nat} {lenValue : ν → Nat} {getKey : κ → Nat → Readout α}
    {getValue : ν → Nat → Readout β} {rows : List (HashMap α β)}
    {keys values : Bytes}
    (hkeys : Serves readKey lenKey getKey ((rows.map HashMap.entries).flatten.map Prod.fst) keys)
    (hvalues : Serves readValue lenValue getValue ((rows.map HashMap.entries).flatten.map Prod.snd)
      values) (hsize : (rows.map HashMap.entries).flatten.length ≤ keys.length) :
    Serves (readMap readKey readValue) (fun col => col.offsets.length)
      (MapColumnData.get getKey getValue) rows
      (offsetBytes (rows.map fun m => m.entries.length) ++ keys ++ values) := by
  intro ctx b h hrows
  rw [append_assoc, append_assoc] at h
  unfold readMap
  rw [bind_ok (getRows_apply ctx)]
  by_cases hzero : ctx.rows = 0
  · obtain rfl : rows = [] := length_eq_zero_iff.mp (by omega)
    have h : ctx.Holds (keys ++ (values ++ b)) := h
    obtain ⟨ks, hks, _, _⟩ := hkeys ctx (values ++ b) h hrows
    obtain ⟨vs, hvs, _, _⟩ := hvalues _ b h.advance hrows
    rw [if_pos hzero, bind_ok hks, bind_ok hvs, advance_advance, ← length_append]
    exact ⟨⟨[], ks, vs⟩, rfl, rfl, nofun⟩
  have hlengths : (rows.map fun m => m.entries.length)
      = (rows.map HashMap.entries).map List.length := (map_map).symm
  rw [hlengths] at h ⊢
  have hoffsets := rowOffsets_at h (hrows.trans (length_map _).symm) hzero
    (by rw [length_append]; omega)
  obtain ⟨ks, hks, _, hgetKey⟩ := hkeys _ (values ++ b)
    (h.advance.rows (rows.map HashMap.entries).flatten.length) (length_map _).symm
  obtain ⟨vs, hvs, _, hgetValue⟩ := hvalues _ b
    (h.advance.advance.rows (rows.map HashMap.entries).flatten.length) (length_map _).symm
  rw [if_neg hzero, bind_ok hoffsets, bind_ok (withRows_at hks), bind_ok (withRows_at hvs),
    advance_advance, advance_advance]
  refine ⟨⟨cumulative 0 ((rows.map HashMap.entries).map List.length), ks, vs⟩, ?_, ?_,
    fun i m hm => ?_⟩
  · rw [length_append, length_append, add_assoc]
    rfl
  · show (cumulative 0 ((rows.map HashMap.entries).map List.length)).length = rows.length
    rw [length_cumulative, length_map, length_map]
  have hentry : ∀ j e, (rows.map HashMap.entries).flatten[j]? = some e →
      (MapColumnData.mk (cumulative 0 ((rows.map HashMap.entries).map List.length)) ks vs).entry
        getKey getValue j = .ok e := by
    intro j e he
    unfold MapColumnData.entry
    rw [hgetKey j e.1 (by rw [List.getElem?_map, he]; rfl)]
    rw [hgetValue j e.2 (by rw [List.getElem?_map, he]; rfl)]
    rfl
  unfold MapColumnData.get
  rw [rowValues_ok "MapColumnData" hentry (by rw [List.getElem?_map, hm]; rfl)]
  exact congrArg Except.ok (HashMap.ofEntries_entries m)

/-! ## §6. Tuples. -/

theorem pair_serves {α β δ δ' : Type} {read : Decoder δ} {read' : Decoder δ'} {len : δ → Nat}
    {len' : δ' → Nat} {get : δ → Nat → Readout α} {get' : δ' → Nat → Readout β}
    {rows : List (α × β)} {bytes bytes' : Bytes}
    (hfirst : Serves read len get (rows.map Prod.fst) bytes)
    (hrest : Serves read' len' get' (rows.map Prod.snd) bytes') :
    Serves (do
        let column ← read
        let columns ← read'
        return (column, columns)) (fun _ => rows.length)
      (fun cols i => do
        let first ← get cols.1 i
        let rest ← get' cols.2 i
        return (first, rest)) rows (bytes ++ bytes') := by
  intro ctx b h hrows
  rw [append_assoc] at h
  obtain ⟨col, hcol, _, hget⟩ := hfirst _ _ h (hrows.trans (length_map _).symm)
  obtain ⟨cols, hcols, _, hget'⟩ := hrest _ b h.advance (hrows.trans (length_map _).symm)
  rw [bind_ok hcol, bind_ok hcols, advance_advance, ← length_append]
  refine ⟨(col, cols), rfl, rfl, fun i v hv => ?_⟩
  dsimp only
  rw [hget i v.1 (by rw [List.getElem?_map, hv]; rfl)]
  rw [hget' i v.2 (by rw [List.getElem?_map, hv]; rfl)]
  rfl

theorem tuple_serves {α δ : Type} {read : Decoder δ} {len : δ → Nat}
    {get : δ → Nat → Readout α} {rows : List α} (h : Serves read len get rows bytes) :
    Serves (readTuple read) TupleData.rows (fun col => get col.columns) rows bytes := by
  intro ctx b hctx hrows
  obtain ⟨cols, hcols, _, hget⟩ := h ctx b hctx hrows
  unfold readTuple
  rw [bind_ok (getRows_apply ctx), bind_ok hcols]
  exact ⟨⟨cols, ctx.rows⟩, rfl, hrows, hget⟩

theorem columns_serve : ∀ (ts : Tys), ts.allSimple = true → ∀ {rows : List ts.Vals}
    {bytes : Bytes}, ts.writeColumns rows = .ok bytes →
    Serves ts.readColumns (fun _ => rows.length) ts.gets rows bytes
  | .nil, _, rows, bytes, hw => by
    cases hw
    intro ctx b h hrows
    exact ⟨(), rfl, rfl, fun i v hv => rfl⟩
  | .cons t ts, hts, rows, bytes, hw => by
    unfold Tys.allSimple at hts
    rw [Bool.and_eq_true] at hts
    obtain ⟨first, hfirst, hw⟩ := bind_eq_ok hw
    obtain ⟨rest, hrest, hw⟩ := bind_eq_ok hw
    cases hw
    exact pair_serves (simple_readsBack hts.1 hfirst) (columns_serve ts hts.2 hrest)

/-- Where the `write_to` of an element fails, only no rows are written. -/
theorem anyRefuses_nil : ∀ (ts : Tys), ts.anyRefuses = true → ∀ {rows : List ts.Vals}
    {bytes : Bytes}, ts.writeColumns rows = .ok bytes → rows = []
  | .cons t ts, hts, rows, bytes, hw => by
    obtain ⟨first, hfirst, hw⟩ := bind_eq_ok hw
    obtain ⟨rest, hrest, hw⟩ := bind_eq_ok hw
    rcases Bool.or_eq_true _ _ ▸ hts with hfst | hsnd
    · exact map_eq_nil_iff.mp (refuses_nil hfst hfirst)
    · exact map_eq_nil_iff.mp (anyRefuses_nil ts hsnd hrest)

theorem writeColumns_nil : ∀ (ts : Tys) {bytes : Bytes}, ts.writeColumns [] = .ok bytes →
    bytes = []
  | .nil, bytes, hw => by
    cases hw
    rfl
  | .cons t ts, bytes, hw => by
    obtain ⟨first, hfirst, hw⟩ := bind_eq_ok hw
    obtain ⟨rest, hrest, hw⟩ := bind_eq_ok hw
    cases hw
    cases hfirst
    exact writeColumns_nil ts hrest

mutual
/-- No rows are read from no bytes. -/
theorem empty_readsBack : ∀ t : Ty, ReadsBack t [] []
  | .plain _ | .bool | .ipv6 | .string => simple_readsBack rfl rfl
  | .option t => @nullable_serves [] _ _ _ _ _ t.default [] (empty_readsBack t)
  | .vec t => @array_serves [] _ _ _ _ _ [] (empty_readsBack t) (Nat.le_refl 0)
  | .map key value =>
    @map_serves _ _ _ _ _ _ _ _ _ _ _ [] [] [] (empty_readsBack key) (empty_readsBack value)
      (Nat.le_refl 0)
  | .tuple ts => tuple_serves (empty_columns ts)
theorem empty_columns : ∀ ts : Tys, Serves ts.readColumns (fun _ => 0) ts.gets [] []
  | .nil => fun _ _ _ _ => ⟨(), rfl, rfl, nofun⟩
  | .cons t ts => @pair_serves _ _ _ _ _ _ _ _ _ _ [] [] [] (empty_readsBack t) (empty_columns ts)
end

/-- Elements that are written with `write_to` are read back if they are not generic, or if
    there are none. -/
theorem elements_readBack (ht : (t.isSimple || t.refuses) = true) {values : List t.Val} (hw : writeEach t.writeTo values = .ok bytes) :
    ReadsBack t values bytes := by
  rcases Bool.or_eq_true _ _ ▸ ht with hsimple | hrefuses
  · exact simple_readsBack hsimple hw
  obtain rfl := refuses_nil hrefuses hw
  cases hw
  exact empty_readsBack t

/-! ## §7. The types that are read back. -/

theorem width_pos : 0 < s.width := by
  cases s <;> decide

theorem simple_writes (ht : t.isSimple = true) (v : t.Val) :
    ∃ bytes, t.writeTo v = .ok bytes ∧ 0 < bytes.length := by
  cases t with
  | plain s => exact ⟨_, rfl, by rw [leBytes_length]; exact width_pos s⟩
  | bool =>
    cases v with
    | true => exact ⟨[1], rfl, by decide⟩
    | false => exact ⟨[0], rfl, by decide⟩
  | ipv6 => exact ⟨_, rfl, by rw [length_reverse, leBytes_length]; decide⟩
  | string =>
    refine ⟨_, rfl, ?_⟩
    unfold writeString writeStringBytes
    have hpos := length_pos_of_ne_nil (encodeVarint_ne_nil (toUtf8 v).length)
    rw [length_append]
    omega
  | option _ | vec _ | map _ _ | tuple _ => cases ht

theorem elements_size (ht : (t.isSimple || t.refuses) = true) {values : List t.Val} (hw : writeEach t.writeTo values = .ok bytes) :
    values.length ≤ bytes.length := by
  rcases Bool.or_eq_true _ _ ▸ ht with hsimple | hrefuses
  · induction values generalizing bytes with
    | nil => exact Nat.zero_le _
    | cons v values ih =>
      obtain ⟨first, hfirst, hw⟩ := bind_eq_ok hw
      obtain ⟨rest, hrest, hw⟩ := bind_eq_ok hw
      cases hw
      obtain ⟨bytes, hbytes, hpos⟩ := simple_writes hsimple v
      rw [hbytes] at hfirst
      cases hfirst
      have := ih hrest
      rw [length_cons, length_append]
      omega
  · rw [refuses_nil hrefuses hw]
    exact Nat.zero_le _

theorem flatMap_entries {α β γ : Type} (rows : List (HashMap α β)) (f : α × β → γ) :
    (rows.flatMap fun m => m.entries.map f) = (rows.map HashMap.entries).flatten.map f := by
  induction rows with
  | nil => rfl
  | cons m rows ih => rw [flatMap_cons, ih, map_cons, flatten_cons, map_append]

/-- The keys and the values of maps are read back if neither is generic, or if there are
    none. -/
theorem entries_readBack (h : (Ty.map key value).Columnar = true)
    {es : List (key.Val × value.Val)} {keys values : Bytes}
    (hkeys : writeEach key.writeTo (es.map Prod.fst) = .ok keys)
    (hvalues : writeEach value.writeTo (es.map Prod.snd) = .ok values) :
    ReadsBack key (es.map Prod.fst) keys ∧ ReadsBack value (es.map Prod.snd) values ∧
      es.length ≤ keys.length := by
  have hnone : es = [] → ReadsBack key (es.map Prod.fst) keys ∧
      ReadsBack value (es.map Prod.snd) values ∧ es.length ≤ keys.length := by
    intro hnil
    subst hnil
    cases hkeys
    cases hvalues
    exact ⟨empty_readsBack key, empty_readsBack value, Nat.le_refl 0⟩
  unfold Ty.Columnar at h
  rw [Bool.or_eq_true, Bool.or_eq_true, Bool.and_eq_true] at h
  rcases h with (hkey | hvalue) | ⟨hkey, hvalue⟩
  · exact hnone (map_eq_nil_iff.mp (refuses_nil hkey hkeys))
  · exact hnone (map_eq_nil_iff.mp (refuses_nil hvalue hvalues))
  have hsize := elements_size (by rw [hkey]; rfl) hkeys
  rw [length_map] at hsize
  exact ⟨simple_readsBack hkey hkeys, simple_readsBack hvalue hvalues, hsize⟩

theorem map_readsBack (h : (Ty.map key value).Columnar = true)
    {rows : List (HashMap key.Val value.Val)}
    (hw : writeMap key.writeTo value.writeTo rows = .ok bytes) :
    ReadsBack (.map key value) rows bytes := by
  obtain ⟨keys, hkeys, hw⟩ := bind_eq_ok hw
  obtain ⟨values, hvalues, hw⟩ := bind_eq_ok hw
  cases hw
  rw [flatMap_entries] at hkeys hvalues
  obtain ⟨hkeysBack, hvaluesBack, hsize⟩ := entries_readBack h hkeys hvalues
  exact map_serves hkeysBack hvaluesBack hsize

/-- **The columns of such a type are read back.** -/
theorem readsBack_of_columnar (ht : t.Columnar = true) {values : List t.Val} (hw : t.writeColumn values = .ok bytes) : ReadsBack t values bytes := by
  cases t with
  | plain s | bool | ipv6 | string => exact simple_readsBack rfl hw
  | option t =>
    obtain ⟨inner, hinner, hw⟩ := bind_eq_ok hw
    cases hw
    exact nullable_serves (elements_readBack ht hinner)
  | vec t =>
    obtain ⟨elems, helems, hw⟩ := bind_eq_ok hw
    cases hw
    exact array_serves (elements_readBack ht helems) (elements_size ht helems)
  | map key value => exact map_readsBack ht hw
  | tuple ts =>
    unfold Ty.Columnar at ht
    rw [Bool.and_eq_true, decide_eq_true_eq] at ht
    have hw : (if ts.length ≤ 4 then ts.writeColumns values else .ok []) = .ok bytes := hw
    rw [if_pos ht.1] at hw
    rcases Bool.or_eq_true _ _ ▸ ht.2 with hrefuses | hsimple
    · obtain rfl := anyRefuses_nil ts hrefuses hw
      rw [writeColumns_nil ts hw]
      exact empty_readsBack (.tuple ts)
    · exact tuple_serves (columns_serve ts hsimple hw)

theorem roundTrips_of_columnar (ht : t.Columnar = true) (values : List t.Val) :
    RoundTrips t values := by
  intro bytes hw hfits
  have hholds : Holds ⟨values.length, 0, bytes⟩ (bytes ++ []) :=
    ⟨Nat.zero_le _, by rw [append_nil]; rfl, hfits⟩
  obtain ⟨col, hcol, hlen, hget⟩ := readsBack_of_columnar ht hw _ [] hholds rfl
  refine ⟨col, hcol.trans ?_, hlen, hget⟩
  unfold advance
  rw [zero_add]

/-! ## §8. How many bytes a column takes at least. -/

mutual
/-- The bytes one row of a column takes at least. -/
def Ty.need : Ty → Nat
  | .plain s => s.width
  | .ipv6 => 16
  | .bool | .string => 1
  | .option t => 1 + t.need
  | .vec _ | .map _ _ => 8
  | .tuple ts => ts.needs
def Tys.needs : Tys → Nat
  | .nil => 0
  | .cons t ts => t.need + ts.needs
end

/-- A decoder has gone on by some bytes at least, inside the buffer. -/
structure Moves (n : Nat) (ctx ctx' : ReadColumnContext) : Prop where
  buf : ctx'.buf = ctx.buf
  rows : ctx'.rows = ctx.rows
  inside : ctx'.pos ≤ ctx'.buf.length
  by_at_least : ctx.pos + n ≤ ctx'.pos

namespace Moves

variable {m n : Nat} {ctx ctx' ctx'' : ReadColumnContext}

theorem refl (h : ctx.pos ≤ ctx.buf.length) : Moves 0 ctx ctx := ⟨rfl, rfl, h, le_rfl⟩

theorem trans (h : Moves m ctx ctx') (h' : Moves n ctx' ctx'') : Moves (m + n) ctx ctx'' where
  buf := h'.buf.trans h.buf
  rows := h'.rows.trans h.rows
  inside := h'.inside
  by_at_least := by
    have := h.by_at_least
    have := h'.by_at_least
    omega

theorem mono (h : Moves m ctx ctx') (hle : n ≤ m) : Moves n ctx ctx' :=
  ⟨h.buf, h.rows, h.inside, le_trans (Nat.add_le_add_left hle _) h.by_at_least⟩

end Moves

/-- A decoder of so many rows takes at least so many bytes. -/
def AtLeast {δ : Type} (rows n : Nat) (x : Decoder δ) : Prop :=
  ∀ ⦃ctx ctx' : ReadColumnContext⦄ ⦃a : δ⦄, ctx.rows = rows → ctx.pos ≤ ctx.buf.length →
    x ctx = (.ok a, ctx') → Moves n ctx ctx'

namespace AtLeast

variable {δ ι : Type} {rows m n : Nat} {x : Decoder δ}

theorem mono (h : AtLeast rows m x) (hle : n ≤ m) : AtLeast rows n x :=
  fun _ _ _ hrows hin hx => (h hrows hin hx).mono hle

theorem pure (a : δ) : AtLeast rows 0 (pure a : Decoder δ) := by
  intro ctx ctx' a hrows hin h
  cases h
  exact .refl hin

theorem bind {f : δ → Decoder ι} (hx : AtLeast rows m x) (hf : ∀ a, AtLeast rows n (f a)) :
    AtLeast rows (m + n) (x >>= f) := by
  intro ctx ctx' a hrows hin h
  obtain ⟨b, s, hb, h⟩ := bind_eq_ok_iff.mp h
  have hfirst := hx hrows hin hb
  exact hfirst.trans (hf b (hfirst.rows.trans hrows) hfirst.inside h)

theorem map {f : δ → ι} (h : AtLeast rows n x) : AtLeast rows n (x >>= fun a => Pure.pure (f a)) :=
  h.bind fun _ => pure _

theorem bind_any {f : δ → Decoder ι} (hx : AtLeast rows m x)
    (hf : ∀ a, ∃ n, AtLeast rows n (f a)) : AtLeast rows m (x >>= f) := by
  refine hx.bind (n := 0) fun a => ?_
  obtain ⟨n, h⟩ := hf a
  exact h.mono (Nat.zero_le n)

theorem ite {p : Prop} [Decidable p] {y : Decoder δ} (hx : p → AtLeast rows n x)
    (hy : ¬ p → AtLeast rows n y) : AtLeast rows n (if p then x else y) := by
  split
  · next hp => exact hx hp
  · next hp => exact hy hp

theorem getRows {f : Nat → Decoder ι} (hf : AtLeast rows n (f rows)) :
    AtLeast rows n (getRows >>= f) := by
  intro ctx ctx' a hrows hin h
  rw [bind_ok (getRows_apply ctx), hrows] at h
  exact hf hrows hin h

theorem withRows {k : Nat} (hx : AtLeast k n x) : AtLeast rows n (withRows k x) := by
  intro ctx ctx' a hrows hin h
  unfold ReadColumnContext.withRows at h
  rcases hout : x { ctx with rows := k } with ⟨res, c⟩
  rw [hout] at h
  cases h
  have hmoves := @hx { ctx with rows := k } c a rfl hin hout
  exact ⟨hmoves.buf, rfl, hmoves.inside, hmoves.by_at_least⟩

end AtLeast

variable (rows : Nat)

theorem readExact_moves (n : Nat) : AtLeast rows n (ReadColumnContext.readExact n) := by
  intro ctx ctx' a hrows hin h
  unfold ReadColumnContext.readExact at h
  split at h
  · cases h
  · split at h <;> cases h
    exact ⟨rfl, rfl, show ctx.pos + n ≤ ctx.buf.length by omega, le_rfl⟩

theorem readRows_moves (width : Nat) :
    AtLeast rows (rows * width) (readRows overflow width) :=
  .getRows (.ite (fun _ _ _ _ _ _ h => nomatch h) fun _ => readExact_moves rows _)

theorem readPlain_moves (width : Nat) :
    AtLeast rows (rows * width) (readPlain overflow width) :=
  .getRows (.map (readRows_moves overflow rows width))

theorem readOffsetsTotal_moves {rows : Nat} (hrows : rows ≠ 0) :
    AtLeast rows (rows * 8) (readOffsetsTotal rows) := by
  refine .bind (n := 0) (.getRows ?_) fun offsets => .map ?_
  · rw [if_neg hrows]
    exact .map (readRows_moves _ rows 8)
  intro ctx ctx' total _ hin h
  obtain rfl : ctx = ctx' := congrArg Prod.snd h
  exact .refl hin

theorem scanStrings_grows {buf : Bytes} {pos : Nat} (scanPos : Nat)
    {found : List (Nat × Nat) × Nat} :
    scanStrings buf pos rows scanPos = .ok found →
    scanPos + rows ≤ found.2 := by
  induction rows generalizing scanPos found with
  | zero =>
    intro h
    cases h
    exact le_rfl
  | succ rows ih =>
    intro h
    unfold scanStrings at h
    split at h
    · cases h
    obtain ⟨len, hlen, h⟩ := bind_eq_ok h
    have hpos : 0 < len.2 := by
      unfold readVarintFromSlice at hlen
      split at hlen
      · rename_i hloop
        cases hlen
        obtain ⟨e, hdata, he⟩ := (sliceLoop_ok_iff (fails_fail _)).mp hloop
        have hpos := he.pos
        rw [hdata, length_append]
        omega
      · cases hlen
    dsimp only at h
    split at h
    · cases h
    obtain ⟨later, hlater, h⟩ := bind_eq_ok h
    cases h
    have := ih _ hlater
    omega

theorem readStringColumn_moves : AtLeast rows rows readStringColumn := by
  refine .getRows (.ite (fun hzero => ?_) fun _ => ?_)
  · rw [hzero]
    exact .pure _
  intro ctx ctx' col hrows hin h
  obtain ⟨_, s, hcap, hread⟩ := bind_eq_ok_iff.mp h
  obtain ⟨found, s', hfound, hrest⟩ := bind_eq_ok_iff.mp hread
  obtain rfl : s = ctx := (congrArg Prod.snd hcap).symm
  obtain rfl : s' = s := (congrArg Prod.snd hfound).symm
  have hscan := scanStrings_grows _ _ (congrArg Prod.fst hfound)
  have hdata := AtLeast.map (f := fun data => StringColumnData.mk found.1 data)
    (readExact_moves rows found.2)
  exact (hdata hrows hin hrest).mono (by omega)

/-- The least number of bytes for a number of rows. -/
def least (rows need : Nat) : Nat := if rows = 0 then 0 else need

theorem least_le (need : Nat) : least rows need ≤ rows * need := by
  unfold least
  split
  · exact Nat.zero_le _
  · exact Nat.le_mul_of_pos_left need (by omega)

mutual
/-- **A column takes its bytes.** -/
theorem readColumn_moves : ∀ (t : Ty) (rows : Nat), AtLeast rows (least rows t.need) t.readColumn
  | .plain _, rows | .ipv6, rows => (readPlain_moves _ rows _).mono (least_le _ _)
  | .bool, rows =>
    AtLeast.mono (.getRows (readExact_moves rows rows))
      (Nat.le_trans (least_le _ _) (Nat.le_of_eq (Nat.mul_one _)))
  | .string, rows =>
    (readStringColumn_moves rows).mono (Nat.le_trans (least_le _ _) (Nat.le_of_eq (Nat.mul_one _)))
  | .option t, rows => by
    refine AtLeast.mono (.getRows (.bind (readExact_moves rows rows) fun mask =>
      .map (readColumn_moves t rows))) ?_
    show least rows (1 + t.need) ≤ rows + least rows t.need
    unfold least
    split <;> omega
  | .vec t, rows => by
    refine .getRows (.ite (fun hzero => ?_) fun hne => ?_)
    · rw [hzero]
      exact .mono (.map (readColumn_moves t 0)) (Nat.zero_le _)
    · exact .mono (.bind_any (readOffsetsTotal_moves hne) fun offsets =>
        ⟨_, .map (.withRows (readColumn_moves t offsets.2))⟩) (least_le _ 8)
  | .map key value, rows => by
    refine .getRows (.ite (fun hzero => ?_) fun hne => ?_)
    · rw [hzero]
      exact .mono (.bind (readColumn_moves key 0) fun keys =>
        .map (readColumn_moves value 0)) (Nat.zero_le _)
    exact .mono (.bind_any (readOffsetsTotal_moves hne) fun offsets =>
      ⟨_, .bind (.withRows (readColumn_moves key offsets.2)) fun keys =>
        .map (.withRows (readColumn_moves value offsets.2))⟩) (least_le _ 8)
  | .tuple ts, rows => .getRows (.map (readColumns_move ts rows))
theorem readColumns_move : ∀ (ts : Tys) (rows : Nat),
    AtLeast rows (least rows ts.needs) ts.readColumns
  | .nil, rows => by
    refine AtLeast.mono (.pure _) ?_
    unfold least Tys.needs
    split <;> exact Nat.le_refl 0
  | .cons t ts, rows => by
    refine AtLeast.mono (.bind (readColumn_moves t rows) fun column =>
      .map (readColumns_move ts rows)) ?_
    show least rows (t.need + ts.needs) ≤ least rows t.need + least rows ts.needs
    unfold least
    split <;> omega
end

/-! ## §9. The types that are not. -/

mutual
theorem need_pos : ∀ t : Ty, t.isColumn = true → 0 < t.need
  | .plain s, _ => width_pos s
  | .ipv6, _ => (by decide : 0 < 16)
  | .bool, _ | .string, _ => Nat.one_pos
  | .option t, _ => Nat.add_pos_left Nat.one_pos _
  | .vec _, _ | .map _ _, _ => (by decide : 0 < 8)
  | .tuple ts, h => by
    unfold Ty.isColumn at h
    simp only [Bool.and_eq_true, decide_eq_true_eq] at h
    have hlen := length_le_needs ts h.2
    show 0 < ts.needs
    omega
theorem length_le_needs : ∀ ts : Tys, ts.areColumns = true → ts.length ≤ ts.needs
  | .nil, _ => Nat.zero_le _
  | .cons t ts, h => by
    unfold Tys.areColumns at h
    rw [Bool.and_eq_true] at h
    have hfirst := need_pos t h.1
    have hrest := length_le_needs ts h.2
    show ts.length + 1 ≤ t.need + ts.needs
    omega
end

/-- What `write_to` writes for a default is too short for a row of a generic type. -/
theorem default_writes (hcol : t.isColumn = true) (hwrites : t.refuses = false) :
    ∃ bytes, t.writeTo t.default = .ok bytes ∧ bytes.length ≤ 32 ∧ bytes.length ≤ t.need ∧
      (t.isSimple = false → bytes.length < t.need) := by
  cases t with
  | plain s =>
    refine ⟨_, rfl, ?_, le_of_eq (leBytes_length _ _), nofun⟩
    cases s <;> decide
  | ipv6 => exact ⟨_, rfl, by decide, by decide, nofun⟩
  | bool | string => exact ⟨[0], rfl, by decide, Nat.le_refl 1, nofun⟩
  | option t =>
    unfold Ty.isColumn at hcol
    rw [Bool.and_eq_true] at hcol
    have hneed := need_pos t hcol.1
    refine ⟨[1], rfl, by decide, ?_, fun _ => ?_⟩
    · show 1 ≤ 1 + t.need
      omega
    · show 1 < 1 + t.need
      omega
  | vec _ | map _ _ => cases hwrites
  | tuple ts => exact ⟨[], rfl, by decide, Nat.zero_le _, fun _ => need_pos _ hcol⟩

theorem writeEach_single {write : α → Result Bytes} {a : α} (h : write a = .ok bytes) : writeEach write [a] = .ok bytes := by
  unfold writeEach
  rw [h]
  show Except.ok (bytes ++ []) = _
  rw [append_nil]

theorem defaults_write : ∀ ts : Tys, ts.areColumns = true → ts.anyRefuses = false →
    ∃ bytes, ts.writeColumns [ts.defaults] = .ok bytes ∧ bytes.length ≤ 32 * ts.length ∧
      bytes.length ≤ ts.needs ∧ (ts.allSimple = false → bytes.length < ts.needs)
  | .nil, _, _ => ⟨[], rfl, Nat.le_refl 0, Nat.le_refl 0, nofun⟩
  | .cons t ts, hcols, hwrites => by
    unfold Tys.areColumns at hcols
    unfold Tys.anyRefuses at hwrites
    rw [Bool.and_eq_true] at hcols
    rw [Bool.or_eq_false_iff] at hwrites
    obtain ⟨first, hfirst, hsmall, hle, hlt⟩ := default_writes hcols.1 hwrites.1
    obtain ⟨rest, hrest, hsmall', hle', hlt'⟩ := defaults_write ts hcols.2 hwrites.2
    refine ⟨first ++ rest, ?_, ?_, ?_, fun hsimple => ?_⟩
    · have hcolumn : writeEach t.writeTo [t.default] = .ok first := writeEach_single hfirst
      show (writeEach t.writeTo [t.default] >>= fun first =>
        ts.writeColumns [ts.defaults] >>= fun rest => pure (first ++ rest)) = _
      rw [hcolumn, hrest]
      rfl
    · show (first ++ rest).length ≤ 32 * (ts.length + 1)
      rw [length_append]
      omega
    · show (first ++ rest).length ≤ t.need + ts.needs
      rw [length_append]
      omega
    show (first ++ rest).length < t.need + ts.needs
    rw [length_append]
    rcases Bool.and_eq_false_iff.mp hsimple with hfst | hsnd
    · have := hlt hfst
      omega
    · have := hlt' hsnd
      omega

theorem not_roundTrips_of_short {v : t.Val}
    (hw : t.writeColumn [v] = .ok bytes) (hfits : bytes.length ≤ maxMemory)
    (hshort : bytes.length < t.need) : ¬ RoundTrips t [v] := by
  intro h
  obtain ⟨col, hcol, _, _⟩ := h bytes hw hfits
  have hle : 0 + t.need ≤ bytes.length :=
    (readColumn_moves t 1 rfl (Nat.zero_le _) hcol).by_at_least
  omega

/-- One row of one element: an offset, and then too few bytes for the element. -/
theorem not_roundTrips_of_element {v : t.Val} {n : Nat} {f : List Nat × Nat → Decoder t.Data}
    (hread : ∀ buf, t.readColumn ⟨1, 0, buf⟩ = (readOffsetsTotal 1 >>= f) ⟨1, 0, buf⟩)
    (hf : AtLeast 1 n (f ([1], 1))) (hw : t.writeColumn [v] = .ok (offsetBytes [1] ++ bytes))
    (hsmall : bytes.length ≤ 64) (hshort : bytes.length < n) : ¬ RoundTrips t [v] := by
  intro h
  have hlen : (offsetBytes [1] ++ bytes).length = 8 + bytes.length := length_append
  have hfits : (offsetBytes [1] ++ bytes).length ≤ maxMemory := by
    unfold maxMemory
    omega
  have hholds : Holds ⟨1, 0, offsetBytes [1] ++ bytes⟩ (offsetBytes [1] ++ bytes) :=
    ⟨Nat.zero_le _, rfl, hfits⟩
  have hoffset := readOffsetsTotal_at hholds rfl (by decide) (by decide)
  obtain ⟨col, hcol, _, _⟩ := h _ hw hfits
  have hcol := (hread _).symm.trans hcol
  rw [bind_ok hoffset] at hcol
  have hle : 8 + n ≤ (offsetBytes [1] ++ bytes).length :=
    (hf rfl (show 8 ≤ (offsetBytes [1] ++ bytes).length by omega) hcol).by_at_least
  omega

theorem array_not_roundTrips (hcol : t.isColumn = true) (hwrites : t.refuses = false)
    (hgeneric : t.isSimple = false) : ¬ RoundTrips (.vec t) [[t.default]] := by
  obtain ⟨bytes, hbytes, hsmall, _, hlt⟩ := default_writes hcol hwrites
  have hw : (Ty.vec t).writeColumn [[t.default]] = .ok (offsetBytes [1] ++ bytes) := by
    show writeArray t.writeTo [[t.default]] = _
    unfold writeArray
    rw [show .flatten [[t.default]] = [t.default] from rfl, writeEach_single hbytes]
    rfl
  exact not_roundTrips_of_element (fun _ => rfl) (.map (.withRows (readColumn_moves t 1))) hw
    (by omega) (hlt hgeneric)

theorem map_not_roundTrips (hkey : key.isColumn = true)
    (hvalue : value.isColumn = true) (hwrites : key.refuses = false) (hwrites' : value.refuses = false)
    (hgeneric : (key.isSimple && value.isSimple) = false) :
    ¬ RoundTrips (.map key value)
      [(⟨[(key.default, value.default)], nodup_cons.mpr ⟨not_mem_nil, nodup_nil⟩⟩ :
        HashMap key.Val value.Val)] := by
  obtain ⟨keys, hkeys, hsmall, hle, hlt⟩ := default_writes hkey hwrites
  obtain ⟨values, hvalues, hsmall', hle', hlt'⟩ := default_writes hvalue hwrites'
  have hshort : (keys ++ values).length < key.need + value.need := by
    rw [length_append]
    rcases Bool.and_eq_false_iff.mp hgeneric with hfst | hsnd
    · have := hlt hfst
      omega
    · have := hlt' hsnd
      omega
  refine not_roundTrips_of_element (fun _ => rfl)
    (.bind (.withRows (readColumn_moves key 1)) fun _ => .map (.withRows (readColumn_moves value 1)))
    ?_ (by rw [length_append]; omega) hshort
  show (writeEach key.writeTo [key.default] >>= fun keys =>
    writeEach value.writeTo [value.default] >>= fun values =>
      pure (offsetBytes [1] ++ keys ++ values)) = _
  rw [writeEach_single hkeys, writeEach_single hvalues, ← append_assoc]
  rfl

/-- **Exactly the types of `Ty.Columnar` are read back**, for every list of values that
    `write_column` takes. -/
theorem roundTrips_iff {t : Ty} (hcol : t.isColumn = true) :
    (∀ values, RoundTrips t values) ↔ t.Columnar = true := by
  constructor
  · intro h
    by_contra hbad
    rw [Bool.not_eq_true] at hbad
    cases t with
    | plain _ | bool | ipv6 | string => cases hbad
    | option t =>
      obtain ⟨hgeneric, hwrites⟩ := Bool.or_eq_false_iff.mp hbad
      unfold Ty.isColumn at hcol
      rw [Bool.and_eq_true] at hcol
      obtain ⟨bytes, hbytes, hsmall, _, hlt⟩ := default_writes hcol.1 hwrites
      have hw : (Ty.option t).writeColumn [none] = .ok (1 :: bytes) := by
        show (writeEach t.writeTo [t.default] >>= fun bytes => pure ([1] ++ bytes)) = _
        rw [writeEach_single hbytes]
        rfl
      have := hlt hgeneric
      refine not_roundTrips_of_short hw ?_ ?_ (h _)
      · rw [length_cons]
        unfold maxMemory
        omega
      · show bytes.length + 1 < 1 + t.need
        omega
    | vec t =>
      obtain ⟨hgeneric, hwrites⟩ := Bool.or_eq_false_iff.mp hbad
      have hinner : t.isColumn = true := hcol
      exact array_not_roundTrips hinner hwrites hgeneric (h _)
    | map key value =>
      obtain ⟨hrefuse, hgeneric⟩ := Bool.or_eq_false_iff.mp hbad
      obtain ⟨hwrites, hwrites'⟩ := Bool.or_eq_false_iff.mp hrefuse
      unfold Ty.isColumn at hcol
      rw [Bool.and_eq_true, Bool.and_eq_true] at hcol
      exact map_not_roundTrips hcol.1.1 hcol.2 hwrites hwrites' hgeneric (h _)
    | tuple ts =>
      have hneed := need_pos _ hcol
      unfold Ty.isColumn at hcol
      simp only [Bool.and_eq_true, decide_eq_true_eq] at hcol
      by_cases hfour : ts.length ≤ 4
      · have hbad : (decide (ts.length ≤ 4) && (ts.anyRefuses || ts.allSimple)) = false := hbad
        rw [decide_eq_true hfour, Bool.true_and, Bool.or_eq_false_iff] at hbad
        obtain ⟨bytes, hbytes, hsmall, _, hlt⟩ := defaults_write ts hcol.2 hbad.1
        have hw : (Ty.tuple ts).writeColumn [ts.defaults] = .ok bytes :=
          (if_pos hfour).trans hbytes
        refine not_roundTrips_of_short hw ?_ (hlt hbad.2) (h _)
        unfold maxMemory
        omega
      · have hw : (Ty.tuple ts).writeColumn [ts.defaults] = .ok [] := if_neg hfour
        exact not_roundTrips_of_short hw (Nat.zero_le _) hneed (h _)
  · exact roundTrips_of_columnar

/-- Maps of numbers to strings. -/
theorem roundTrips_iff_map : (∀ values, RoundTrips (.map (.plain .u64) .string) values) ↔
    (Ty.map (.plain .u64) .string).Columnar = true :=
  roundTrips_iff (by decide)

/-- `Vec<Option<u8>>`, and one row of two values. -/
def nestedOption : Ty := .vec (.option (.plain .u8))

def optionRow (first second : Option (BitVec 8)) : List nestedOption.Val := [[first, second]]

/-- **`Vec<Option<u8>>` is not read back**: its values are written as flag and value one
    after the other, and read as the flags and then the values. -/
theorem nested_option_misread :
    nestedOption.writeColumn (optionRow (some 1) (some 0))
        = .ok [2, 0, 0, 0, 0, 0, 0, 0, 0, 1, 0, 0] ∧
      (∃ col, nestedOption.readColumn ⟨1, 0, [2, 0, 0, 0, 0, 0, 0, 0, 0, 1, 0, 0]⟩
          = (.ok col, ⟨1, 12, [2, 0, 0, 0, 0, 0, 0, 0, 0, 1, 0, 0]⟩) ∧
        nestedOption.get col 0 = .ok [some (0 : BitVec 8), none]) ∧
      ¬ RoundTrips nestedOption (optionRow (some 1) (some 0)) := by
  have hw : nestedOption.writeColumn (optionRow (some 1) (some 0))
      = .ok [2, 0, 0, 0, 0, 0, 0, 0, 0, 1, 0, 0] := rfl
  have hread : nestedOption.readColumn ⟨1, 0, [2, 0, 0, 0, 0, 0, 0, 0, 0, 1, 0, 0]⟩
      = (.ok ⟨[2], ⟨[0, 1], ⟨[0, 0], 2⟩⟩⟩, ⟨1, 12, [2, 0, 0, 0, 0, 0, 0, 0, 0, 1, 0, 0]⟩) := rfl
  have hget : nestedOption.get ⟨[2], ⟨[0, 1], ⟨[0, 0], 2⟩⟩⟩ 0
      = .ok [some (0 : BitVec 8), none] := rfl
  refine ⟨hw, ⟨_, hread, hget⟩, fun h => ?_⟩
  obtain ⟨col, hcol, _, hvalues⟩ := h _ hw (by decide)
  cases hcol
  have hfirst := hvalues 0 _ rfl
  cases hfirst

end Column

end StClickHouse
