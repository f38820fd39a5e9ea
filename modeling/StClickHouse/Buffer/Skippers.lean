/-
  StClickHouse.Buffer.Skippers
  **WHAT THE SKIPPER OF A BUFFER INHERITS.**

  The skipper takes bytes off the buffer and does nothing else to it.  So whatever
  relates taking bytes to itself, and is respected by sequences, relates the skipper of
  a whole column to itself.
-/
import StClickHouse.Buffer.SkipColumn
import StClickHouse.Wire.RawSim
import StClickHouse.Wire.Recorded

namespace StClickHouse

open ByteReader RustText

variable (L : Logic Error Slice Slice)
  (htake : ∀ msg n, L.rel Eq (sliceTake msg n) (sliceTake msg n))

include htake

theorem sliceByte_rel (msg : String) : L.rel Eq (sliceByte msg) (sliceByte msg) :=
  L.both (htake msg 1) fun _ => L.pure rfl

theorem parseVarint_rel : L.rel Eq parseVarint parseVarint := by
  refine varintLoop_rel L (sliceByte_rel L htake _) ?_ 10 0 0
  exact L.both (sliceByte_rel L htake _) fun _ => L.fail

theorem parseStringBytes_rel : L.rel Eq parseStringBytes parseStringBytes :=
  L.both (parseVarint_rel L htake) fun _ => L.lift fun len => htake _ len

theorem readU64Le_rel : L.rel Eq readU64Le readU64Le := L.both (htake _ 8) fun _ => L.pure rfl

variable (rows : Nat)

theorem skipOffsets_rel (name : String) :
    L.rel Eq (skipOffsets rows name) (skipOffsets rows name) :=
  L.lift fun len => L.both (htake _ len) fun _ => L.lift_same _

theorem skipStringRows_rel (name : String) :
    L.rel Eq (skipStringRows rows name) (skipStringRows rows name) := by
  refine L.times_same (L.both (parseVarint_rel L htake) fun _ => L.lift fun len => ?_) rows
  exact L.both (htake _ len) fun _ => L.pure rfl

theorem skipFixed_rel (width : Nat) : L.rel Eq (skipFixed rows width) (skipFixed rows width) :=
  L.lift fun len => L.both (htake _ len) fun _ => L.pure rfl

theorem skipBytes_rel : L.rel Eq (skipBytes rows) (skipBytes rows) :=
  L.both (htake _ rows) fun _ => L.pure rfl

theorem skipLeaf_rel (ct : ColumnType) (rows : Nat) :
    L.rel Eq (skipLeaf ct rows) (skipLeaf ct rows) := by
  cases ct with
  | uint8 | int8 | bool | enum8 | nothing => exact skipBytes_rel L htake rows
  | string | other => exact skipStringRows_rel L htake rows _
  | json =>
    exact L.both (readU64Le_rel L htake) fun _ => L.ite L.fail (skipStringRows_rel L htake rows _)
  | aggregateFunction | simpleAggregateFunction => exact L.fail
  | decimal precision scale => exact decimalColumn_rel L (skipFixed_rel L htake rows)
  | _ => first | exact skipFixed_rel L htake rows _ | exact L.pure rfl

theorem skipOps_rel : skipOps.Simulates L (fun _ => True) skipOps where
  field := htake _
  bytes := htake _
  varint := parseVarint_rel L htake
  jsonPath := L.bind (parseStringBytes_rel L htake) fun _ _ _ => L.pure trivial
  typeName := by
    refine L.both (parseStringBytes_rel L htake) fun bytes => ?_
    cases fromUtf8 bytes with
    | ok name => exact L.pure rfl
    | error e => exact L.fail
  columnLen := fun _ _ _ => L.lift_same _
  offsets := skipOffsets_rel L htake
  strings := fun rows name => L.mono (skipStringRows_rel L htake rows name) fun _ _ _ => trivial
  leaf := fun ct rows _ _ => L.mono (skipLeaf_rel L htake ct rows) fun _ _ _ => trivial
  dynamicType := fun _ => L.mono (L.lift_same _) fun _ _ heq => ⟨heq, trivial⟩
  variantType := fun _ _ _ _ _ => L.mono (L.lift_same _) fun _ _ heq => ⟨heq, trivial⟩
  lcHeader := fun _ => L.lift_same _
  below := fun _ _ _ _ => trivial

theorem skipTyped_rel {column : ColumnType → Nat → Read Slice Unit}
    (hcolumn : ∀ ct rows, L.rel Eq (column ct rows) (column ct rows)) (depth : Nat)
    (ct : ColumnType) (rows : Nat) :
    L.rel Eq (skipTyped skipOps column depth ct rows) (skipTyped skipOps column depth ct rows) := by
  have hops := skipOps_rel L htake
  have hbody := bodyRaw_sim hops depth
  have hprefix := statePrefix_sim hops depth
  have hunit : ∀ {x : Read Slice Unit}, L.rel Any x x → L.rel Eq x x :=
    fun h => L.mono h fun _ _ _ => rfl
  have hleaf := skipLeaf_rel L htake ct rows
  cases ct with
  | nullable inner => exact L.both (htake _ rows) fun _ => hcolumn inner rows
  | array inner =>
    exact L.both (skipOffsets_rel L htake rows _) fun total => L.ite (L.pure rfl) (hcolumn inner total)
  | map key value =>
    refine L.both (skipOffsets_rel L htake rows _) fun total => L.ite (L.pure rfl) ?_
    exact L.both (hcolumn key total) fun _ => hcolumn value total
  | tuple elems => exact L.forEach_same (fun elem => hcolumn elem rows) elems
  | point => exact L.both (hcolumn _ rows) fun _ => hcolumn _ rows
  | ring | polygon | multiPolygon => exact hcolumn _ rows
  | lowCardinality inner =>
    exact hunit (lcBody_sim hops (fun n => hbody inner trivial .none rfl n) rows)
  | variant types =>
    refine hunit (L.bind (L.collect fun t _ => hprefix t trivial) fun states _ hstates => ?_)
    obtain ⟨rfl, hknown⟩ := hstates
    exact variantBody_sim hops hbody trivial (knownStates_iff.mpr hknown) rows
  | dynamic =>
    refine hunit (L.bind (dynamicState_sim hops hprefix) fun state _ hstate => ?_)
    obtain ⟨rfl, hknown⟩ := hstate
    exact dynamicBody_sim hops hbody hknown rows
  | _ => exact hleaf

/-- **What taking bytes does, skipping a column does.** -/
theorem skipColumnData_rel : ∀ (depth : Nat) (ct : ColumnType) (rows : Nat),
    L.rel Eq (skipColumnData depth ct rows) (skipColumnData depth ct rows) := by
  intro depth
  induction depth with
  | zero => exact fun _ _ => L.ite (L.pure rfl) L.tooDeep
  | succ depth ih => exact fun ct rows => L.ite (L.pure rfl) (skipTyped_rel L htake ih depth ct rows)

end StClickHouse
