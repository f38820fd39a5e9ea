/-
  StClickHouse.Async.RawCapture
  **RAW CAPTURE AND MATERIALISED READS.**

  `query_raw` records a column under a budget; the materialised reader reads the
  stream and applies the caps one by one.  What is captured within the column cap
  is read: piece by piece, and for the columns the materialised reader itself
  records, where it starts again with the whole budget.
-/
import StClickHouse.Async.Discard
import StClickHouse.Wire.RawSim
import StClickHouse.Wire.Varint

namespace StClickHouse

open ByteReader RustText

/-! ## §1. Recorded reads on two streams. -/

section RecordedReads

variable {σ τ : Type} [ByteStream Error σ] [ByteStream Error τ]

/-- The recorded reads of two streams correspond. -/
structure RecordedReads (d : Corr Error Error (Recorded σ) (Recorded τ)) : Prop where
  exact : ∀ len, Sim d (fun a b => a = b) (readExactRecorded len) (readExactRecorded len)
  varint : Sim d (fun a b => a = b) readVarintRecorded readVarintRecorded

theorem recordedReads_of {d : Corr Error Error (Recorded σ) (Recorded τ)} (h : Records d.logic) :
    RecordedReads d where
  exact := h.take _
  varint := h.varint _

namespace RecordedReads

variable {d : Corr Error Error (Recorded σ) (Recorded τ)} (hd : RecordedReads d)

include hd

theorem string (lengthName : String) : Sim d Eq
    (readStringRecorded lengthName) (readStringRecorded lengthName) := by
  refine bind_both hd.varint fun value => ?_
  refine .liftExcept_both fun len _ => ?_
  refine bind_both (hd.exact len) fun buf => ?_
  cases fromUtf8 buf with
  | ok text => exact .pure rfl
  | error u => exact .fail_fail

theorem strings (rows : Nat) (lengthName : String) :
    Sim d Any (stringsRecorded rows lengthName)
      (stringsRecorded rows lengthName) := by
  refine d.logic.times ?_ rows
  refine bind_both hd.varint fun value => ?_
  refine .liftExcept_both fun len _ => ?_
  exact bind_both (hd.exact len) fun _ => .pure trivial

theorem offsets (rows : Nat) (name : String) :
    Sim d Eq (offsetsRecorded rows name) (offsetsRecorded rows name) := by
  refine .liftExcept_both fun nbytes _ => ?_
  exact bind_both (hd.exact nbytes) fun _ => .liftExcept_same _

theorem ops : recordedOps.Simulates d.logic (fun _ => True) recordedOps where
  field := hd.exact
  bytes := hd.exact
  varint := hd.varint
  jsonPath := bind_both (hd.string _) fun _ => .pure trivial
  typeName := hd.string _
  columnLen := fun _ _ _ => .liftExcept_same _
  offsets := hd.offsets
  strings := hd.strings
  leaf := fun ct rows _ _ => rawLeaf_sim hd.strings hd.exact ct rows
  dynamicType := fun _ => .mono (.liftExcept_same _) fun _ _ heq => ⟨heq, trivial⟩
  variantType := fun _ _ _ _ _ => .mono (.liftExcept_same _) fun _ _ heq => ⟨heq, trivial⟩
  lcHeader := fun _ => .liftExcept_same _
  below := fun _ _ _ _ => trivial

theorem column (depth : Nat) (typeName : Text) (rows : Nat) :
    Sim d Any (readColumnRawRecorded depth typeName rows)
      (readColumnRawRecorded depth typeName rows) := by
  refine .liftExcept_both fun ct _ => ?_
  refine .bind (statePrefix_sim hd.ops depth ct trivial) fun state _ hstate => ?_
  obtain ⟨rfl, hknown⟩ := hstate
  exact bodyRaw_sim hd.ops depth ct trivial state hknown rows

end RecordedReads

end RecordedReads

/-! ## §2. A recording against the stream it is made from. -/

section Captured

variable {σ : Type}

/-- What is captured, within the column cap, can be read. -/
def captured : Corr Error Error (Recorded σ) σ where
  state := fun r s => r.stream = s ∧ r.budget ≤ maxColumnBytes
  left := fun _ => True
  right := fun _ => False

variable {α β : Type} {R : α → β → Prop} {x : Read (Recorded σ) α} {y : Read σ β}

theorem captured_of_ok
    (h : ∀ r a r', r.budget ≤ maxColumnBytes → x r = (.ok a, r') → r'.budget ≤ maxColumnBytes ∧ ∃ b, y r.stream = (.ok b, r'.stream) ∧ R a b)
    :
    Sim captured R x y := by
  intro r s hst
  obtain ⟨rfl, hbudget⟩ := hst
  rcases hx : x r with ⟨res, r'⟩
  rcases res with e | a
  · cases y r.stream with
    | mk q s' => cases q <;> trivial
  obtain ⟨hbudget', b, hy, hR⟩ := h r a r' hbudget hx
  rw [hy]
  exact ⟨⟨rfl, hbudget'⟩, hR⟩

variable {r r' : Recorded σ}

theorem captured_ok (h : Sim captured R x y) {a : α} (hbudget : r.budget ≤ maxColumnBytes)
    (hx : x r = (.ok a, r')) :
    r'.budget ≤ maxColumnBytes ∧ ∃ b, y r.stream = (.ok b, r'.stream) ∧ R a b := by
  have hout := h r r.stream ⟨rfl, hbudget⟩
  rw [hx] at hout
  rcases hy : y r.stream with ⟨q, s⟩
  rw [hy] at hout
  rcases q with e | b
  · exact absurd hout id
  obtain ⟨⟨hst, hbudget'⟩, hR⟩ := hout
  cases hst
  exact ⟨hbudget', b, rfl, hR⟩

theorem readExact_captured [ByteStream Error σ] (len : Nat) :
    Sim captured Eq (readExactRecorded len : Read (Recorded σ) _)
      (readExact len) := by
  refine captured_of_ok fun r bs r' hbudget h => ?_
  obtain ⟨hread, _, hcost⟩ := takeRecorded_ok h
  exact ⟨by omega, bs, hread, rfl⟩

variable (rows : Nat)

theorem readOffsetsColumn_captured [ByteStream Error σ] (name : String) :
    Sim captured (fun total offsets => offsets.2 = total)
      (offsetsRecorded rows name : Read (Recorded σ) _) (readOffsetsColumn rows name) := by
  refine .liftExcept_both fun nbytes _ => ?_
  refine bind_both (readExact_captured nbytes) fun offsets => ?_
  exact .map_right (.liftExcept_same (scanOffsets name 0 offsets)) fun _ _ heq => heq.symm

theorem readFixedColumn_captured [ByteStream Error σ] (width : Nat) (what : String) :
    Sim captured Any
      (do
        let len ← liftExcept (checkedColumnLen rows width what)
        let _ ← readExactRecorded len
        return () : Read (Recorded σ) Unit)
      (readFixedColumn rows width what) := by
  refine .liftExcept_both fun len _ => ?_
  exact .map_left (readExact_captured len) fun _ _ _ => trivial

/-! ## §3. Strings. -/

variable {lengthName : String}

/-- One captured row: its length, its bytes, and what they have cost. -/
theorem stringsRecorded_succ_ok [ByteStream Error σ] {left : Nat}
    (h : stringsRecorded (left + 1) lengthName r = (.ok (), r')) :
    ∃ len body s₁ r₁, readVarint r.stream = (.ok len, s₁)
      ∧ checkedStringLen len lengthName = .ok len
      ∧ readExact (ε := Error) len s₁ = (.ok body, r₁.stream)
      ∧ r₁.budget + (varintLen len + len) ≤ r.budget
      ∧ stringsRecorded left lengthName r₁ = (.ok (), r') := by
  obtain ⟨_, r₁, hrow, hrest⟩ := bind_eq_ok_iff.mp h
  obtain ⟨value, r₂, hvarint, hrow⟩ := bind_eq_ok_iff.mp hrow
  obtain ⟨len, r₃, hlen, hrow⟩ := bind_eq_ok_iff.mp hrow
  obtain ⟨body, r₄, hbody, hrow⟩ := bind_eq_ok_iff.mp hrow
  cases hrow
  obtain ⟨hchecked, rfl⟩ := liftExcept_eq_ok_iff.mp hlen
  obtain ⟨rfl, _⟩ := checkedLimit_ok hchecked
  obtain ⟨hvalue, hvcost⟩ := varintRecorded_ok hvarint
  obtain ⟨hread, _, hbcost⟩ := takeRecorded_ok hbody
  exact ⟨len, body, r₂.stream, r₁, hvalue, hchecked, hread, by omega, hrest⟩

/-- The plain loop against captured rows: what it has counted fits the cap together with the
budget that is left. -/
theorem readStringRowsPlainly_of_captured [ByteStream Error σ] (total : Nat) :
    total + r.budget ≤ maxColumnBytes →
      stringsRecorded rows lengthName r = (.ok (), r') →
      r'.budget ≤ r.budget
        ∧ ∃ data, readStringRowsPlainly lengthName rows total r.stream = (.ok data, r'.stream) := by
  induction rows generalizing total r r' with
  | zero =>
    intro _ h
    cases h
    exact ⟨le_rfl, [], rfl⟩
  | succ left ih =>
    intro htotal h
    obtain ⟨len, body, s₁, r₁, hvarint, hlen, hbody, hcost, hrest⟩ := stringsRecorded_succ_ok h
    have hchecked : checkedColumnBytes total (varintLen len + len) lengthName
        = .ok (total + (varintLen len + len)) := checkedColumnBytes_of_le (by omega)
    obtain ⟨hle, data, hdata⟩ := ih (total + (varintLen len + len)) (by omega) hrest
    refine ⟨by omega, encodeVarint len ++ body ++ data, ?_⟩
    unfold readStringRowsPlainly
    rw [bind_ok hvarint, bind_ok (liftExcept_eq_ok_iff.mpr ⟨hlen, rfl⟩),
      bind_ok (liftExcept_eq_ok_iff.mpr ⟨hchecked, rfl⟩), bind_ok hbody, bind_ok hdata]
    rfl

theorem readStringColumn_captured [ByteStream Error σ] [LawfulByteStream Error σ]
    (lengthName : String) :
    Sim captured Any (stringsRecorded rows lengthName : Read (Recorded σ) Unit)
      (readStringColumnWithPrefixes rows lengthName) := by
  refine captured_of_ok fun r _ r' hbudget h => ?_
  obtain ⟨hle, data, hdata⟩ := readStringRowsPlainly_of_captured rows 0 (by omega) h
  exact ⟨by omega, data, (readStringRows_ok_iff rows none 0 (fun _ => rfl) rfl).mpr hdata, trivial⟩

/-! ## §4. The raw reader with more room. -/

/-- The same raw reader, where the right one has at least the budget of the left
one. -/
def roomier : Corr Error Error (Recorded σ) (Recorded σ) where
  state := fun r r' => r.stream = r'.stream ∧ r.budget ≤ r'.budget ∧ r'.budget ≤ maxColumnBytes
  left := fun _ => True
  right := fun _ => False

theorem onStream_roomier (x : Read σ α) :
    Sim roomier Eq (onStream x) (onStream x) := by
  intro r r' hst
  obtain ⟨hstream, hbudget⟩ := hst
  unfold onStream
  rw [← hstream]
  cases x r.stream with
  | mk res s => cases res with
    | ok a => exact ⟨⟨rfl, hbudget⟩, rfl⟩
    | error e => trivial

theorem charge_roomier (len : Nat) (what : String) :
    Sim roomier Eq (charge len what : Read (Recorded σ) Unit)
      (charge len what) := by
  intro r r' hst
  obtain ⟨hstream, hle, hmax⟩ := hst
  unfold charge chargeBudget
  by_cases hroom : r.budget < len
  · rw [if_pos hroom]
    by_cases hroom' : r'.budget < len
    · rw [if_pos hroom']
      trivial
    · rw [if_neg hroom']
      trivial
  rw [if_neg hroom, if_neg (by omega)]
  refine ⟨⟨hstream, ?_, ?_⟩, rfl⟩
  · show r.budget - len ≤ r'.budget - len
    omega
  · show r'.budget - len ≤ maxColumnBytes
    omega

theorem record_roomier (bs : Bytes) :
    Sim roomier Eq (record bs : Read (Recorded σ) Unit) (record bs) :=
  fun _ _ hst => ⟨hst, rfl⟩

/-- **More room makes no difference** to a raw read that fits its budget. -/
theorem recordedReads_roomier [ByteStream Error σ] :
    RecordedReads (roomier : Corr Error Error (Recorded σ) _) :=
  recordedReads_of {
    exact := fun n => onStream_roomier (readExact n)
    byte := onStream_roomier readByte
    charge := charge_roomier
    record := record_roomier }

/-- A recording started afresh has at least the budget of the one it stands in. -/
theorem recording_captured {x y : Read (Recorded σ) Unit}
    (h : Sim roomier Any x y) : Sim captured Any x (recording y) := by
  intro r s hst
  obtain ⟨rfl, hbudget⟩ := hst
  have hout := h r ⟨r.stream, [], maxColumnBytes⟩ ⟨rfl, hbudget, le_rfl⟩
  unfold recording
  rcases hx : x r with ⟨res, r'⟩
  rcases hy : y ⟨r.stream, [], maxColumnBytes⟩ with ⟨q, r''⟩
  rw [hx, hy] at hout
  cases res <;> cases q
  · trivial
  · trivial
  · exact hout
  · obtain ⟨⟨hstream, hle, hmax⟩, _⟩ := hout
    exact ⟨⟨hstream, le_trans hle hmax⟩, trivial⟩

end Captured

end StClickHouse
