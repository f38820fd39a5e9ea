/-
  StClickHouse.Sync.Truncated
  **PARSING A PACKET THAT HAS NOT ARRIVED IN FULL.**

  The parsers of a buffer look at no byte behind the last one they take, and ask for none
  they do not need.  So what they make of the first bytes of a packet is what they make of
  the whole packet, or they report a protocol error, which the streamed response takes for
  a reason to read more.
-/
import StClickHouse.Buffer.Skippers
import StClickHouse.Sync.QueryStream

namespace StClickHouse

open ByteReader RustText List

/-- A buffer that ends early against the same buffer with more behind it. -/
def truncation (more : Bytes) : Corr Error Error Slice Slice where
  state := fun s s' => s' = s ++ more
  left := fun e => ∃ msg, e = .error (.protocol msg)
  right := fun _ => False

/-- A parser that can be cut short: with less before it, it does the same, or it reports a
    protocol error. -/
def Cuttable {α : Type} (x : Read Slice α) : Prop :=
  ∀ more, Sim (truncation more) (fun a b => a = b) x x

/-- What is the same with any bytes behind it. -/
def cutting : Logic Error Slice Slice := .all fun more => (truncation more).logic

namespace Cuttable

variable {α β : Type} {x : Read Slice α}

theorem pure (a : α) : Cuttable (Pure.pure a : Read Slice α) := fun _ => .pure rfl

theorem fail (e : Error) : Cuttable (ByteReader.fail e : Read Slice α) := cutting.fail

theorem liftExcept (res : Result α) : Cuttable (ByteReader.liftExcept res) :=
  cutting.lift_same res

theorem bind {f : α → Read Slice β} (hx : Cuttable x) (hf : ∀ a, Cuttable (f a)) :
    Cuttable (x >>= f) :=
  cutting.both hx hf

theorem ite {p : Prop} [Decidable p] {y : Read Slice α} (hx : Cuttable x)
    (hy : Cuttable y) : Cuttable (if p then x else y) :=
  cutting.ite hx hy

theorem times {x : Read Slice Unit} (hx : Cuttable x) (n : Nat) :
    Cuttable (ByteReader.times n x) :=
  cutting.times_same hx n

theorem collect {f : β → Read Slice α} (hf : ∀ b, Cuttable (f b)) (bs : List β) :
    Cuttable (ByteReader.collect f bs) :=
  cutting.collect_same hf bs

end Cuttable

/-! ## §1. Columns. -/

theorem sliceTake_cut (msg : String) (n : Nat) : Cuttable (sliceTake msg n) := by
  intro more s s' hs
  obtain rfl : s' = s ++ more := hs
  unfold sliceTake
  by_cases hn : n ≤ s.length
  · rw [if_pos hn, if_pos (by rw [length_append]; omega), take_append_of_le_length hn,
      drop_append_of_le_length hn]
    exact ⟨rfl, rfl⟩
  rw [if_neg hn]
  split
  · exact ⟨_, rfl⟩
  · trivial

theorem parseVarint_cut : Cuttable parseVarint := parseVarint_rel cutting sliceTake_cut

theorem sliceText_cut (len : Nat) : Cuttable (sliceText len) := by
  intro more s s' hs
  obtain rfl : s' = s ++ more := hs
  unfold sliceText
  by_cases hn : len ≤ s.length
  · rw [if_pos hn, if_pos (by rw [length_append]; omega), take_append_of_le_length hn,
      drop_append_of_le_length hn]
    cases fromUtf8 (s.take len) with
    | ok text => exact ⟨rfl, rfl⟩
    | error e => trivial
  rw [if_neg hn]
  split
  · split
    · exact ⟨_, rfl⟩
    · trivial
  · trivial

theorem parseString_cut : Cuttable parseString :=
  .bind parseVarint_cut fun _ => .bind (.liftExcept _) fun len => sliceText_cut len

theorem parseStringBytes_cut : Cuttable parseStringBytes :=
  parseStringBytes_rel cutting sliceTake_cut

theorem readU64Le_cut : Cuttable readU64Le := readU64Le_rel cutting sliceTake_cut

variable (depth : Nat)

theorem skipColumnData_cut (ct : ColumnType) (rows : Nat) :
    Cuttable (skipColumnData depth ct rows) :=
  skipColumnData_rel cutting sliceTake_cut depth ct rows

/-! ## §2. Blocks. -/

theorem passed_cut {x : Read Slice Unit} (hx : Cuttable x) : Cuttable (passed x) := by
  intro more s s' hs
  have hout := hx more s s' hs
  obtain rfl : s' = s ++ more := hs
  unfold passed
  rcases hrun : x s with ⟨res, rest⟩
  rcases hrun' : x (s ++ more) with ⟨res', rest'⟩
  rw [hrun, hrun'] at hout
  cases res <;> cases res' <;> try exact hout
  obtain ⟨hstate, _⟩ := hout
  obtain rfl : rest' = rest ++ more := hstate
  refine ⟨rfl, ?_⟩
  rw [length_append, length_append, Nat.add_sub_add_right,
    take_append_of_le_length (Nat.sub_le _ _)]

theorem readLowCardinalityFromBuffer_cut {column : ColumnType → Nat → Read Slice Unit}
    (hcolumn : ∀ ct rows, Cuttable (column ct rows)) (inner : ColumnType) (rows : Nat) :
    Cuttable (readLowCardinalityFromBuffer column inner rows) :=
  .ite (.pure []) <|
    .bind (sliceTake_cut _ 24) fun _ => .bind (.liftExcept _) fun _ => .bind (.liftExcept _) fun keys =>
      .bind (passed_cut (hcolumn inner keys)) fun _ => .bind readU64Le_cut fun _ =>
        .ite (.fail _) (.bind (.liftExcept _) fun len => .bind (sliceTake_cut _ len) fun _ =>
          .liftExcept _)

theorem parseColumnData_cut (depth : Nat) (ct : ColumnType) (rows : Nat) :
    Cuttable (parseColumnData depth ct rows) := by
  have hpassed : Cuttable (do
      let bytes ← passed (skipColumnData depth ct rows)
      liftExcept (materializedColumnData ct rows bytes)) :=
    .bind (passed_cut (skipColumnData_cut depth ct rows)) fun _ => .liftExcept _
  cases ct with
  | lowCardinality inner =>
    exact readLowCardinalityFromBuffer_cut (skipColumnData_cut (depth - 1)) inner rows
  | _ => exact hpassed

theorem parseBodyColumn_cut (rows : Nat) : Cuttable (parseBodyColumn depth rows) :=
  .bind parseString_cut fun _ => .bind parseString_cut fun _ => .bind (sliceTake_cut _ 1) fun _ =>
    .bind (.liftExcept _) fun ct => .bind (parseColumnData_cut depth ct rows) fun _ => .pure _

/-- **A block that is cut short.** -/
theorem parseBlockBody_cut : Cuttable (parseBlockBody depth) :=
  .bind (blockInfoLoop_rel cutting parseVarint_cut (sliceTake_cut _) depth) fun _ =>
    .bind (blockCounts_rel cutting parseVarint_cut) fun counts =>
      .bind (.collect (fun _ => parseBodyColumn_cut depth counts.2) _) fun _ => .pure _

/-! ## §3. Packets. -/

namespace Sync

theorem parseExceptionChain_cut : ∀ (levels : Nat) (root : Option (Int × String))
    (messages : List String), Cuttable (parseExceptionChain levels root messages) := by
  intro levels
  induction levels with
  | zero => exact fun _ _ => .fail _
  | succ levels ih =>
    exact fun _ _ => .bind (sliceTake_cut _ 4) fun _ => .bind parseStringBytes_cut fun _ =>
      .bind parseStringBytes_cut fun _ => .bind parseStringBytes_cut fun _ =>
        .bind (sliceTake_cut _ 1) fun _ => .ite (.pure _) (ih _ _)

theorem parseBlock_cut (depth : Nat) : Cuttable (parseBlock depth) :=
  .bind parseString_cut fun _ => parseBlockBody_cut depth

theorem skipVarint_cut : Cuttable skipVarint := .bind parseVarint_cut fun _ => .pure _

theorem skipPartUuidsBuffer_cut : Cuttable skipPartUuidsBuffer :=
  .bind parseVarint_cut fun _ => .bind (.liftExcept _) fun len =>
    .bind (sliceTake_cut _ len) fun _ => .pure _

theorem parseU8_cut : Cuttable parseU8 := .bind (sliceTake_cut _ 1) fun _ => .pure _

theorem skipMergeTreePartInfoBuffer_cut : Cuttable skipMergeTreePartInfoBuffer :=
  .bind readU64Le_cut fun _ => .bind parseString_cut fun _ => .bind readU64Le_cut fun _ =>
    .bind readU64Le_cut fun _ => .bind readU64Le_cut fun _ => .bind readU64Le_cut fun _ =>
      .bind parseU8_cut fun _ => .pure _

theorem skipMarkRangesBuffer_cut : Cuttable skipMarkRangesBuffer :=
  .bind readU64Le_cut fun _ => .bind (.liftExcept _) fun len =>
    .bind (sliceTake_cut _ len) fun _ => .pure _

theorem skipRangesInDataPartsDescriptionBuffer_cut :
    Cuttable skipRangesInDataPartsDescriptionBuffer :=
  .bind parseVarint_cut fun count => .times
    (.bind skipMergeTreePartInfoBuffer_cut fun _ => .bind skipMarkRangesBuffer_cut fun _ =>
      .bind skipVarint_cut fun _ => .bind parseString_cut fun _ => skipVarint_cut) count

theorem skipParallelReadAnnouncementBuffer_cut : Cuttable skipParallelReadAnnouncementBuffer :=
  .bind readU64Le_cut fun _ => .bind parseU8_cut fun _ =>
    .bind skipRangesInDataPartsDescriptionBuffer_cut fun _ => .bind readU64Le_cut fun _ =>
      .bind readU64Le_cut fun _ => .bind skipVarint_cut fun _ => .bind skipVarint_cut fun _ =>
        .bind parseString_cut fun _ => .pure _

theorem readParallelReadRequestStreamIdBuffer_cut :
    Cuttable readParallelReadRequestStreamIdBuffer :=
  .bind readU64Le_cut fun _ => .bind parseU8_cut fun _ => .bind readU64Le_cut fun _ =>
    .bind readU64Le_cut fun _ => .bind skipRangesInDataPartsDescriptionBuffer_cut fun _ =>
      parseString_cut

theorem skips_cut {x : Read Slice Unit} (hx : Cuttable x) : Cuttable (skips x) :=
  .bind hx fun _ => .pure _

/-- **A packet that is cut short.** -/
theorem bufferedPacket_cut (cfg : Config) (packetType : Nat) :
    Cuttable (bufferedPacket cfg packetType) := by
  unfold bufferedPacket
  split
  · exact .bind (parseBlock_cut _) fun _ => .pure _
  · exact .bind (parseExceptionChain_cut _ _ _) fun _ => .pure _
  · exact skips_cut (.times skipVarint_cut _)
  · exact .pure _
  · exact .pure _
  · exact skips_cut (.bind (parseBlock_cut _) fun _ => .pure _)
  · exact skips_cut (.bind (parseBlock_cut _) fun _ => .pure _)
  · exact skips_cut (.bind parseString_cut fun _ => .bind (parseBlockBody_cut _) fun _ => .pure _)
  · exact skips_cut (.bind parseString_cut fun _ => .bind (parseBlockBody_cut _) fun _ => .pure _)
  · exact skips_cut (.bind parseString_cut fun _ => .bind parseString_cut fun _ => .pure _)
  · exact skips_cut skipPartUuidsBuffer_cut
  · exact .pure _
  · exact skips_cut skipParallelReadAnnouncementBuffer_cut
  · exact .bind readParallelReadRequestStreamIdBuffer_cut fun _ => .pure _
  · exact skips_cut (.bind parseString_cut fun _ => .pure _)
  · exact .pure _

end Sync

theorem Cuttable.cases {α : Type} {x : Read Slice α} (hx : Cuttable x)
    {s more rest : Bytes} {a : α} (h : x (s ++ more) = (.ok a, rest)) :
    (∃ rest', x s = (.ok a, rest') ∧ rest = rest' ++ more) ∨
      ∃ msg rest', x s = (.error (.error (.protocol msg)), rest') ∧ more ≠ [] := by
  have hout := hx more s (s ++ more) rfl
  rw [h] at hout
  rcases hrun : x s with ⟨res, rest'⟩
  rw [hrun] at hout
  cases res with
  | ok b =>
    obtain ⟨hstate, rfl⟩ := hout
    exact .inl ⟨rest', rfl, hstate⟩
  | error e =>
    obtain ⟨msg, rfl⟩ := hout
    refine .inr ⟨msg, rest', rfl, fun hnil => ?_⟩
    rw [hnil, append_nil, hrun] at h
    cases h

theorem Cuttable.extend {α : Type} {x : Read Slice α} (hx : Cuttable x)
    {s rest : Bytes} {a : α} (h : x s = (.ok a, rest)) (more : Bytes) :
    x (s ++ more) = (.ok a, rest ++ more) := by
  have hout := hx more s (s ++ more) rfl
  rw [h] at hout
  rcases hrun : x (s ++ more) with ⟨res, rest'⟩
  rw [hrun] at hout
  rcases res with e | b
  · exact hout.elim
  obtain ⟨hstate, rfl⟩ := hout
  obtain rfl : rest' = rest ++ more := hstate
  rfl

end StClickHouse
