/-
  StClickHouse.Wire.Varints
  **ALL VARINT DECODERS AGREE.**

  The unsigned varint loops of the crate differ in what they read from, in where they
  check the shift, and in their texts.  Each accepts exactly the bytes of a varint, so
  that on any bytes they accept together, with the same value and the same length; one
  that records may also run out of its byte budget.
-/
import StClickHouse.Column.Context

namespace StClickHouse

open ByteReader List

/-! ## §1. The decoders. -/

/-- `async_read_varint`, which checks the shift behind the byte. -/
def asyncReadVarint {σ : Type} [ByteStream Error σ] : Read σ Nat :=
  varintLoop readByte (fail varintOverflow) 10 0 0

/-- `parse_varint_checked` of the dynamic columns, and `parse_varint` of the Python
bindings: a loop of ten rounds. -/
def parseVarintChecked : Read Slice Nat :=
  varintLoop (sliceByte "unexpected eof reading varint") (fail (.text "varint too long")) 10 0 0

/-- `read_varint_bytes`: the eleventh byte is refused by its shift. -/
def readVarintBytes : Read Slice Nat := sliceVarint "truncated varint"

/-- The unsigned varint decoders of the crate; a recording one has a byte budget. -/
inductive VarintDecoder where
  | readVarint
  | readVarintAsync
  | asyncReadVarint
  | parseVarint
  | readVarintFromSlice
  | readVarintBytes
  | parseVarintChecked
  | readVarintRecorded (budget : Nat)
  | readVarintInto (budget : Nat)

namespace VarintDecoder

/-- The budget covers this many bytes. -/
def admits : VarintDecoder → Nat → Bool
  | .readVarintRecorded budget, n | .readVarintInto budget, n => n ≤ budget
  | _, _ => true

/-- What a reader answers: the value, and how many bytes it has taken. -/
def answer {σ : Type} (bs : Bytes) (rest : σ → Bytes) :
    Readout Nat × σ → Option (Nat × Nat)
  | (.ok v, s) => some (v, bs.length - (rest s).length)
  | (.error _, _) => none

/-- The decoder on the bytes it is given. -/
def decode : VarintDecoder → Bytes → Option (Nat × Nat)
  | .readVarint, bs => answer bs id (StClickHouse.readVarint bs)
  | .readVarintAsync, bs => answer bs id (StClickHouse.readVarintAsync bs)
  | .asyncReadVarint, bs => answer bs id (StClickHouse.asyncReadVarint bs)
  | .parseVarint, bs => answer bs id (StClickHouse.parseVarint bs)
  | .readVarintFromSlice, bs => (StClickHouse.readVarintFromSlice bs).toOption
  | .readVarintBytes, bs => answer bs id (StClickHouse.readVarintBytes bs)
  | .parseVarintChecked, bs => answer bs id (StClickHouse.parseVarintChecked bs)
  | .readVarintRecorded budget, bs =>
    answer bs Recorded.stream (StClickHouse.readVarintRecorded ⟨bs, [], budget⟩)
  | .readVarintInto budget, bs =>
    answer bs Recorded.stream (StClickHouse.readVarintInto ⟨bs, [], budget⟩)

/-! ## §2. What they accept. -/

/-- The decoder accepts `bs`: a varint is in front, and the budget covers it. -/
def Accepts (d : VarintDecoder) (bs : Bytes) (v n : Nat) : Prop :=
  ∃ e rest, bs = e ++ rest ∧ IsVarint e v ∧ n = e.length ∧ d.admits n = true

variable {bs : Bytes}

theorem answer_iff {σ : Type} {rest : σ → Bytes} {x : Readout Nat × σ} {v n : Nat}
    :
    answer bs rest x = some (v, n) ↔ ∃ s, x = (.ok v, s) ∧ n = bs.length - (rest s).length := by
  obtain ⟨res, s⟩ := x
  rcases res with e | w
  · simp [answer]
  simp only [answer, Option.some.injEq, Prod.mk.injEq, Except.ok.injEq]
  exact ⟨fun ⟨hv, hn⟩ => ⟨s, ⟨hv, rfl⟩, hn.symm⟩, fun ⟨_, ⟨hv, hs⟩, hn⟩ => ⟨hv, hs ▸ hn.symm⟩⟩

theorem length_taken (e rest : Bytes) : (e ++ rest).length - rest.length = e.length := by
  rw [length_append, Nat.add_sub_cancel]

/-- A reader of a list of bytes that takes varints. -/
theorem accepts_of_reader {d : VarintDecoder} {x : Read Bytes Nat} {v n : Nat}
    (hall : ∀ n, d.admits n = true)
    (hx : ∀ {rest}, x bs = (.ok v, rest) ↔ ∃ e, bs = e ++ rest ∧ IsVarint e v) :
    answer bs id (x bs) = some (v, n) ↔ d.Accepts bs v n := by
  rw [answer_iff]
  constructor
  · rintro ⟨rest, hread, hn⟩
    obtain ⟨e, hbs, he⟩ := hx.mp hread
    rw [hbs] at hn
    exact ⟨e, rest, hbs, he, hn.trans (length_taken e rest), hall n⟩
  rintro ⟨e, rest, hbs, he, hn, _⟩
  refine ⟨rest, hx.mpr ⟨e, hbs, he⟩, ?_⟩
  rw [hn, hbs]
  exact (length_taken e rest).symm

/-- A reader that records the varint and pays for its bytes. -/
theorem accepts_of_recorded {d : VarintDecoder} {what : String} {budget : Nat} {v n : Nat}
    (hbudget : d.admits n = true ↔ n ≤ budget) :
    answer bs Recorded.stream (varintRecorded what ⟨bs, [], budget⟩) = some (v, n) ↔
      d.Accepts bs v n := by
  rw [answer_iff]
  constructor
  · rintro ⟨r, hread, hn⟩
    obtain ⟨e, hyields, he, _, hcost⟩ := varintRecorded_ok_iff.mp hread
    have hbs : bs = e ++ r.stream := (yields_list readByte_cons ⟨_, _, rfl⟩).mp hyields
    have hlen : n = e.length := by
      rw [hn, hbs]
      exact length_taken e r.stream
    have hpaid : r.budget + e.length = budget := hcost
    exact ⟨e, r.stream, hbs, he, hlen, hbudget.mpr (by omega)⟩
  · rintro ⟨e, rest, hbs, he, hn, hadmits⟩
    have hle := hbudget.mp hadmits
    refine ⟨⟨rest, e, budget - e.length⟩, varintRecorded_ok_iff.mpr
      ⟨e, (yields_list readByte_cons ⟨_, _, rfl⟩).mpr hbs, he, rfl, ?_⟩, ?_⟩
    · show budget - e.length + e.length = budget
      omega
    · rw [hn, hbs]
      exact (length_taken e rest).symm

/-- **Every decoder accepts the bytes of a varint, and nothing else.** -/
theorem decode_eq_some_iff (d : VarintDecoder) (bs : Bytes) (v n : Nat) :
    d.decode bs = some (v, n) ↔ d.Accepts bs v n := by
  cases d with
  | readVarint | asyncReadVarint => exact accepts_of_reader (fun _ => rfl) readVarint_ok_iff
  | readVarintAsync =>
    exact accepts_of_reader (fun _ => rfl) (by rw [readVarintAsync_eq]; exact readVarint_ok_iff)
  | parseVarint | readVarintBytes => exact accepts_of_reader (fun _ => rfl) sliceVarint_ok_iff
  | readVarintFromSlice =>
    have hslice : (StClickHouse.readVarintFromSlice bs).toOption = answer bs id
        (varintLoop (sliceByte "unexpected end of data in varint") (fail varintOverflow) 10 0 0 bs) := by
      unfold StClickHouse.readVarintFromSlice
      split <;> next hloop => rw [hloop]; rfl
    rw [decode, hslice]
    exact accepts_of_reader (fun _ => rfl) (sliceLoop_ok_iff (fails_fail _))
  | parseVarintChecked => exact accepts_of_reader (fun _ => rfl) (sliceLoop_ok_iff (fails_fail _))
  | readVarintRecorded budget | readVarintInto budget =>
    exact accepts_of_recorded decide_eq_true_iff

/-- **One decoder for all.**  What one decoder accepts, every other accepts with the same
value and length, unless its budget does not cover the bytes; a written value is read
back; ten bytes are the most. -/
theorem decoders_agree (d d' : VarintDecoder) :
    (∀ bs v n, d.decode bs = some (v, n) → d'.admits n = true → d'.decode bs = some (v, n)) ∧
    (∀ v rest, v < 2 ^ 64 → d.admits (encodeVarint v).length = true →
      d.decode (encodeVarint v ++ rest) = some (v, (encodeVarint v).length)) ∧
    (∀ bs v n, d.decode bs = some (v, n) → n ≤ 10 ∧ n ≤ bs.length ∧ v < 2 ^ 64) := by
  refine ⟨?_, ?_, ?_⟩
  · intro bs v n h hadmits
    obtain ⟨e, rest, hbs, he, hn, _⟩ := (d.decode_eq_some_iff bs v n).mp h
    exact (d'.decode_eq_some_iff bs v n).mpr ⟨e, rest, hbs, he, hn, hadmits⟩
  · intro v rest hv hadmits
    exact (d.decode_eq_some_iff _ v _).mpr ⟨_, rest, rfl, isVarint_encode hv, rfl, hadmits⟩
  intro bs v n h
  obtain ⟨e, rest, hbs, he, hn, _⟩ := (d.decode_eq_some_iff bs v n).mp h
  refine ⟨hn ▸ he.short, ?_, he.fits⟩
  rw [hn, hbs, length_append]
  exact Nat.le_add_right _ _

/-- The long form of 5 in ten bytes, read by a stream decoder, is read by a recording one
that may still record ten bytes. -/
theorem decoders_agree_longFive :
    VarintDecoder.readVarint.decode [133, 128, 128, 128, 128, 128, 128, 128, 128, 0, 7] = some (5, 10) ∧
    (VarintDecoder.readVarintRecorded 10).decode [133, 128, 128, 128, 128, 128, 128, 128, 128, 0, 7]
      = some (5, 10) := by
  have hread : VarintDecoder.readVarint.decode [133, 128, 128, 128, 128, 128, 128, 128, 128, 0, 7]
      = some (5, 10) := by decide +kernel
  exact ⟨hread, (decoders_agree .readVarint (.readVarintRecorded 10)).1 _ _ _ hread (by decide)⟩

theorem length_encodeVarintFuel (fuel v : Nat) :
    (encodeVarintFuel fuel v).length = varintLenFuel fuel v := by
  induction fuel generalizing v with
  | zero => rfl
  | succ fuel ih =>
    unfold encodeVarintFuel varintLenFuel
    split <;> simp [ih]

/-- **The encoder writes `varint_len` bytes, and no decoder takes fewer for the value.** -/
theorem varintLen_isLeast (v : UInt64) : (encodeVarint v.toNat).length = varintLen v.toNat ∧
    IsLeast {n | ∃ d bs, decode d bs = some (v.toNat, n)} (varintLen v.toNat) := by
  have hlen := length_encodeVarintFuel 10 v.toNat
  refine ⟨hlen, ⟨.readVarint, _, (decode_eq_some_iff ..).mpr
    ⟨_, [], rfl, isVarint_encode v.toNat_lt, hlen.symm, rfl⟩⟩, ?_⟩
  rintro n ⟨d, bs, hn⟩
  obtain ⟨e, -, -, he, rfl, -⟩ := (decode_eq_some_iff ..).mp hn
  exact varintLen_le he.pos (he.value ▸ groups_lt e)

end VarintDecoder

end StClickHouse
