/-
  StClickHouse.Lib.Utf8
  **TEXTS READ BACK FROM THEIR UTF-8 BYTES.**

  `String::as_bytes`, and then `str::from_utf8` or `String::from_utf8_lossy`.
-/
import StClickHouse.Lib.RustText

namespace RustText

/-! ## §1. Bytes as numbers. -/

variable {n : Nat}

theorem toNat_byte (h : n < 256) : (UInt8.ofNat n).toNat = n :=
  UInt8.toNat_ofNat_of_lt' h

theorem byte_between (h : n < 256) (low high : UInt8) :
    (low ≤ UInt8.ofNat n && UInt8.ofNat n ≤ high) = true ↔ low.toNat ≤ n ∧ n ≤ high.toNat := by
  rw [Bool.and_eq_true, decide_eq_true_eq, decide_eq_true_eq, UInt8.le_iff_toNat_le,
    UInt8.le_iff_toNat_le, toNat_byte h]

theorem byte_lt (h : n < 256) (high : UInt8) :
    UInt8.ofNat n < high ↔ n < high.toNat := by
  rw [UInt8.lt_iff_toNat_lt, toNat_byte h]

theorem byte_not_between (h : n < 256) (low high : UInt8) (hn : ¬ (low.toNat ≤ n ∧ n ≤ high.toNat))
    :
    ¬ (low ≤ UInt8.ofNat n && UInt8.ofNat n ≤ high) = true := mt (byte_between h low high).mp hn

theorem isContinuation_byte (n : Nat) : isContinuation (UInt8.ofNat (n % 64 + 128)) = true :=
  (byte_between (by omega) 0x80 0xBF).mpr ⟨Nat.le_add_left _ _, show n % 64 + 128 ≤ 191 by omega⟩

theorem payload_byte (n : Nat) : payload (UInt8.ofNat (n % 64 + 128)) = n % 64 := by
  unfold payload
  rw [toNat_byte (by omega)]
  omega

/-! ## §2. Characters. -/

section Sequences

-- `v` is the code point of a character, written in one, two, three or four bytes.

variable {v i : Nat} {rest : List UInt8} {s : Text}

theorem fromUtf8From_one (hv : v < 0x80) (h : ∀ i, fromUtf8From i rest = .ok s) :
    fromUtf8From i (UInt8.ofNat v :: rest) = .ok (Char.ofNat v :: s) := by
  have hlt : UInt8.ofNat v < 0x80 := (byte_lt (by omega) _).mpr hv
  rw [fromUtf8From.eq_def]
  dsimp only
  rw [if_pos hlt, h, toNat_byte (by omega)]
  rfl

theorem fromUtf8From_two (hlow : 0x80 ≤ v) (hhigh : v < 0x800)
    (h : ∀ i, fromUtf8From i rest = .ok s) :
    fromUtf8From i (UInt8.ofNat (v / 64 % 32 + 192) :: UInt8.ofNat (v % 64 + 128) :: rest)
      = .ok (Char.ofNat v :: s) := by
  have hb : v / 64 % 32 + 192 < 256 := by omega
  have hone := mt (byte_lt hb 0x80).mp (show ¬ _ < 128 by omega)
  have hlead := (byte_between hb 0xC2 0xDF).mpr
    ⟨show 194 ≤ _ by omega, show _ ≤ 223 by omega⟩
  have hcode : (v / 64 % 32 + 192) % 32 * 64 + v % 64 = v := by omega
  rw [fromUtf8From.eq_def]
  dsimp only
  rw [if_neg hone, if_pos hlead, if_pos (isContinuation_byte _), h, toNat_byte hb,
    payload_byte, hcode]
  rfl

theorem fromUtf8From_three (hlow : 0x800 ≤ v) (hhigh : v < 0x10000)
    (hvalid : v < 0xD800 ∨ 0xDFFF < v) (h : ∀ i, fromUtf8From i rest = .ok s) :
    fromUtf8From i (UInt8.ofNat (v / 4096 % 16 + 224) :: UInt8.ofNat (v / 64 % 64 + 128)
      :: UInt8.ofNat (v % 64 + 128) :: rest) = .ok (Char.ofNat v :: s) := by
  have hb : v / 4096 % 16 + 224 < 256 := by omega
  have hone := mt (byte_lt hb 0x80).mp (show ¬ _ < 128 by omega)
  have htwo := byte_not_between hb 0xC2 0xDF (show ¬ (194 ≤ _ ∧ _ ≤ 223) by omega)
  have hlead := (byte_between hb 0xE0 0xEF).mpr
    ⟨show 224 ≤ _ by omega, show _ ≤ 239 by omega⟩
  -- the second byte is restricted where the first is the lowest or the surrogates'
  have hsecond : secondOfThree (UInt8.ofNat (v / 4096 % 16 + 224))
      (UInt8.ofNat (v / 64 % 64 + 128)) = true := by
    have hb1 : v / 64 % 64 + 128 < 256 := by omega
    unfold secondOfThree
    split
    · rename_i he
      have he : v / 4096 % 16 + 224 = 224 := (toNat_byte hb).symm.trans (congrArg UInt8.toNat he)
      exact (byte_between hb1 _ _).mpr ⟨show 160 ≤ _ by omega, show _ ≤ 191 by omega⟩
    split
    · rename_i he
      have he : v / 4096 % 16 + 224 = 237 := (toNat_byte hb).symm.trans (congrArg UInt8.toNat he)
      exact (byte_between hb1 _ _).mpr ⟨show 128 ≤ _ by omega, show _ ≤ 159 by omega⟩
    · exact isContinuation_byte _
  have hcode : (v / 4096 % 16 + 224) % 16 * 4096 + v / 64 % 64 * 64 + v % 64 = v := by omega
  rw [fromUtf8From.eq_def]
  dsimp only
  rw [if_neg hone, if_neg htwo, if_pos hlead, if_pos hsecond, if_pos (isContinuation_byte _), h,
    toNat_byte hb, payload_byte, payload_byte, hcode]
  rfl

theorem fromUtf8From_four (hlow : 0x10000 ≤ v) (hhigh : v < 0x110000)
    (h : ∀ i, fromUtf8From i rest = .ok s) :
    fromUtf8From i (UInt8.ofNat (v / 262144 % 8 + 240) :: UInt8.ofNat (v / 4096 % 64 + 128)
      :: UInt8.ofNat (v / 64 % 64 + 128) :: UInt8.ofNat (v % 64 + 128) :: rest)
      = .ok (Char.ofNat v :: s) := by
  have hb : v / 262144 % 8 + 240 < 256 := by omega
  have hone := mt (byte_lt hb 0x80).mp (show ¬ _ < 128 by omega)
  have htwo := byte_not_between hb 0xC2 0xDF (show ¬ (194 ≤ _ ∧ _ ≤ 223) by omega)
  have hthree := byte_not_between hb 0xE0 0xEF (show ¬ (224 ≤ _ ∧ _ ≤ 239) by omega)
  have hlead := (byte_between hb 0xF0 0xF4).mpr
    ⟨show 240 ≤ _ by omega, show _ ≤ 244 by omega⟩
  have hsecond : secondOfFour (UInt8.ofNat (v / 262144 % 8 + 240))
      (UInt8.ofNat (v / 4096 % 64 + 128)) = true := by
    have hb1 : v / 4096 % 64 + 128 < 256 := by omega
    unfold secondOfFour
    split
    · rename_i he
      have he : v / 262144 % 8 + 240 = 240 := (toNat_byte hb).symm.trans (congrArg UInt8.toNat he)
      exact (byte_between hb1 _ _).mpr ⟨show 144 ≤ _ by omega, show _ ≤ 191 by omega⟩
    split
    · rename_i he
      have he : v / 262144 % 8 + 240 = 244 := (toNat_byte hb).symm.trans (congrArg UInt8.toNat he)
      exact (byte_between hb1 _ _).mpr ⟨show 128 ≤ _ by omega, show _ ≤ 143 by omega⟩
    · exact isContinuation_byte _
  have hcode : (v / 262144 % 8 + 240) % 8 * 262144 + v / 4096 % 64 * 4096 + v / 64 % 64 * 64
      + v % 64 = v := by omega
  rw [fromUtf8From.eq_def]
  dsimp only
  rw [if_neg hone, if_neg htwo, if_neg hthree, if_pos hlead, if_pos hsecond,
    if_pos (isContinuation_byte _), if_pos (isContinuation_byte _), h, toNat_byte hb,
    payload_byte, payload_byte, payload_byte, hcode]
  rfl

theorem fromUtf8From_encode (c : Char) (h : ∀ i, fromUtf8From i rest = .ok s) (i : Nat) :
    fromUtf8From i (String.utf8EncodeChar c ++ rest) = .ok (c :: s) := by
  have hvalid : c.val.toNat < 0xD800 ∨ (0xDFFF < c.val.toNat ∧ c.val.toNat < 0x110000) := c.valid
  have hc : Char.ofNat c.val.toNat = c := Char.ofNat_toNat c
  unfold String.utf8EncodeChar
  dsimp only
  split
  · exact (fromUtf8From_one (by omega) h).trans (by rw [hc])
  split
  · exact (fromUtf8From_two (by omega) (by omega) h).trans (by rw [hc])
  split
  · exact (fromUtf8From_three (by omega) (by omega) (by omega) h).trans (by rw [hc])
  · exact (fromUtf8From_four (by omega) (by omega) h).trans (by rw [hc])

end Sequences

/-! ## §3. Texts. -/

/-- **A text is read back from its UTF-8 bytes.** -/
theorem fromUtf8_toUtf8 (s : Text) : fromUtf8 (toUtf8 s) = .ok s := by
  have hfrom : ∀ i, fromUtf8From i (toUtf8 s) = .ok s := by
    induction s with
    | nil => exact fun _ => rfl
    | cons c s ih => exact fromUtf8From_encode c ih
  exact hfrom 0

theorem fromUtf8Lossy_toUtf8 (s : Text) : fromUtf8Lossy (toUtf8 s) = s := by
  unfold fromUtf8Lossy
  cases hlen : (toUtf8 s).length with
  | zero =>
    have hnil : toUtf8 s = [] := List.length_eq_zero_iff.mp hlen
    have hs := fromUtf8_toUtf8 s
    rw [hnil] at hs
    cases hs
    rfl
  | succ n => rw [fromUtf8LossyFuel, fromUtf8_toUtf8]

end RustText
