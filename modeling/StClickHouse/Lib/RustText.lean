/-
  StClickHouse.Lib.RustText
  **RUST STRING PRIMITIVES**, as functions on lists of characters.

  `str::trim` over the Unicode `White_Space` property, `str::parse` for the
  unsigned integer types and the decimal `Display` of a number.  Main
  results: `trim` is idempotent and fixes every text with a non-blank first
  and last character (`trim_trim`, `trim_eq_self`), and a printed number
  parses back (`parseU32_number`, `parseUsize_number`).
-/
import Mathlib

namespace RustText

open List

/-- A Rust string, as the list of its characters. -/
abbrev Text := List Char

/-! ## §1. Fallible computations. -/

/-- A sequence of fallible computations succeeds where its parts do. -/
theorem bind_eq_ok {ε α β : Type} {x : Except ε α} {f : α → Except ε β} {b : β}
    (h : (x >>= f) = .ok b) : ∃ a, x = .ok a ∧ f a = .ok b := by
  cases x with
  | error e => cases h
  | ok a => exact ⟨a, rfl, h⟩

/-! ## §2. White space and digits. -/

/-- What a hexadecimal digit stands for, by its code. -/
def fromHexDigit (code : Nat) : Nat :=
  if 97 ≤ code then code - 87 else if 65 ≤ code then code - 55 else code - 48

/-- `char::is_whitespace`: the Unicode `White_Space` property. -/
def isWhitespace (c : Char) : Bool :=
  (9 ≤ c.toNat && c.toNat ≤ 13) || c.toNat == 0x20 || c.toNat == 0x85
    || c.toNat == 0xA0 || c.toNat == 0x1680
    || (0x2000 ≤ c.toNat && c.toNat ≤ 0x200A)
    || c.toNat == 0x2028 || c.toNat == 0x2029 || c.toNat == 0x202F
    || c.toNat == 0x205F || c.toNat == 0x3000

/-- `str::trim`. -/
def trim (s : Text) : Text :=
  (s.dropWhile isWhitespace).rdropWhile isWhitespace

variable {c : Char} {bound : Nat} {s : Text}

/-- A text whose first and last characters are not blank is its own trim. -/
theorem trim_eq_self (hhead : ∀ c, s.head? = some c → isWhitespace c = false)
    (hlast : ∀ c, s.getLast? = some c → isWhitespace c = false) : trim s = s := by
  have hfront : s.dropWhile isWhitespace = s := by
    rcases s with _ | ⟨c, cs⟩
    · rfl
    have hc : isWhitespace c = false := hhead c rfl
    simp only [dropWhile_cons, hc, Bool.false_eq_true, if_false]
  unfold trim
  rw [hfront, rdropWhile_eq_self_iff]
  intro hne hblank
  have hc := hlast (s.getLast hne) (List.getLast?_eq_some_getLast hne)
  rw [hc] at hblank
  exact Bool.false_ne_true hblank

theorem head_trim (h : (trim s).head? = some c) :
    isWhitespace c = false := by
  -- the trimmed text is a prefix of the front-trimmed one
  obtain ⟨t, ht⟩ := rdropWhile_prefix isWhitespace (s.dropWhile isWhitespace)
  have hhead : (s.dropWhile isWhitespace).head? = some c := by
    rw [← ht, List.head?_append_of_ne_nil _ ?_]
    · exact h
    intro hnil
    unfold trim at h
    rw [hnil] at h
    exact Option.some_ne_none c h.symm
  have hnot := List.head?_dropWhile_not isWhitespace s
  rw [hhead] at hnot
  exact Bool.eq_false_iff.mpr (by simpa using hnot)

theorem getLast_trim (h : (trim s).getLast? = some c) :
    isWhitespace c = false := by
  have hne : trim s ≠ [] := by
    intro hnil
    rw [hnil] at h
    exact Option.some_ne_none c h.symm
  have hlast := rdropWhile_last_not isWhitespace (s.dropWhile isWhitespace) hne
  have hc : (trim s).getLast hne = c := by
    rw [List.getLast?_eq_some_getLast hne] at h
    exact Option.some.inj h
  rw [← hc]
  exact Bool.eq_false_iff.mpr hlast

theorem trim_trim (s : Text) : trim (trim s) = trim s :=
  trim_eq_self (fun _ h => head_trim h) (fun _ h => getLast_trim h)

theorem trim_append_of_blank {pre s : Text} (hpre : ∀ c ∈ pre, isWhitespace c = true) :
    trim (pre ++ s) = trim s := by
  unfold trim
  rw [dropWhile_append_of_pos hpre]

/-- A trimmed text is what is left of the text between two blank runs. -/
theorem trim_decomp (s : Text) : ∃ pre post : Text, s = pre ++ trim s ++ post
    ∧ (∀ c ∈ pre, isWhitespace c = true) ∧ (∀ c ∈ post, isWhitespace c = true) := by
  refine ⟨s.takeWhile isWhitespace, (s.dropWhile isWhitespace).rtakeWhile isWhitespace,
    ?_, ?_, ?_⟩
  · unfold trim
    rw [append_assoc, rdropWhile_append_rtakeWhile, takeWhile_append_dropWhile]
  · intro c hc
    exact mem_takeWhile_imp hc
  · intro c hc
    exact mem_rtakeWhile_imp hc

/-! ## §3. Unsigned numbers. -/

/-- The digit loop of `from_str_radix(.., 10)` for an unsigned type with
values below `bound`. -/
def parseDigits (bound : Nat) : Nat → Text → Except String Nat
  | acc, [] => .ok acc
  | acc, c :: cs =>
    if c.isDigit then
      if acc * 10 + (c.toNat - 48) < bound then
        parseDigits bound (acc * 10 + (c.toNat - 48)) cs
      else .error "number too large to fit in target type"
    else .error "invalid digit found in string"

/-- `str::parse` for an unsigned type: one leading `+` is allowed, a lone
sign is not a number. -/
def parseUnsigned (bound : Nat) : Text → Except String Nat
  | [] => .error "cannot parse integer from empty string"
  | ['+'] | ['-'] => .error "invalid digit found in string"
  | '+' :: ds => parseDigits bound 0 ds
  | ds => parseDigits bound 0 ds

/-- `parse::<u32>`. -/
def parseU32 (s : Text) : Except String UInt32 :=
  (parseUnsigned (2 ^ 32) s).map UInt32.ofNat

/-- `parse::<usize>` on a 64-bit target. -/
def parseUsize (s : Text) : Except String UInt64 :=
  (parseUnsigned (2 ^ 64) s).map UInt64.ofNat

/-- A number as `Display` prints it. -/
def number (n : Nat) : Text := Nat.toDigits 10 n

theorem isDigit_of_mem_number {n : Nat} (h : c ∈ number n) : c.isDigit = true :=
  Nat.isDigit_of_mem_toDigits (by decide) (by decide) h

theorem number_ne_nil (n : Nat) : number n ≠ [] := by
  unfold number
  rw [Nat.toDigits_eq_if (by decide)]
  split
  · exact cons_ne_nil _ _
  · exact append_ne_nil_of_right_ne_nil _ (cons_ne_nil _ _)

/-- The decimal value of a text only grows as digits are added to it. -/
theorem le_ofDigitChars (cs : Text) (acc : Nat) : acc ≤ Nat.ofDigitChars 10 cs acc := by
  rw [Nat.ofDigitChars_eq_ofDigitChars_zero]
  have hpow : 1 ≤ 10 ^ cs.length := Nat.one_le_pow _ _ (by decide)
  calc acc = 1 * acc := (Nat.one_mul acc).symm
    _ ≤ 10 ^ cs.length * acc := Nat.mul_le_mul_right acc hpow
    _ ≤ 10 ^ cs.length * acc + Nat.ofDigitChars 10 cs 0 := Nat.le_add_right _ _

theorem parseDigits_eq : ∀ (cs : Text) (acc : Nat),
    (∀ c ∈ cs, c.isDigit = true) → Nat.ofDigitChars 10 cs acc < bound →
      parseDigits bound acc cs = .ok (Nat.ofDigitChars 10 cs acc)
  | [], acc, _, _ => by
    simp only [parseDigits, Nat.ofDigitChars_nil]
  | c :: cs, acc, hdig, hlt => by
    rw [Nat.ofDigitChars_cons, Nat.mul_comm] at hlt ⊢
    have hc : c.isDigit = true := hdig c mem_cons_self
    have hfit : acc * 10 + (c.toNat - 48) < bound :=
      lt_of_le_of_lt (le_ofDigitChars cs _) hlt
    simp only [parseDigits, hc, if_true]
    rw [if_pos hfit]
    exact parseDigits_eq cs _ (fun x hx => hdig x (mem_cons_of_mem c hx)) hlt

theorem parseUnsigned_of_digits {cs : Text} (hne : cs ≠ [])
    (hdig : ∀ c ∈ cs, c.isDigit = true) : parseUnsigned bound cs = parseDigits bound 0 cs := by
  rcases cs with _ | ⟨c, cs⟩
  · exact absurd rfl hne
  have hc := hdig c mem_cons_self
  have hplus : c ≠ '+' := by rintro rfl; exact absurd hc (by decide)
  have hminus : c ≠ '-' := by rintro rfl; exact absurd hc (by decide)
  unfold parseUnsigned
  split
  · next h => exact absurd h (cons_ne_nil _ _)
  · next h => exact absurd (List.cons.inj h).1 hplus
  · next h => exact absurd (List.cons.inj h).1 hminus
  · next h => exact absurd (List.cons.inj h).1 hplus
  · rfl

theorem parseUnsigned_number {bound n : Nat} (h : n < bound) :
    parseUnsigned bound (number n) = .ok n := by
  have hval : Nat.ofDigitChars 10 (number n) 0 = n := Nat.ofDigitChars_ten_toDigits
  rw [parseUnsigned_of_digits (number_ne_nil n) (fun _ hc => isDigit_of_mem_number hc),
    parseDigits_eq _ _ (fun _ hc => isDigit_of_mem_number hc) (by rw [hval]; exact h), hval]

/-- A text that starts with neither a digit nor a `+` is not a number. -/
theorem parseUnsigned_cons_error {cs : Text} (hplus : c ≠ '+') (hc : c.isDigit = false) :
    parseUnsigned bound (c :: cs) = .error "invalid digit found in string" := by
  have hloop : parseDigits bound 0 (c :: cs) = .error "invalid digit found in string" := by
    simp only [parseDigits, hc, Bool.false_eq_true, if_false]
  unfold parseUnsigned
  split
  · next h => exact absurd h (cons_ne_nil _ _)
  · rfl
  · rfl
  · next h => exact absurd (List.cons.inj h).1 hplus
  · exact hloop

theorem parseU32_number (n : UInt32) : parseU32 (number n.toNat) = .ok n := by
  unfold parseU32
  rw [parseUnsigned_number n.toNat_lt]
  show Except.ok (UInt32.ofNat n.toNat) = Except.ok n
  rw [UInt32.ofNat_toNat]

theorem parseUsize_number (n : UInt64) : parseUsize (number n.toNat) = .ok n := by
  unfold parseUsize
  rw [parseUnsigned_number n.toNat_lt]
  show Except.ok (UInt64.ofNat n.toNat) = Except.ok n
  rw [UInt64.ofNat_toNat]

theorem not_isWhitespace_of_isDigit (h : c.isDigit = true) :
    isWhitespace c = false := by
  have hval : 48 ≤ c.toNat ∧ c.toNat ≤ 57 := by
    simp only [Char.isDigit, Bool.and_eq_true, decide_eq_true_eq] at h
    exact ⟨UInt32.le_iff_toNat_le.mp h.1, UInt32.le_iff_toNat_le.mp h.2⟩
  simp only [isWhitespace, Bool.or_eq_false_iff, Bool.and_eq_false_iff, decide_eq_false_iff_not,
    beq_eq_false_iff_ne]
  omega

theorem trim_number (n : Nat) : trim (number n) = number n :=
  trim_eq_self
    (fun _ h => not_isWhitespace_of_isDigit (isDigit_of_mem_number (mem_of_head? h)))
    (fun _ h => not_isWhitespace_of_isDigit (isDigit_of_mem_number (mem_of_getLast? h)))

/-! ## §4. UTF-8. -/

/-- Where a text stops being UTF-8: the length of the valid part, and of the
malformed sequence unless the input ends inside it. -/
structure Utf8Error where
  validUpTo : Nat
  errorLen : Option Nat
  deriving Repr, DecidableEq

/-- `Display` for `Utf8Error`. -/
def Utf8Error.render (e : Utf8Error) : String :=
  match e.errorLen with
  | some n => "invalid utf-8 sequence of " ++ toString n ++ " bytes from index "
      ++ toString e.validUpTo
  | none => "incomplete utf-8 byte sequence from index " ++ toString e.validUpTo

/-- A continuation byte. -/
def isContinuation (b : UInt8) : Bool := 0x80 ≤ b && b ≤ 0xBF

/-- The second byte a three-byte sequence may have after `b0`. -/
def secondOfThree (b0 b1 : UInt8) : Bool :=
  if b0 = 0xE0 then 0xA0 ≤ b1 && b1 ≤ 0xBF
  else if b0 = 0xED then 0x80 ≤ b1 && b1 ≤ 0x9F
  else isContinuation b1

/-- The second byte a four-byte sequence may have after `b0`. -/
def secondOfFour (b0 b1 : UInt8) : Bool :=
  if b0 = 0xF0 then 0x90 ≤ b1 && b1 ≤ 0xBF
  else if b0 = 0xF4 then 0x80 ≤ b1 && b1 ≤ 0x8F
  else isContinuation b1

/-- The payload bits of a continuation byte. -/
def payload (b : UInt8) : Nat := b.toNat % 64

/-- `str::from_utf8` on the bytes from index `i` on. -/
def fromUtf8From (i : Nat) : List UInt8 → Except Utf8Error Text
  | [] => .ok []
  | b0 :: rest =>
    if b0 < 0x80 then
      (fromUtf8From (i + 1) rest).map (Char.ofNat b0.toNat :: ·)
    else if 0xC2 ≤ b0 && b0 ≤ 0xDF then
      match rest with
      | [] => .error ⟨i, none⟩
      | b1 :: rest =>
        if isContinuation b1 then
          (fromUtf8From (i + 2) rest).map
            (Char.ofNat (b0.toNat % 32 * 64 + payload b1) :: ·)
        else .error ⟨i, some 1⟩
    else if 0xE0 ≤ b0 && b0 ≤ 0xEF then
      match rest with
      | [] => .error ⟨i, none⟩
      | b1 :: rest =>
        if secondOfThree b0 b1 then
          match rest with
          | [] => .error ⟨i, none⟩
          | b2 :: rest =>
            if isContinuation b2 then
              (fromUtf8From (i + 3) rest).map
                (Char.ofNat (b0.toNat % 16 * 4096 + payload b1 * 64 + payload b2) :: ·)
            else .error ⟨i, some 2⟩
        else .error ⟨i, some 1⟩
    else if 0xF0 ≤ b0 && b0 ≤ 0xF4 then
      match rest with
      | [] => .error ⟨i, none⟩
      | b1 :: rest =>
        if secondOfFour b0 b1 then
          match rest with
          | [] => .error ⟨i, none⟩
          | b2 :: rest =>
            if isContinuation b2 then
              match rest with
              | [] => .error ⟨i, none⟩
              | b3 :: rest =>
                if isContinuation b3 then
                  (fromUtf8From (i + 4) rest).map
                    (Char.ofNat (b0.toNat % 8 * 262144 + payload b1 * 4096
                      + payload b2 * 64 + payload b3) :: ·)
                else .error ⟨i, some 3⟩
            else .error ⟨i, some 2⟩
        else .error ⟨i, some 1⟩
    else .error ⟨i, some 1⟩

/-- `str::from_utf8`. -/
def fromUtf8 (bs : List UInt8) : Except Utf8Error Text := fromUtf8From 0 bs

example : fromUtf8 [0x41, 0xC3, 0xA9, 0xE2, 0x82, 0xAC, 0xF0, 0x9F, 0x98, 0x80]
    = .ok ['A', 'é', '€', '😀'] := by rfl

example : (fromUtf8 [0x41, 0xED, 0xA0, 0x80] = .error ⟨1, some 1⟩)
    ∧ (fromUtf8 [0xE2, 0x82] = .error ⟨0, none⟩) := ⟨by rfl, by rfl⟩

/-- The loop of `String::from_utf8_lossy`; each round takes a byte at least. -/
def fromUtf8LossyFuel : Nat → List UInt8 → Text
  | 0, _ => []
  | fuel + 1, bs =>
    match fromUtf8 bs with
    | .ok s => s
    | .error ⟨validUpTo, errorLen⟩ =>
      let valid := match fromUtf8 (bs.take validUpTo) with
        | .ok s => s
        | .error _ => []
      match errorLen with
      | none => valid ++ [Char.ofNat 0xFFFD]
      | some len =>
        valid ++ Char.ofNat 0xFFFD :: fromUtf8LossyFuel fuel (bs.drop (validUpTo + len))

/-- `String::from_utf8_lossy`: each invalid sequence becomes one replacement
character. -/
def fromUtf8Lossy (bs : List UInt8) : Text := fromUtf8LossyFuel bs.length bs

example : fromUtf8Lossy [0x41, 0xFF, 0x42, 0xE2, 0x82] = ['A', '\uFFFD', 'B', '\uFFFD'] := by
  rfl

/-- The UTF-8 bytes of a text. -/
def toUtf8 (s : Text) : List UInt8 := s.flatMap String.utf8EncodeChar

end RustText
