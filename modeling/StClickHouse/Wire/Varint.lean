/-
  StClickHouse.Wire.Varint
  **VARINTS READ BACK.**

  Every varint decoder is the loop over some source of bytes, and the loop accepts
  exactly the bytes of a varint (`varint_ok_iff`): groups of seven bits, lowest first,
  at most ten of them, with a value of 64 bits.  What `encode_varint` writes is one.
  The loop keeps `acc < 2 ^ shift`, so that the `|` of the source is an addition.
-/
import StClickHouse.Wire.Recorded

namespace StClickHouse

open ByteReader RustText List

/-! ## §1. What the bytes of a varint say. -/

/-- The value of groups of seven bits, lowest first. -/
def groups : Bytes → Nat
  | [] => 0
  | b :: bs => b.toNat % 128 + 128 * groups bs

/-- Every byte but the last announces another one. -/
def Closed : Bytes → Prop
  | [] => False
  | b :: bs => if b.toNat < 128 then bs = [] else Closed bs

variable {bs : Bytes}

theorem closed_last {b : UInt8} (h : b.toNat < 128) : Closed (b :: bs) ↔ bs = [] := by
  rw [Closed, if_pos h]

theorem closed_more {b : UInt8} (h : ¬ b.toNat < 128) :
    Closed (b :: bs) ↔ Closed bs := by
  rw [Closed, if_neg h]

/-- The bytes are a varint of this value. -/
structure IsVarint (e : Bytes) (v : Nat) : Prop where
  closed : Closed e
  short : e.length ≤ 10
  value : v = groups e
  fits : v < 2 ^ 64

variable {v : Nat}

theorem IsVarint.pos {e : Bytes} (h : IsVarint e v) : 0 < e.length := by
  cases e with
  | nil => exact h.closed.elim
  | cons b bs => exact Nat.succ_pos _

theorem groups_lt (e : Bytes) : groups e < 2 ^ (7 * e.length) := by
  induction e with
  | nil => exact Nat.one_pos
  | cons b bs ih =>
    have hpow : 2 ^ (7 * (bs.length + 1)) = 128 * 2 ^ (7 * bs.length) := by
      rw [mul_add, pow_add]
      ring
    show b.toNat % 128 + 128 * groups bs < 2 ^ (7 * (bs.length + 1))
    omega

theorem toNat_ofNat_of_lt {n : Nat} (h : n < 256) : (UInt8.ofNat n).toNat = n := by
  rw [UInt8.toNat_ofNat']
  exact Nat.mod_eq_of_lt h

theorem encodeVarintFuel_closed : ∀ (fuel v : Nat), 0 < fuel → v < 2 ^ (7 * fuel) →
    Closed (encodeVarintFuel fuel v) ∧ (encodeVarintFuel fuel v).length ≤ fuel ∧
      groups (encodeVarintFuel fuel v) = v := by
  intro fuel
  induction fuel with
  | zero => exact fun _ hpos => absurd hpos (lt_irrefl 0)
  | succ fuel ih =>
    intro v _ hv
    unfold encodeVarintFuel
    by_cases hlast : v < 128
    · rw [if_pos hlast]
      have hbyte := @toNat_ofNat_of_lt v (by omega)
      refine ⟨(closed_last (by omega)).mpr rfl, Nat.succ_le_succ (Nat.zero_le _), ?_⟩
      show (UInt8.ofNat v).toNat % 128 + 128 * 0 = v
      omega
    rw [if_neg hlast]
    have hbyte := @toNat_ofNat_of_lt (v % 128 + 128) (by omega)
    have hpow : 2 ^ (7 * (fuel + 1)) = 128 * 2 ^ (7 * fuel) := by
      rw [mul_add, pow_add]
      ring
    have hfuel : 0 < fuel := by
      by_contra hzero
      have hnil : fuel = 0 := by omega
      rw [hnil] at hv
      omega
    obtain ⟨hclosed, hlen, hgroups⟩ := ih (v / 128) hfuel (Nat.div_lt_of_lt_mul (by omega))
    refine ⟨(closed_more (by omega)).mpr hclosed, Nat.succ_le_succ hlen, ?_⟩
    show (UInt8.ofNat (v % 128 + 128)).toNat % 128 + 128 * groups _ = v
    rw [hgroups, hbyte]
    omega

/-- **What `encode_varint` writes is a varint.** -/
theorem isVarint_encode (h : v < 2 ^ 64) : IsVarint (encodeVarint v) v := by
  obtain ⟨hclosed, hlen, hgroups⟩ := encodeVarintFuel_closed 10 v (by decide)
    (lt_trans h (by decide))
  exact ⟨hclosed, hlen, hgroups.symm, h⟩

/-! ## §2. The loop. -/

section Loop

variable {σ : Type} {next : Read σ UInt8} {exhausted : Read σ Nat}

/-- The source hands out these bytes one after the other. -/
def Yields (next : Read σ UInt8) : σ → Bytes → σ → Prop
  | s, [], t => s = t
  | s, b :: bs, t => ∃ s', next s = (.ok b, s') ∧ Yields next s' bs t

theorem or_shiftLeft_eq_add {acc shift b : Nat} (h : acc < 2 ^ shift) :
    acc ||| b <<< shift = acc + b * 2 ^ shift := by
  rw [Nat.or_comm, ← Nat.shiftLeft_add_eq_or_of_lt h, Nat.shiftLeft_eq, add_comm]

/-- A byte at `shift` goes on inside 64 bits, unless it is the tenth with more than one. -/
theorem byte_fits {acc shift left b : Nat} (hleft : shift + 7 * (left + 1) = 70)
    (hacc : acc < 2 ^ shift) (hb : b < 128) :
    acc + b * 2 ^ shift < 2 ^ (shift + 7) ∧ (¬ (shift = 63 ∧ b > 1) ↔ acc + b * 2 ^ shift < 2 ^ 64) := by
  have hpow : 2 ^ (shift + 7) = 128 * 2 ^ shift := by
    rw [Nat.pow_add, Nat.mul_comm]
  have hle : b * 2 ^ shift ≤ 127 * 2 ^ shift := Nat.mul_le_mul_right _ (by omega)
  refine ⟨by omega, ?_⟩
  by_cases hlast : shift = 63
  · subst hlast
    omega
  · have hfits : 2 ^ (shift + 7) ≤ 2 ^ 64 := Nat.pow_le_pow_right (by decide) (by omega)
    omega

/-- The loop in its middle: `left` bytes may come, the next one at `shift`. -/
theorem varintLoop_ok_iff (hfails : ∀ s, ∃ e t, exhausted s = (.error e, t)) (left shift acc : Nat)
    {s t : σ} :
    shift + 7 * left = 70 → acc < 2 ^ shift →
      (varintLoop next exhausted left shift acc s = (.ok v, t) ↔
        ∃ e, Yields next s e t ∧ Closed e ∧ e.length ≤ left ∧ v = acc + groups e * 2 ^ shift ∧
          v < 2 ^ 64) := by
  induction left generalizing shift acc s t v with
  | zero =>
    intro _ _
    obtain ⟨e, s', hfail⟩ := hfails s
    constructor
    · intro h
      rw [varintLoop, hfail] at h
      cases h
    rintro ⟨bytes, _, hclosed, hlen, _⟩
    rw [eq_nil_of_length_eq_zero (Nat.le_zero.mp hlen)] at hclosed
    exact hclosed.elim
  | succ left ih =>
    intro hleft hacc
    unfold varintLoop
    rw [bind_eq_ok_iff]
    -- both sides begin with one byte; the rest is compared for that byte
    have hstep : ∀ {b : UInt8} {s' : σ}, next s = (.ok b, s') →
        ((if shift = 63 ∧ b.toNat % 128 > 1 then fail varintOverflow
          else if b.toNat < 128 then return acc ||| (b.toNat % 128) <<< shift
          else varintLoop next exhausted left (shift + 7)
            (acc ||| (b.toNat % 128) <<< shift) : Read σ Nat) s' = (.ok v, t) ↔
        ∃ bs, Yields next s' bs t ∧ Closed (b :: bs) ∧ bs.length ≤ left ∧
          v = acc + groups (b :: bs) * 2 ^ shift ∧ v < 2 ^ 64) := by
      intro b s' _
      obtain ⟨hbelow, hfits⟩ := byte_fits hleft hacc (Nat.mod_lt b.toNat (by decide))
      have hsum : ∀ bs, acc + groups (b :: bs) * 2 ^ shift
          = acc + b.toNat % 128 * 2 ^ shift + groups bs * 2 ^ (shift + 7) := by
        intro bs
        rw [groups, pow_add]
        ring
      rw [or_shiftLeft_eq_add hacc]
      by_cases hover : shift = 63 ∧ b.toNat % 128 > 1
      · rw [if_pos hover]
        constructor
        · nofun
        rintro ⟨bs, _, _, _, hv, hlt⟩
        rw [hsum] at hv
        exact absurd hover (hfits.mpr (by omega))
      rw [if_neg hover]
      by_cases hlast : b.toNat < 128
      · rw [if_pos hlast]
        constructor
        · intro h
          cases h
          refine ⟨[], rfl, (closed_last hlast).mpr rfl, Nat.zero_le _, ?_, hfits.mp hover⟩
          rw [hsum, groups]
          ring
        rintro ⟨bs, hyields, hclosed, _, hv, _⟩
        obtain rfl := (closed_last hlast).mp hclosed
        cases hyields
        rw [hv, hsum, groups, zero_mul, add_zero]
        rfl
      · rw [if_neg hlast, ih (shift + 7) _ (by omega) hbelow]
        refine exists_congr fun bs => ?_
        rw [hsum, closed_more hlast]
    constructor
    · rintro ⟨b, s', hbyte, h⟩
      obtain ⟨bs, hyields, hclosed, hlen, hv⟩ := (hstep hbyte).mp h
      exact ⟨b :: bs, ⟨s', hbyte, hyields⟩, hclosed, Nat.succ_le_succ hlen, hv⟩
    rintro ⟨e, hyields, hclosed, hlen, hv⟩
    rcases e with _ | ⟨b, bs⟩
    · exact hclosed.elim
    obtain ⟨s', hbyte, hyields⟩ := hyields
    exact ⟨b, s', hbyte, (hstep hbyte).mpr
      ⟨bs, hyields, hclosed, Nat.le_of_succ_le_succ hlen, hv⟩⟩

/-- **The loop accepts the bytes of a varint, and nothing else.** -/
theorem varint_ok_iff (hfails : ∀ s, ∃ e t, exhausted s = (.error e, t)) {s t : σ} :
    varintLoop next exhausted 10 0 0 s = (.ok v, t) ↔ ∃ e, Yields next s e t ∧ IsVarint e v := by
  rw [varintLoop_ok_iff hfails 10 0 0 (by decide) (by decide)]
  refine exists_congr fun e => and_congr_right fun _ => ?_
  rw [Nat.pow_zero, mul_one, zero_add]
  exact ⟨fun ⟨hclosed, hlen, hv, hlt⟩ => ⟨hclosed, hlen, hv, hlt⟩,
    fun h => ⟨h.closed, h.short, h.value, h.fits⟩⟩

theorem yields_list {next : Read Bytes UInt8}
    (hcons : ∀ b rest, next (b :: rest) = (.ok b, rest))
    (hnil : ∃ e s, next [] = (.error e, s)) :
    ∀ {e s t : Bytes}, Yields next s e t ↔ s = e ++ t := by
  intro e
  induction e with
  | nil => exact fun {s t} => .rfl
  | cons b bs ih =>
    intro s t
    constructor
    · rintro ⟨s', hbyte, hyields⟩
      rcases s with _ | ⟨b', rest⟩
      · obtain ⟨e, s, hfail⟩ := hnil
        rw [hfail] at hbyte
        cases hbyte
      rw [hcons] at hbyte
      cases hbyte
      rw [ih.mp hyields]
      rfl
    · rintro rfl
      exact ⟨bs ++ t, hcons b _, ih.mpr rfl⟩

theorem fails_fail (e : Error) : ∀ s : σ, ∃ e' t, (fail e : Read σ Nat) s = (.error e', t) :=
  fun s => ⟨_, s, rfl⟩

end Loop

theorem readByte_cons (b : UInt8) (rest : Bytes) :
    (readByte : Read Bytes UInt8) (b :: rest) = (.ok b, rest) := by
  unfold readByte
  have hread : readExact (ε := Error) 1 (b :: rest) = (.ok [b], rest) :=
    readExact_list_iff.mpr ⟨rfl, rfl⟩
  rw [bind_ok hread]
  rfl

variable {rest : Bytes}

theorem readVarint_ok_iff :
    (readVarint : Read Bytes Nat) bs = (.ok v, rest) ↔
      ∃ e, bs = e ++ rest ∧ IsVarint e v := by
  unfold readVarint
  rw [varint_ok_iff (fails_fail _)]
  exact exists_congr fun e => and_congr_left fun _ => yields_list readByte_cons ⟨_, _, rfl⟩

/-- **A written varint is read back.** -/
theorem readVarint_encode {value : Nat} (h : value < 2 ^ 64) (rest : Bytes) :
    (readVarint : Read Bytes Nat) (encodeVarint value ++ rest)
      = (.ok value, rest) :=
  readVarint_ok_iff.mpr ⟨_, rfl, isVarint_encode h⟩

theorem sliceByte_cons (msg : String) (b : UInt8) (rest : Bytes) :
    sliceByte msg (b :: rest) = (.ok b, rest) := by
  unfold sliceByte
  have htake : sliceTake msg 1 (b :: rest) = (.ok [b], rest) := if_pos (by simp)
  rw [bind_ok htake]
  rfl

/-- The loop over a buffer, whatever it says where no byte may come any more. -/
theorem sliceLoop_ok_iff {msg : String} {exhausted : Read Slice Nat}
    (hfails : ∀ s, ∃ e t, exhausted s = (.error e, t)) :
    varintLoop (sliceByte msg) exhausted 10 0 0 bs = (.ok v, rest) ↔
      ∃ e, bs = e ++ rest ∧ IsVarint e v := by
  rw [varint_ok_iff hfails]
  exact exists_congr fun e => and_congr_left fun _ => yields_list (sliceByte_cons msg) ⟨_, _, rfl⟩

theorem sliceVarint_ok_iff {msg : String} :
    sliceVarint msg bs = (.ok v, rest) ↔ ∃ e, bs = e ++ rest ∧ IsVarint e v := by
  refine sliceLoop_ok_iff fun s => ?_
  cases s with
  | nil => exact ⟨_, _, rfl⟩
  | cons b bs => exact ⟨_, _, bind_ok (sliceByte_cons msg b bs)⟩

theorem sliceVarint_encode {value : Nat} (msg : String) (h : value < 2 ^ 64) (rest : Bytes) :
    sliceVarint msg (encodeVarint value ++ rest) = (.ok value, rest) :=
  sliceVarint_ok_iff.mpr ⟨_, rfl, isVarint_encode h⟩

/-! ## §3. How many bytes a varint takes. -/

theorem varintLenFuel_le (fuel j v : Nat) : 0 < j → v < 2 ^ (7 * j) → varintLenFuel fuel v ≤ j := by
  induction fuel generalizing j v with
  | zero =>
    intro _ _
    exact Nat.zero_le j
  | succ fuel ih =>
    intro hj hv
    unfold varintLenFuel
    by_cases hsmall : v < 128
    · rw [if_pos hsmall]
      exact hj
    rw [if_neg hsmall]
    obtain ⟨i, rfl⟩ : ∃ i, j = i + 1 := ⟨j - 1, by omega⟩
    have hpow : 2 ^ (7 * (i + 1)) = 128 * 2 ^ (7 * i) := by
      rw [mul_add, pow_add]
      ring
    have hi : 0 < i := by
      by_contra hzero
      have hnil : i = 0 := by omega
      rw [hnil] at hv
      omega
    have hdiv : v / 128 < 2 ^ (7 * i) := by
      rw [hpow] at hv
      exact Nat.div_lt_of_lt_mul hv
    have hrest := ih i (v / 128) hi hdiv
    omega

/-- A value of `j` groups of seven bits is written in at most `j` bytes. -/
theorem varintLen_le {j : Nat} (hj : 0 < j) (hv : v < 2 ^ (7 * j)) : varintLen v ≤ j :=
  varintLenFuel_le 10 j v hj hv

section Recorded

variable {σ : Type} [ByteStream Error σ]

variable {what : String} {r r' : Recorded σ}

/-- The bytes of a recording loop come off the stream, are kept, and are charged. -/
theorem yields_recorded {e : Bytes} :
    Yields (do
        let byte ← onStream readByte
        charge 1 what
        record [byte]
        return byte) r e r' ↔
      Yields readByte r.stream e r'.stream ∧ r'.out = r.out ++ e ∧ r'.budget + e.length = r.budget := by
  induction e generalizing r r' with
  | nil =>
    constructor
    · rintro rfl
      exact ⟨rfl, (append_nil _).symm, rfl⟩
    rintro ⟨hstream, hout, hbudget⟩
    cases r
    cases r'
    simp only [append_nil] at hout
    cases hstream
    cases hout
    cases hbudget
    rfl
  | cons b bs ih =>
    constructor
    · rintro ⟨r₁, hbyte, hyields⟩
      obtain ⟨byte, r₂, hread, hbyte⟩ := bind_eq_ok_iff.mp hbyte
      obtain ⟨_, r₃, hcharge, hbyte⟩ := bind_eq_ok_iff.mp hbyte
      cases hbyte
      obtain ⟨hread, hr₂⟩ := onStream_ok hread
      obtain ⟨hbudget, rfl⟩ := charge_ok hcharge
      obtain ⟨hrest, hout, hcost⟩ := ih.mp hyields
      rw [hr₂] at hbudget hout hcost
      refine ⟨⟨_, hread, hrest⟩, by rw [hout, append_assoc]; rfl, ?_⟩
      rw [length_cons]
      have hbudget' : 1 ≤ r.budget := hbudget
      have hcost' : r'.budget + bs.length = r.budget - 1 := hcost
      omega
    · rintro ⟨⟨s', hread, hyields⟩, hout, hcost⟩
      rw [length_cons] at hcost
      refine ⟨⟨s', r.out ++ [b], r.budget - 1⟩, ?_, ih.mpr ⟨hyields, by simp [hout], ?_⟩⟩
      · have hstream : onStream readByte r = (.ok b, { r with stream := s' }) := by
          unfold onStream
          rw [hread]
        have hcharge : charge 1 what { r with stream := s' }
            = (.ok (), { r with stream := s', budget := r.budget - 1 }) := by
          unfold charge chargeBudget
          rw [if_neg (show ¬ r.budget < 1 by omega)]
        rw [bind_ok hstream, bind_ok hcharge]
        rfl
      · show r'.budget + bs.length = r.budget - 1
        omega

/-- **A recorded varint**: its bytes come off the stream, are kept, and are charged. -/
theorem varintRecorded_ok_iff :
    varintRecorded what r = (.ok v, r') ↔ ∃ e, Yields readByte r.stream e r'.stream ∧ IsVarint e v ∧
      r'.out = r.out ++ e ∧ r'.budget + e.length = r.budget := by
  unfold varintRecorded
  rw [varint_ok_iff (fails_fail _)]
  refine exists_congr fun e => ?_
  rw [yields_recorded]
  tauto

theorem varintRecorded_ok (h : varintRecorded what r = (.ok v, r')) :
    readVarint r.stream = (.ok v, r'.stream) ∧ r'.budget + varintLen v ≤ r.budget := by
  obtain ⟨e, hyields, he, _, hcost⟩ := varintRecorded_ok_iff.mp h
  refine ⟨(varint_ok_iff (fails_fail _)).mpr ⟨e, hyields, he⟩, ?_⟩
  have hlen := varintLen_le he.pos (he.value ▸ groups_lt e)
  omega

end Recorded

end StClickHouse
