/-
  StClickHouse.Wire.Recorded
  **READING WITH A RECORDING AGAINST READING WITHOUT.**

  The recording readers of both engines move the stream like plain readers, keep
  what they read, and may stop earlier because of a cap.  The lemmas here lift a
  simulation of the stream primitives to the recording primitives.
-/
import StClickHouse.Wire.Primitives

namespace StClickHouse

open ByteReader RustText

/-! ## §1. Primitives on two streams. -/

section Primitives

variable {σ τ : Type} (L : Logic Error σ τ) {varintA : Read σ Nat}
  {varintB : Read τ Nat} {bytesA : Nat → Read σ Bytes}
  {bytesB : Nat → Read τ Bytes}

theorem varintLoop_rel {nextA : Read σ UInt8} {nextB : Read τ UInt8}
    {exhaustedA : Read σ Nat} {exhaustedB : Read τ Nat}
    (hnext : L.rel Eq nextA nextB) (hexhausted : L.rel Eq exhaustedA exhaustedB) :
    ∀ left shift acc, L.rel Eq (varintLoop nextA exhaustedA left shift acc)
      (varintLoop nextB exhaustedB left shift acc) := by
  intro left
  induction left with
  | zero =>
    intro shift acc
    exact hexhausted
  | succ left ih =>
    intro shift acc
    exact L.both hnext fun byte => L.ite L.fail (L.ite (L.pure rfl) (ih _ _))

theorem blockInfoLoop_rel (hvarint : L.rel Eq varintA varintB)
    (hbytes : ∀ n, L.rel Eq (bytesA n) (bytesB n)) : ∀ fuel,
    L.rel Eq (blockInfoLoop varintA bytesA fuel) (blockInfoLoop varintB bytesB fuel) := by
  intro fuel
  induction fuel with
  | zero => exact L.tooDeep
  | succ fuel ih =>
    refine L.both hvarint fun d => ?_
    refine L.ite (L.both (hbytes 1) fun _ => ih) ?_
    refine L.ite (L.both (hbytes 4) fun _ => ih) ?_
    exact L.ite (L.both hvarint fun _ => ih) (L.pure rfl)

theorem blockCounts_rel (hvarint : L.rel Eq varintA varintB) :
    L.rel Eq (blockCounts varintA) (blockCounts varintB) :=
  L.both hvarint fun _ => L.lift fun _ => L.both hvarint fun _ => L.lift fun _ => L.pure rfl

variable [ByteStream Error σ] [ByteStream Error τ]
  (hexact : ∀ n, L.rel Eq (readExact n) (readExact n))

include hexact

theorem readByte_rel : L.rel Eq readByte readByte := L.both (hexact 1) fun _ => L.pure rfl

theorem readU64_rel : L.rel Eq readU64 readU64 := L.both (hexact 8) fun _ => L.pure rfl

theorem readVarint_rel : L.rel Eq readVarint readVarint :=
  varintLoop_rel L (readByte_rel L hexact) L.fail 10 0 0

theorem discardWindows_rel (window : Nat) : ∀ fuel len : Nat,
    L.rel Eq (discardWindows window fuel len) (discardWindows window fuel len)
  | 0, _ => L.pure rfl
  | fuel + 1, _ => L.ite (L.pure rfl) (L.both (hexact _) fun _ => discardWindows_rel window fuel _)

end Primitives

/-- The steps of a recorded read, on two recordings. -/
structure Records {σ τ : Type} [ByteStream Error σ] [ByteStream Error τ]
    (L : Logic Error (Recorded σ) (Recorded τ)) : Prop where
  exact : ∀ n, L.rel Eq (onStream (readExact n)) (onStream (readExact n))
  byte : L.rel Eq (onStream readByte) (onStream readByte)
  charge : ∀ len what, L.rel Eq (charge len what) (charge len what)
  record : ∀ bs, L.rel Eq (record bs) (record bs)

namespace Records

variable {σ τ : Type} [ByteStream Error σ] [ByteStream Error τ]
  {L : Logic Error (Recorded σ) (Recorded τ)} (h : Records L) (what : String)

include h

theorem take (len : Nat) : L.rel Eq (takeRecorded what len) (takeRecorded what len) := by
  refine L.ite L.fail (L.both (h.charge len what) fun _ => ?_)
  exact L.both (h.exact len) fun bs => L.both (h.record bs) fun _ => L.pure rfl

theorem varint : L.rel Eq (varintRecorded what) (varintRecorded what) := by
  refine varintLoop_rel L (L.both h.byte fun byte => ?_) L.fail 10 0 0
  exact L.both (h.charge 1 what) fun _ => L.both (h.record [byte]) fun _ => L.pure rfl

end Records

/-- The async varint reader is the common loop, its first step unrolled. -/
theorem readVarintAsync_eq {σ : Type} [ByteStream Error σ] :
    (readVarintAsync : Read σ Nat) = readVarint := by
  refine congrArg (readByte >>= ·) (funext fun byte => ?_)
  unfold varintAfter
  have hshift : ¬ (0 = 63 ∧ byte.toNat % 128 > 1) := by omega
  rw [if_neg hshift, Nat.shiftLeft_zero, Nat.zero_or]
  by_cases hlast : byte.toNat < 128
  · rw [if_pos hlast, if_pos hlast, Nat.mod_eq_of_lt hlast]
  · rw [if_neg hlast, if_neg hlast, Nat.zero_add]

/-! ## §2. Recordings. -/

section Recording

variable {σ τ α β γ : Type} {c : Corr Error Error σ τ} {R : α → β → Prop}

/-- A correspondence of streams, where the left stream is being recorded. -/
def recordedCorr (c : Corr Error Error σ τ) : Corr Error Error (Recorded σ) τ where
  state := fun r t => c.state r.stream t
  left := c.left
  right := c.right

/-- The left side may stop because of a cap. -/
def Corr.AllowsCaps (c : Corr Error Error σ τ) : Prop :=
  ∀ e : Error, e.isCap = true → c.left (.error e)

variable {y : Read τ β} {what : String} {r r' : Recorded σ} {len : Nat}

theorem onStream_sim {x : Read σ α} (h : Sim c R x y) :
    Sim (recordedCorr c) R (onStream x) y := by
  intro r t hst
  have hxy := h r.stream t hst
  unfold onStream
  rcases hx : x r.stream with ⟨res, s⟩
  rw [hx] at hxy
  rcases hy : y t with ⟨q, t'⟩
  rw [hy] at hxy
  cases res <;> cases q <;> exact hxy

theorem onStream_ok {α : Type} {x : Read σ α} {a : α} (h : onStream x r = (.ok a, r')) :
    x r.stream = (.ok a, r'.stream) ∧ r' = { r with stream := r'.stream } := by
  unfold onStream at h
  rcases hx : x r.stream with ⟨res, s⟩
  rw [hx] at h
  cases h
  exact ⟨rfl, rfl⟩

theorem record_left {f : Unit → Read (Recorded σ) α}
    {bs : Bytes} (h : Sim (recordedCorr c) R (f ()) y) :
    Sim (recordedCorr c) R (record bs >>= f) y :=
  fun r t hst => h { r with out := r.out ++ bs } t hst

theorem chargeBudget_error {budget len : Nat} {e : Error}
    (h : chargeBudget budget len what = .error e) : e.isCap = true := by
  unfold chargeBudget at h
  by_cases hlt : budget < len
  · rw [if_pos hlt] at h
    cases h
    rfl
  · rw [if_neg hlt] at h
    cases h

theorem charge_ok (h : charge len what r = (.ok (), r')) :
    len ≤ r.budget ∧ r' = { r with budget := r.budget - len } := by
  unfold charge chargeBudget at h
  by_cases hlt : r.budget < len
  · rw [if_pos hlt] at h
    cases h
  rw [if_neg hlt] at h
  cases h
  exact ⟨by omega, rfl⟩

theorem charge_left (hcaps : Corr.AllowsCaps c) {f : Unit → Read (Recorded σ) α}
    (h : Sim (recordedCorr c) R (f ()) y) : Sim (recordedCorr c) R (charge len what >>= f) y := by
  intro r t hst
  rw [bind_apply]
  unfold charge
  cases hcharge : chargeBudget r.budget len what with
  | ok budget => exact h { r with budget := budget } t hst
  | error e =>
    exact Sim.fail_left (c := recordedCorr c) (hcaps e (chargeBudget_error hcharge)) r t hst

variable [ByteStream Error σ]

theorem takeRecorded_ok {bs : Bytes} (h : takeRecorded what len r = (.ok bs, r')) :
    readExact (ε := Error) len r.stream = (.ok bs, r'.stream) ∧ r'.out = r.out ++ bs
      ∧ r'.budget + len = r.budget := by
  unfold takeRecorded at h
  by_cases hcap : len > maxColumnBytes
  · rw [if_pos hcap] at h
    cases h
  rw [if_neg hcap] at h
  obtain ⟨_, r₁, hcharge, h⟩ := bind_eq_ok_iff.mp h
  obtain ⟨bs', r₂, hread, h⟩ := bind_eq_ok_iff.mp h
  cases h
  obtain ⟨hread, hr₂⟩ := onStream_ok hread
  obtain ⟨hbudget, rfl⟩ := charge_ok hcharge
  rw [hr₂]
  exact ⟨hread, rfl, Nat.sub_add_cancel hbudget⟩

theorem takeRecorded_sim (hcaps : Corr.AllowsCaps c)
    {S : Bytes → β → Prop} (h : Sim c S (readExact len) y) :
    Sim (recordedCorr c) S (takeRecorded what len) y := by
  unfold takeRecorded
  by_cases hcap : len > maxColumnBytes
  · rw [if_pos hcap]
    exact .fail_left (hcaps _ rfl)
  rw [if_neg hcap]
  refine charge_left hcaps ?_
  rw [← bind_pure y]
  refine .bind (onStream_sim h) fun bs b hS => ?_
  exact record_left (.pure hS)

theorem varintRecorded_sim (hcaps : Corr.AllowsCaps c)
    {next : Read τ UInt8} {exhausted : Read τ Nat}
    (hnext : Sim c Eq readByte next)
    (hexhausted : Sim (recordedCorr c) Eq (fail varintOverflow) exhausted) :
    Sim (recordedCorr c) Eq (varintRecorded what)
      (varintLoop next exhausted 10 0 0) := by
  refine varintLoop_rel (recordedCorr c).logic ?_ hexhausted 10 0 0
  rw [← bind_pure next]
  refine bind_both (onStream_sim hnext) fun byte => ?_
  exact charge_left hcaps (record_left (.pure rfl))

theorem readExact_zero [LawfulByteStream Error σ] :
    (readExact 0 : Read σ Bytes) = pure [] :=
  funext LawfulByteStream.zero

theorem readExactInto_sim [LawfulByteStream Error σ] (hcaps : Corr.AllowsCaps c)
    {S : Bytes → β → Prop} (h : Sim c S (readExact len) y) :
    Sim (recordedCorr c) S (readExactInto len) y := by
  unfold readExactInto
  by_cases hzero : len = 0
  · rw [if_pos hzero]
    rw [hzero, readExact_zero] at h
    exact onStream_sim h
  · rw [if_neg hzero]
    exact takeRecorded_sim hcaps h

omit [ByteStream Error σ] in
theorem recording_sim {x : Read (Recorded σ) Unit} {y : Read τ γ}
    (h : Sim (recordedCorr c) Any x y) :
    Sim c Any (recording x) y := by
  intro s t hst
  have hxy := h ⟨s, [], maxColumnBytes⟩ t hst
  unfold recording
  rcases hx : x ⟨s, [], maxColumnBytes⟩ with ⟨res, r⟩
  rw [hx] at hxy
  rcases hy : y t with ⟨q, t'⟩
  rw [hy] at hxy
  cases res <;> cases q <;> exact hxy

end Recording

end StClickHouse
