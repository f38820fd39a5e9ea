/-
  StClickHouse.Query.Retry
  **THE RETRY LOOPS.**

  `QueryBuilder::retry` and `execute` call an operation until it succeeds, fails
  for good, or has been called `send_retries` times, and sleep between two calls.
  The delay doubles with each attempt through `1u64 << attempt`; the crate is built
  with overflow checks, so from attempt 64 on the shift panics.

      retry_stops_iff  — both loops end as they should exactly when they make at
                         most 65 calls or one of the first 65 is final
-/
import StClickHouse.Wire.Limits

namespace StClickHouse

/-! ## §1. The loops. -/

namespace Error

def isTimeout : Error → Bool
  | .timeout _ => true
  | _ => false

/-- Worth another try: connection issues and timeouts. -/
def isRetryable : Error → Bool
  | .io _ | .timeout _ | .connectionClosed _ | .poolTimeout _ => true
  | _ => false

end Error

variable {α : Type}

/-- What a loop did: how often it called the operation, the milliseconds it
slept, and what it returned (nothing if it panicked). -/
structure Retried (α : Type) where
  calls : Nat
  slept : List Nat
  returned : Option (Result α)
  deriving DecidableEq

/-- `for attempt in attempt..attempt + left`, with a test that tells whether an
error is tried again and the delay before that, which may panic. -/
def retryLoop (again : Nat → Error → Bool) (delay : Nat → Option Nat)
    (op : Nat → Result α) : Nat → Nat → Retried α
  | 0, _ => ⟨0, [], none⟩ -- `unreachable!()`
  | left + 1, attempt =>
    match op attempt with
    | .ok value => ⟨1, [], some (.ok value)⟩
    | .error e =>
      if again attempt e then
        match delay attempt with
        | none => ⟨1, [], none⟩
        | some ms =>
          let rest := retryLoop again delay op left (attempt + 1)
          { rest with calls := rest.calls + 1, slept := ms :: rest.slept }
      else ⟨1, [], some (.error e)⟩

/-- A checked `u64` operation. -/
def checkedU64 (n : Nat) : Option Nat := if n < 2 ^ 64 then some n else none

def saturatedU64 (n : Nat) : Nat := min n (2 ^ 64 - 1)

/-- `base_ms.saturating_mul(1u64 << attempt)`; the base is cut to 64 bits. -/
def backoff (retryTimeoutMs attempt : Nat) : Option Nat :=
  if attempt < 64 then some (saturatedU64 (retryTimeoutMs % 2 ^ 64 * 2 ^ attempt)) else none

/-- `send_retries.max(1)`. -/
def retriesOf (sendRetries : UInt32) : Nat := max sendRetries.toNat 1

/-- `QueryBuilder::retry` over the outcomes `op` of its operation. -/
def QueryBuilder.retry (sendRetries : UInt32) (retryTimeoutMs : Nat) (deadline : Bool)
    (op : Nat → Result α) : Retried α :=
  retryLoop
    (fun attempt e => e.isRetryable && attempt + 1 < retriesOf sendRetries
      && !(deadline && e.isTimeout))
    (fun attempt => (backoff retryTimeoutMs attempt).map fun delay =>
      max (saturatedU64 (delay + delay / 4)) 1)
    op (retriesOf sendRetries) 0

/-- The retry loop of `execute`; `nanos` is the clock it takes the jitter from. -/
def executeRetried (sendRetries : UInt32) (retryTimeoutMs : Nat) (nanos : Nat → Nat)
    (deadline : Bool) (op : Nat → Result α) : Retried α :=
  retryLoop
    (fun attempt e => !(!e.isRetryable || attempt + 1 ≥ retriesOf sendRetries
      || (deadline && e.isTimeout)))
    (fun attempt => do
      let delay ← backoff retryTimeoutMs attempt
      let range := delay / 4
      let jitter ← if range > 0 then (checkedU64 (range * 2 + 1)).map fun n => nanos attempt % (n - range)
        else some 0
      return max (saturatedU64 (delay + jitter)) 1)
    op (retriesOf sendRetries) 0

/-! ## §2. Where they end. -/

/-- No loop goes on after this outcome: a success, an error that is not worth
another try, or a timeout under a deadline. -/
def isFinal (deadline : Bool) : Result α → Bool
  | .ok _ => true
  | .error e => !e.isRetryable || (deadline && e.isTimeout)

/-- Of a loop over `retries` attempts: it stops at `k`, the first attempt with a final
outcome or the last one, and returns that outcome as it is. -/
structure StopsAt (retries : Nat) (deadline : Bool) (op : Nat → Result α) (calls : Nat)
    (returned : Option (Result α)) (k : Nat) : Prop where
  bounded : k < retries
  calls : calls = k + 1
  returned : returned = some (op k)
  before : ∀ j < k, isFinal deadline (op j) = false
  last : isFinal deadline (op k) = true ∨ k + 1 = retries

/-- The loop ends as it should. -/
def Stops (retries : Nat) (deadline : Bool) (op : Nat → Result α) (r : Retried α) : Prop :=
  ∃ k, StopsAt retries deadline op r.calls r.returned k

section Loop

variable {op : Nat → Result α} {deadline : Bool} {retries left attempt : Nat}
  {again : Nat → Error → Bool} {delay : Nat → Option Nat}
  (hagain : ∀ attempt e, again attempt e
    = (!isFinal deadline (.error e : Result α) && decide (attempt + 1 < retries)))

include hagain

/-- An attempt that is the last one, or has a final outcome, ends the loop. -/
theorem retryLoop_last (hle : attempt < retries)
    (hbefore : ∀ j < attempt, isFinal deadline (op j) = false)
    (h : isFinal deadline (op attempt) = true ∨ attempt + 1 = retries) :
    StopsAt retries deadline op (attempt + (retryLoop again delay op (left + 1) attempt).calls)
      (retryLoop again delay op (left + 1) attempt).returned attempt := by
  refine ⟨hle, ?_, ?_, hbefore, h⟩
  all_goals
    unfold retryLoop
    cases hop : op attempt with
    | ok value => rfl
    | error e =>
      have hstop : again attempt e = false := by
        rw [hagain, ← hop]
        rcases h with h | h <;> simp [h]
      simp [hstop]

/-- From an attempt up to 64: the loop stops where it should, by attempt 64, or it
panics, with calls left and 65 outcomes that are not final. -/
theorem retryLoop_ends (hdelay : ∀ attempt, (delay attempt).isSome = decide (attempt < 64))
    {left attempt : Nat} :
    attempt + (left + 1) = retries → attempt ≤ 64 →
    (∀ j < attempt, isFinal deadline (op j) = false) →
    (∃ k < 65, StopsAt retries deadline op
        (attempt + (retryLoop again delay op (left + 1) attempt).calls)
        (retryLoop again delay op (left + 1) attempt).returned k)
      ∨ (65 < retries ∧ (∀ j < 65, isFinal deadline (op j) = false)
        ∧ (retryLoop again delay op (left + 1) attempt).returned = none) := by
  induction left generalizing attempt with
  | zero =>
    intro hsum hle hbefore
    exact .inl ⟨attempt, by omega, retryLoop_last hagain (by omega) hbefore (.inr hsum)⟩
  | succ left ih =>
    intro hsum hle hbefore
    by_cases hfinal : isFinal deadline (op attempt) = true
    · exact .inl ⟨attempt, by omega, retryLoop_last hagain (by omega) hbefore (.inl hfinal)⟩
    rw [Bool.not_eq_true] at hfinal
    have hupto := Nat.forall_lt_succ_right.mpr ⟨hbefore, hfinal⟩
    cases hop : op attempt with
    | ok value => rw [hop] at hfinal; cases hfinal
    | error e =>
      have hsome := hdelay attempt
      rw [hop] at hfinal
      rw [retryLoop, hop]
      simp only [hagain, hfinal, show attempt + 1 < retries by omega, Bool.not_false,
        decide_true, Bool.and_self, if_true]
      by_cases h64 : attempt < 64
      · obtain ⟨ms, hms⟩ := Option.isSome_iff_exists.mp (hsome.trans (decide_eq_true h64))
        have hnext := ih (show attempt + 1 + (left + 1) = retries by omega) (by omega) hupto
        rw [hms]
        simpa only [Nat.add_assoc, Nat.add_comm 1] using hnext
      obtain rfl : attempt = 64 := by omega
      rw [Option.isSome_eq_false_iff.mp hsome |> Option.isNone_iff_eq_none.mp]
      exact .inr ⟨by omega, hupto, rfl⟩

theorem retryLoop_stops_iff (hpos : 0 < retries)
    (hdelay : ∀ attempt, (delay attempt).isSome = decide (attempt < 64)) :
    Stops retries deadline op (retryLoop again delay op retries 0)
      ↔ retries ≤ 65 ∨ ∃ k < 65, isFinal deadline (op k) = true := by
  obtain ⟨left, rfl⟩ : ∃ left, retries = left + 1 := ⟨retries - 1, by omega⟩
  have hends := @retryLoop_ends _ op _ _ _ _ hagain hdelay left 0 (by omega) (by omega) nofun
  rw [Nat.zero_add] at hends
  rcases hends with ⟨k, hk, hstops⟩ | ⟨h65, hnot, hnone⟩
  · refine iff_of_true ⟨k, hstops⟩ ?_
    rcases hstops.last with hfinal | hlast
    · exact .inr ⟨k, hk, hfinal⟩
    · exact .inl (by omega)
  refine iff_of_false ?_ ?_
  · rintro ⟨k, hstops⟩
    rw [hnone] at hstops
    cases hstops.returned
  rintro (hle | ⟨k, hk, hfinal⟩)
  · omega
  · rw [hnot k hk] at hfinal
    cases hfinal

end Loop

theorem backoff_isSome (ms attempt : Nat) :
    (backoff ms attempt).isSome = decide (attempt < 64) := by
  unfold backoff
  split <;> simp [*]

/-- **Both retry loops call the operation up to its first final outcome, at most
`send_retries` times, and return the last outcome, exactly when they make at most
65 calls or one of the first 65 outcomes is final.**  Otherwise they panic. -/
theorem retry_stops_iff (sendRetries : UInt32) (retryTimeoutMs : Nat) (nanos : Nat → Nat)
    (deadline : Bool) (op : Nat → Result α) :
    let retries := retriesOf sendRetries
    let early := retries ≤ 65 ∨ ∃ k < 65, isFinal deadline (op k) = true
    (Stops retries deadline op (QueryBuilder.retry sendRetries retryTimeoutMs deadline op) ↔ early)
    ∧ (Stops retries deadline op (executeRetried sendRetries retryTimeoutMs nanos deadline op)
      ↔ early) := by
  have hpos : 0 < retriesOf sendRetries := by unfold retriesOf; omega
  refine ⟨retryLoop_stops_iff ?_ hpos ?_, retryLoop_stops_iff ?_ hpos ?_⟩
  · intro attempt e
    simp only [isFinal]
    cases e.isRetryable <;> simp [Bool.and_comm]
  · intro attempt
    rw [Option.isSome_map, backoff_isSome]
  · intro attempt e
    simp only [isFinal]
    cases e.isRetryable <;> simp [← decide_not, Bool.and_comm]
  intro attempt
  rw [← backoff_isSome retryTimeoutMs]
  rcases hbackoff : backoff retryTimeoutMs attempt with _ | delay
  · rfl
  -- twice a quarter of the delay, and one more, fits a word
  have hdelay : delay < 2 ^ 64 := by
    unfold backoff saturatedU64 at hbackoff
    grind
  have hrange : delay / 4 * 2 + 1 < 2 ^ 64 := by omega
  simp only [Option.bind_eq_bind, Option.bind_some, checkedU64, hrange, if_true]
  split <;> rfl

/-- **66 tries of a server that is down**: the loops panic after 65 calls. -/
theorem retry_panics :
    let down : Nat → Result Unit := fun _ => .error (.io .other)
    (QueryBuilder.retry 66 0 false down).calls = 65
      ∧ (QueryBuilder.retry 66 0 false down).returned = none
      ∧ (executeRetried 66 0 (fun _ => 0) false down).returned = none := by
  refine ⟨by rfl, by rfl, by rfl⟩

end StClickHouse
