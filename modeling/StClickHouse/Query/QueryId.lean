/-
  StClickHouse.Query.QueryId
  **GENERATED QUERY IDS.**

  An id is a prefix and, in hexadecimal, the number of the process and the low
  half of a counter of the process.  Synchronous and asynchronous queries draw
  from one counter, batches from another one.  A call touches shared memory
  once, in its `fetch_add`, so threads interleave call by call; a forked child
  starts with the counters as the parent has left them.
-/
import StClickHouse.Lib.RustText
import StClickHouse.Lib.Runs

namespace StClickHouse.QueryId

open List Function RustText

/-! ## §1. One id. -/

/-- Who asks for an id: a synchronous client, an asynchronous query that was given none,
    or a batch. -/
inductive Caller where
  | sync | async | batch
  deriving DecidableEq

/-- The static counters, `QUERY_ID_COUNTER` of `query_id` and of `connection::batch`. -/
inductive Counter where
  | standard | batch
  deriving DecidableEq

def Caller.counter : Caller → Counter
  | .sync | .async => .standard
  | .batch => .batch

/-- The prefix that goes with each counter. -/
def Counter.text : Counter → List UInt8
  | .standard => toUtf8 "st-ch-".toList
  | .batch => toUtf8 "st-b-".toList

def hexDigit (digit : Nat) : UInt8 :=
  UInt8.ofNat (if digit < 10 then 48 + digit else 97 + (digit - 10))

/-- The loop over the shifts that are left, the highest first. -/
def hexDigits (n : Nat) : Nat → Bool → List UInt8
  | 0, _ => []
  | left + 1, started =>
    let digit := n >>> (4 * left) &&& 0x0f
    if digit ≠ 0 ∨ started ∨ 4 * left = 0 then hexDigit digit :: hexDigits n left true
    else hexDigits n left started

/-- `next_query_id_with_prefix`, for the value that `fetch_add` has returned. -/
def nextQueryIdWithPrefix (text : List UInt8) (process count : Nat) : List UInt8 :=
  text ++ hexDigits ((process &&& 0xffffffff) <<< 32 ||| (count &&& 0xffffffff)) 16 false

/-- What the bytes of a number in hexadecimal stand for. -/
def hexValue (a : Nat) (b : UInt8) : Nat :=
  16 * a + fromHexDigit b.toNat

theorem hexValue_hexDigit (a : Nat) {d : Nat} (h : d < 16) :
    hexValue a (hexDigit d) = 16 * a + d := by
  have key : ∀ d < 16, hexValue 0 (hexDigit d) = d := by decide
  have := key d h
  unfold hexValue at this ⊢
  omega

theorem digit_eq (n left : Nat) : n >>> (4 * left) &&& 0x0f = n / 16 ^ left % 16 := by
  rw [Nat.shiftRight_eq_div_pow, pow_mul]
  exact Nat.and_two_pow_sub_one_eq_mod _ 4

/-- The digits stand for the number, also where leading zeros have been left out. -/
theorem hexDigits_value (n left : Nat) (started : Bool) (a : Nat) (h : started = false → a = 0) :
    (hexDigits n left started).foldl hexValue a = 16 ^ left * a + n % 16 ^ left := by
  induction left generalizing started a with
  | zero => simp [hexDigits, Nat.mod_one]
  | succ left ih =>
    have hd : n / 16 ^ left % 16 < 16 := Nat.mod_lt _ (by decide)
    rw [Nat.mod_pow_succ, pow_succ, hexDigits, digit_eq]
    by_cases hw : n / 16 ^ left % 16 ≠ 0 ∨ started = true ∨ 4 * left = 0
    · rw [if_pos hw, foldl_cons, hexValue_hexDigit a hd, ih true _ nofun]
      simp only [mul_add, mul_assoc]
      omega
    · -- a leading zero: nothing has been written so far
      obtain ⟨hz, hs, -⟩ : n / 16 ^ left % 16 = 0 ∧ started = false ∧ _ := by simpa using hw
      rw [if_neg hw, ih started a h, hz, h hs]
      simp

theorem hexDigits_length (n left : Nat) (started : Bool) :
    (hexDigits n left started).length ≤ left := by
  induction left generalizing started with
  | zero => simp [hexDigits]
  | succ left ih =>
    rw [hexDigits]
    split
    · exact Nat.succ_le_succ (ih true)
    · exact Nat.le_succ_of_le (ih started)

/-- Process and counter as the code packs them. -/
theorem packed_eq (p c : Nat) :
    (p &&& 0xffffffff) <<< 32 ||| (c &&& 0xffffffff) = p % 2 ^ 32 * 2 ^ 32 + c % 2 ^ 32 := by
  rw [show p &&& 0xffffffff = p % 2 ^ 32 from Nat.and_two_pow_sub_one_eq_mod p 32,
    show c &&& 0xffffffff = c % 2 ^ 32 from Nat.and_two_pow_sub_one_eq_mod c 32,
    ← Nat.shiftLeft_add_eq_or_of_lt (Nat.mod_lt c (by decide)), Nat.shiftLeft_eq]

/-! ## §2. Processes and their calls. -/

/-- A generated id, by what it was made of. -/
structure Ticket where
  process : UInt32
  counter : Counter
  count : Nat
  deriving DecidableEq

def Ticket.id (t : Ticket) : List UInt8 :=
  nextQueryIdWithPrefix t.counter.text t.process.toNat t.count

/-- The counters of every process that has been started, and the ids so far, the last one
    first. -/
structure World where
  counters : UInt32 → Option (Counter → Nat)
  issued : List Ticket

inductive Action where
  | start (process : UInt32)
  | fork (parent child : UInt32)
  | call (process : UInt32) (caller : Caller)

/-- `counter.fetch_add(1)`, which wraps around, in a process whose counters are `c`. -/
def World.fetchAdd (w : World) (p : UInt32) (k : Counter) (c : Counter → Nat) : World :=
  ⟨update w.counters p (some (update c k ((c k + 1) % 2 ^ 64))), ⟨p, k, c k⟩ :: w.issued⟩

/-- One action: no two processes ever have the same number. -/
def World.step (w : World) : Action → Option World
  | .start p =>
    if w.counters p = none then
      some { w with counters := update w.counters p (some fun _ => 1) }
    else none
  | .fork parent child =>
    if w.counters child = none ∧ w.counters parent ≠ none then
      some { w with counters := update w.counters child (w.counters parent) }
    else none
  | .call p who => (w.counters p).map (w.fetchAdd p who.counter)

def World.empty : World := ⟨fun _ => none, []⟩

/-- How many calls a process has made with a prefix. -/
def World.calls (w : World) (p : UInt32) (k : Counter) : Nat :=
  w.issued.countP fun t => t.process = p ∧ t.counter = k

/-- At most `calls` steps of its counter lead from the ticket to `n`. -/
def Ticket.Behind (t : Ticket) (calls n : Nat) : Prop :=
  ∃ d, 0 < d ∧ d ≤ calls ∧ (t.count + d) % 2 ^ 64 = n % 2 ^ 64

/-- What holds of the tickets in every run. -/
structure InOrder (w : World) : Prop where
  behind : ∀ t ∈ w.issued, ∃ c, w.counters t.process = some c ∧
    t.Behind (w.calls t.process t.counter) (c t.counter)
  apart : w.issued.Pairwise fun t u => t.process = u.process → t.counter = u.counter →
    u.Behind (w.calls u.process u.counter) t.count

variable {w : World}

/-- A process that is new has no tickets. -/
theorem InOrder.of_new (h : InOrder w) {p : UInt32} (hp : w.counters p = none)
    (c : Option (Counter → Nat)) : InOrder { w with counters := update w.counters p c } := by
  refine ⟨fun t ht => ?_, h.apart⟩
  obtain ⟨c', hc, hb⟩ := h.behind t ht
  refine ⟨c', ?_, hb⟩
  show update w.counters p c t.process = some c'
  rw [update_of_ne, hc]
  intro he
  rw [he, hp] at hc
  cases hc

theorem World.calls_fetchAdd (w : World) (p q : UInt32) (k j : Counter) (c : Counter → Nat) :
    (w.fetchAdd p k c).calls q j = w.calls q j + if p = q ∧ k = j then 1 else 0 := by
  simp [World.calls, World.fetchAdd, countP_cons]

theorem InOrder.fetchAdd (h : InOrder w) {p : UInt32} {c : Counter → Nat}
    (hp : w.counters p = some c) (k : Counter) : InOrder (w.fetchAdd p k c) := by
  constructor
  · intro t ht
    rcases mem_cons.mp ht with rfl | ht
    · exact ⟨_, update_self .., 1, by omega, by simp [World.calls_fetchAdd], by simp⟩
    obtain ⟨c', hc, d, h0, hd, he⟩ := h.behind t ht
    by_cases hsame : t.process = p
    · subst hsame
      cases hp.symm.trans hc
      refine ⟨_, update_self .., ?_⟩
      rw [World.calls_fetchAdd]
      by_cases hk : t.counter = k
      · -- the counter has moved on by one
        subst hk
        rw [update_self, if_pos ⟨rfl, rfl⟩]
        exact ⟨d + 1, by omega, by omega, by omega⟩
      · rw [update_of_ne hk]
        exact ⟨d, h0, by omega, he⟩
    · exact ⟨c', (update_of_ne hsame ..).trans hc, d, h0, by rw [World.calls_fetchAdd]; omega, he⟩
  · refine pairwise_cons.mpr ⟨fun u hu hpu hku => ?_, h.apart.imp fun hb hpu hku => ?_⟩
    · obtain ⟨c', hc, d, h0, hd, he⟩ := h.behind u hu
      subst hpu hku
      cases hp.symm.trans hc
      exact ⟨d, h0, by rw [World.calls_fetchAdd]; omega, he⟩
    · obtain ⟨d, h0, hd, he⟩ := hb hpu hku
      exact ⟨d, h0, by rw [World.calls_fetchAdd]; omega, he⟩

theorem InOrder.step {w' : World} {a : Action} (h : InOrder w) (hs : w.step a = some w') :
    InOrder w' := by
  cases a with
  | start p =>
    obtain ⟨hp, rfl⟩ := of_guard hs
    exact h.of_new hp _
  | fork parent child =>
    obtain ⟨⟨hp, -⟩, rfl⟩ := of_guard hs
    exact h.of_new hp _
  | call p who =>
    obtain ⟨c, hc, rfl⟩ := Option.map_eq_some_iff.mp hs
    exact h.fetchAdd hc who.counter

/-! ## §3. No two ids are the same. -/

/-- An id determines its prefix, its process and the low half of its count. -/
theorem Ticket.id_inj {t u : Ticket} (h : t.id = u.id) :
    t.counter = u.counter ∧ t.process = u.process ∧ t.count % 2 ^ 32 = u.count % 2 ^ 32 := by
  obtain ⟨p, k, m⟩ := t
  obtain ⟨q, j, n⟩ := u
  simp only [Ticket.id, nextQueryIdWithPrefix, packed_eq] at h ⊢
  by_cases hk : k = j
  · subst hk
    -- the digits read back as the number
    have hv := congrArg (foldl hexValue 0) (append_cancel_left h)
    simp only [hexDigits_value _ _ _ _ fun _ => rfl] at hv
    have hp := p.toNat_lt
    have hq := q.toNat_lt
    refine ⟨rfl, UInt32.toNat_inj.mp ?_, ?_⟩ <;> omega
  · -- the prefixes differ in their fourth byte
    have h4 : ∀ k : Counter, 4 ≤ k.text.length := fun k => by cases k <;> decide
    have hb := congrArg (take 4) h
    rw [take_append_of_le_length (h4 k), take_append_of_le_length (h4 j)] at hb
    cases k <;> cases j <;> first | exact absurd rfl hk | exact absurd hb (by decide)

theorem Ticket.id_length (t : Ticket) : t.id.length ≤ 22 := by
  have ht : t.counter.text.length ≤ 6 := by cases t.counter <;> decide
  have hd := hexDigits_length
    ((t.process.toNat &&& 0xffffffff) <<< 32 ||| (t.count &&& 0xffffffff)) 16 false
  rw [Ticket.id, nextQueryIdWithPrefix, length_append]
  omega

/-- **GENERATED QUERY IDS NEVER COLLIDE.**  Processes start, fork and draw ids for their
    synchronous and asynchronous queries and their batches, in any order; while no process has
    made `2 ^ 32` calls with one prefix, all ids are pairwise distinct, no standard id is a
    batch id, and each fits the buffer. -/
theorem ids_pairwise_distinct (as : List Action) (w : World)
    (hrun : Run World.step (fun _ _ => True) World.empty as w)
    (hfew : ∀ p k, w.calls p k < 2 ^ 32) :
    (w.issued.map Ticket.id).Nodup ∧
      (∀ t ∈ w.issued, ∀ u ∈ w.issued, t.counter = .standard → u.counter = .batch →
        t.id ≠ u.id) ∧
      ∀ t ∈ w.issued, t.id.length ≤ 22 := by
  have hI : InOrder w :=
    hrun.invariant (fun _ _ _ h _ => h.step) ⟨nofun, .nil⟩
  refine ⟨pairwise_map.mpr (hI.apart.imp fun {t u} hb hid => ?_), fun t _ u _ ht hu hid => ?_,
    fun t _ => t.id_length⟩
  · -- fewer than `2 ^ 32` steps of the counter lie between the two
    obtain ⟨hk, hp, hm⟩ := Ticket.id_inj hid
    obtain ⟨d, h0, hd, he⟩ := hb hp hk
    have := hfew u.process u.counter
    omega
  · cases (ht.symm.trans (Ticket.id_inj hid).1).trans hu

/-- A child that is forked between two queries of its parent. -/
def forkBetween : List Action :=
  [.start 7, .call 7 .sync, .fork 7 8, .call 7 .async, .call 8 .async, .call 7 .batch]

theorem ids_distinct_forkBetween : ∃ w, exec World.step World.empty forkBetween = some w ∧
    (w.issued.map Ticket.id).Nodup ∧ w.issued.length = 4 := by
  refine ⟨_, rfl, (ids_pairwise_distinct forkBetween _ (.of_exec rfl) fun p k => ?_).1, rfl⟩
  exact countP_le_length.trans_lt (show (4 : Nat) < 2 ^ 32 by decide)

end StClickHouse.QueryId
