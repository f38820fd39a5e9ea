/-
  StClickHouse.Pool.Waiting
  **WAITING FOR A SLOT.**

  `SimplePool::get` (`pool.rs`) tries the lock of every slot once, beginning with the one
  the round robin assigns, and then waits for the assigned one only, until the acquire
  timeout has passed.  Slots are taken and let go of by any number of acquires in between,
  also in the middle of a sweep.

  Main results:
    * `timeout_is_busy` — where slots are let go of in turn, a PoolTimeout means that all
                          slots were in use all the time, and that every one that was let go
                          of meanwhile went to an acquire that had waited longer
    * `step_sound`      — what one step keeps of locks, acquires and queues
    * `unseen_release`  — a slot that is let go of where only a waiter for another one is left
-/
import StClickHouse.Lib.FairLock
import StClickHouse.Lib.Runs

namespace StClickHouse

open List Function

/-! ## §1. Slots and acquires. -/

/-- Where an acquire stands in `get`, in a pool of `n + 1` slots. -/
inductive GetState (n : Nat) where
  | idle
  /-- The sweep: when it was entered, the assigned slot and the slots still to be tried. -/
  | sweeping (entered : Nat) (idx : Fin (n + 1)) (rest : List (Fin (n + 1)))
  /-- All were busy: waiting for the assigned slot. -/
  | waiting (entered : Nat) (idx : Fin (n + 1))
  /-- The lock is taken; what `get` does next and the guard it returns keep it. -/
  | holding (slot : Fin (n + 1))
  /-- `Error::PoolTimeout`. -/
  | timedOut
  deriving DecidableEq

/-- The acquire has found the slot busy, or counts on not needing it, and will not look at it
again. -/
def GetState.PassedOver {n : Nat} : GetState n → Fin (n + 1) → Prop
  | .sweeping _ idx rest, i => i ≠ idx ∧ i ∉ rest
  | .waiting _ idx, i => i ≠ idx
  | _, _ => False

/-- The locks of a pool (`SimplePool::slots`) and the acquires that are under way.  `new`
makes one slot at least.  The waits are numbered in the order in which they begin; no step
depends on the numbers. -/
structure SlotLocks (n : Nat) where
  slots : Fin (n + 1) → FairLock Nat
  nextIdx : Nat
  clock : Nat
  acquireTimeout : Option Nat
  acquires : Nat → GetState n
  /-- The number of the wait an acquire is in. -/
  since : Nat → Nat
  /-- The number the next wait gets. -/
  waits : Nat

namespace SlotLocks

variable {n : Nat}

/-- `SimplePool::new`. -/
def new (n : Nat) (acquireTimeout : Option Nat) : SlotLocks n where
  slots _ := .free
  nextIdx := 0
  clock := 0
  acquireTimeout := acquireTimeout
  acquires _ := .idle
  since _ := 0
  waits := 0

/-- The order in which the slots are tried: `(0..len).map(|i| (idx + i) % len)`. -/
def sweepOrder (idx : Fin (n + 1)) : List (Fin (n + 1)) :=
  (List.range (n + 1)).map fun i => ⟨(idx.val + i) % (n + 1), Nat.mod_lt _ (Nat.succ_pos n)⟩

variable (p : SlotLocks n)

/-- An acquire goes on. -/
def move (t : Nat) (a : GetState n) : SlotLocks n :=
  { p with acquires := Function.update p.acquires t a }

/-- An acquire begins to wait. -/
def number (t : Nat) : SlotLocks n :=
  { p with since := Function.update p.since t p.waits, waits := p.waits + 1 }

/-- A lock changes. -/
def put (i : Fin (n + 1)) (l : FairLock Nat) : SlotLocks n :=
  { p with slots := Function.update p.slots i l }

/-- What acquires, holders and the clock do. -/
inductive Action where
  /-- `get` is entered: the round robin assigns a slot. -/
  | enter (t : Nat)
  /-- The sweep tries the next slot. -/
  | tryNext (t : Nat)
  /-- The sweep is over: `self.slots[idx].lock()`. -/
  | wait (t : Nat)
  /-- `get` fails behind the lock, or the guard is dropped. -/
  | release (t : Nat)
  /-- The future is dropped while it waits. -/
  | abandon (t : Nat)
  /-- The acquire timeout has passed. -/
  | timeout (t : Nat)
  | tick (d : Nat)
  deriving DecidableEq

/-- The slot is let go of; the first in its queue has it. -/
def handOver (i : Fin (n + 1)) : SlotLocks n :=
  match (p.slots i).queue with
  | [] => p.put i .free
  | v :: _ => (p.put i (p.slots i).unlock).move v (.holding i)

/-- One step. -/
def step : Action → Option (SlotLocks n)
  | .enter t =>
    match p.acquires t with
    | .idle | .timedOut =>
      let idx : Fin (n + 1) := ⟨p.nextIdx % (n + 1), Nat.mod_lt _ (Nat.succ_pos n)⟩
      some { p.move t (.sweeping p.clock idx (sweepOrder idx)) with
        nextIdx := (p.nextIdx + 1) % 2 ^ 64 }
    | _ => none
  | .tryNext t =>
    match p.acquires t with
    | .sweeping entered idx (i :: rest) =>
      match (p.slots i).tryLock t with
      | some l => some ((p.put i l).move t (.holding i))
      | none => some (p.move t (.sweeping entered idx rest))
    | _ => none
  | .wait t =>
    match p.acquires t with
    | .sweeping entered idx [] =>
      match (p.slots idx).holder with
      | none => some ((p.put idx ((p.slots idx).lock t)).move t (.holding idx))
      | some _ =>
        some (((p.put idx ((p.slots idx).lock t)).move t (.waiting entered idx)).number t)
    | _ => none
  | .release t =>
    match p.acquires t with
    | .holding i => some ((p.move t .idle).handOver i)
    | _ => none
  | .abandon t =>
    match p.acquires t with
    | .waiting _ idx => some ((p.put idx ((p.slots idx).leave t)).move t .idle)
    | _ => none
  | .timeout t =>
    match p.acquires t, p.acquireTimeout with
    | .waiting entered idx, some d =>
      if entered + d ≤ p.clock then
        some ((p.put idx ((p.slots idx).leave t)).move t .timedOut)
      else none
    | _, _ => none
  | .tick d => some { p with clock := p.clock + d }

/-- **Slots are let go of in turn**: one that nobody waits for only where nobody has passed
over it, and one that is waited for only where nobody has waited longer for another one. -/
def InTurn : Action → Prop
  | .release t => ∀ i, p.acquires t = .holding i →
      match (p.slots i).queue with
      | [] => ∀ u, ¬ (p.acquires u).PassedOver i
      | v :: _ => ∀ u e j, p.acquires u = .waiting e j → j ≠ i → p.since v < p.since u
  | _ => True

/-- A pool of one slot always does so. -/
theorem inTurn_of_oneSlot (p : SlotLocks 0) (act : Action) : p.InTurn act := by
  have hone : ∀ i j : Fin (0 + 1), i = j := by decide
  cases act with
  | release t =>
    intro i _
    split
    · intro u hover
      cases hu : p.acquires u with
      | sweeping entered idx rest =>
        rw [hu] at hover
        exact hover.1 (hone _ _)
      | waiting entered idx =>
        rw [hu] at hover
        exact hover (hone _ _)
      | idle | holding | timedOut =>
        rw [hu] at hover
        exact hover
    · intro u e j _ hj
      exact absurd (hone j i) hj
  | _ => trivial

/-! ## §2. Locks and acquires agree. -/

/-- A lock and the acquires agree about who holds it and who waits for it; a slot that was
passed over is in use. -/
structure SoundAt (acquires : Nat → GetState n) (i : Fin (n + 1)) (l : FairLock Nat) : Prop where
  holder : ∀ u, l.holder = some u ↔ acquires u = .holding i
  queued : ∀ u, u ∈ l.queue ↔ ∃ e, acquires u = .waiting e i
  nodup : l.queue.Nodup
  passed : ∀ u, (acquires u).PassedOver i → l.holder ≠ none

/-- All locks and the acquires agree. -/
def Sound : Prop := ∀ i, SoundAt p.acquires i (p.slots i)

/-- The acquire neither holds the slot nor waits for it. -/
def Away (a : GetState n) (i : Fin (n + 1)) : Prop :=
  a ≠ .holding i ∧ ∀ e, a ≠ .waiting e i

section Changes

variable {acquires : Nat → GetState n} {i : Fin (n + 1)} {l : FairLock Nat} {t : Nat}
  {a : GetState n}

theorem SoundAt.update {l' : FairLock Nat} (h : SoundAt acquires i l)
    (hholder : l'.holder = some t ↔ a = .holding i) (hqueued : t ∈ l'.queue ↔ ∃ e, a = .waiting e i)
    (hothers : ∀ u, u ≠ t → (l'.holder = some u ↔ l.holder = some u)
      ∧ (u ∈ l'.queue ↔ u ∈ l.queue) ∧ ((acquires u).PassedOver i → l'.holder ≠ none))
    (hnodup : l'.queue.Nodup) (hpassed : a.PassedOver i → l'.holder ≠ none) :
    SoundAt (update acquires t a) i l' := by
  constructor
  · intro u
    by_cases hu : u = t
    · subst hu
      rwa [update_self]
    · rw [update_of_ne hu, (hothers u hu).1]
      exact h.holder u
  · intro u
    by_cases hu : u = t
    · subst hu
      rwa [update_self]
    · rw [update_of_ne hu, (hothers u hu).2.1]
      exact h.queued u
  · exact hnodup
  intro u hover
  by_cases hu : u = t
  · subst hu
    rw [update_self] at hover
    exact hpassed hover
  · rw [update_of_ne hu] at hover
    exact (hothers u hu).2.2 hover

theorem some_ne_of_ne {u t : Nat} (hu : u ≠ t) : some t ≠ some u :=
  fun heq => hu (Option.some.inj heq).symm

theorem SoundAt.away (h : SoundAt acquires i l) (hbefore : Away (acquires t) i) (hafter : Away a i)
    (hpassed : a.PassedOver i → l.holder ≠ none) :
    SoundAt (Function.update acquires t a) i l := by
  refine h.update ?_ ?_ (fun u _ => ⟨.rfl, .rfl, h.passed u⟩) h.nodup hpassed
  · rw [h.holder]
    exact iff_of_false hbefore.1 hafter.1
  · rw [h.queued]
    exact iff_of_false (fun ⟨e, hw⟩ => hbefore.2 e hw) fun ⟨e, hw⟩ => hafter.2 e hw

theorem SoundAt.takes (h : SoundAt acquires i l) (hfree : l.holder = none) :
    SoundAt (Function.update acquires t (.holding i)) i (.taken t) := by
  refine h.update (iff_of_true rfl rfl) (iff_of_false not_mem_nil nofun) ?_ nodup_nil
    (fun _ => Option.some_ne_none t)
  intro u hu
  rw [hfree, l.waited hfree]
  exact ⟨iff_of_false (some_ne_of_ne hu) nofun, Iff.rfl, fun _ => Option.some_ne_none t⟩

theorem SoundAt.queues (h : SoundAt acquires i l) {holder entered : Nat}
    (hheld : l.holder = some holder) (haway : Away (acquires t) i) :
    SoundAt (Function.update acquires t (.waiting entered i)) i (l.lock t) := by
  have hnew : t ∉ l.queue := fun hmem => by
    obtain ⟨e, hw⟩ := (h.queued t).mp hmem
    exact haway.2 e hw
  have hother : holder ≠ t := fun heq => haway.1 ((h.holder t).mp (heq ▸ hheld))
  rw [FairLock.lock_of_held hheld]
  refine h.update ?_ ?_ ?_ ?_ (fun _ => Option.some_ne_none holder)
  · exact iff_of_false (some_ne_of_ne hother.symm) nofun
  · exact iff_of_true (mem_append_right _ (mem_singleton_self t)) ⟨entered, rfl⟩
  · intro u hu
    rw [hheld, mem_append, mem_singleton, or_iff_left hu]
    exact ⟨Iff.rfl, Iff.rfl, fun _ => Option.some_ne_none holder⟩
  · exact nodup_append.mpr ⟨h.nodup, nodup_singleton t,
      fun a ha b hb => fun heq => hnew (mem_singleton.mp hb ▸ heq ▸ ha)⟩

theorem SoundAt.leaves (h : SoundAt acquires i l) {entered : Nat}
    (hwait : acquires t = .waiting entered i) (haway : Away a i) (hpassed : ¬ a.PassedOver i) :
    SoundAt (Function.update acquires t a) i (l.leave t) := by
  refine h.update ?_ ?_ ?_ (h.nodup.filter _) (fun hover => absurd hover hpassed)
  · show l.holder = some t ↔ _
    rw [h.holder, hwait]
    exact iff_of_false nofun haway.1
  · show t ∈ l.queue.filter (· ≠ t) ↔ _
    rw [mem_filter, decide_eq_true_iff]
    exact iff_of_false (fun hmem => hmem.2 rfl) fun ⟨e, hw⟩ => haway.2 e hw
  intro u hu
  refine ⟨.rfl, ?_, h.passed u⟩
  show u ∈ l.queue.filter (· ≠ t) ↔ _
  rw [mem_filter, decide_eq_true_iff, and_iff_left hu]

/-- A slot is let go of that nobody waits for, and that nobody has passed over. -/
theorem SoundAt.frees (h : SoundAt acquires i l) (hhold : acquires t = .holding i)
    (hqueue : l.queue = []) (hseen : ∀ u, ¬ (acquires u).PassedOver i) :
    SoundAt (Function.update acquires t .idle) i .free := by
  have hholder : l.holder = some t := (h.holder t).mpr hhold
  refine h.update (iff_of_false nofun nofun) (iff_of_false not_mem_nil nofun) ?_
    nodup_nil nofun
  intro u hu
  rw [hholder, hqueue]
  exact ⟨iff_of_false nofun (some_ne_of_ne hu), .rfl, fun hover => absurd hover (hseen u)⟩

theorem SoundAt.hands (h : SoundAt acquires i l) (hhold : acquires t = .holding i) {v : Nat}
    {vs : List Nat} (hqueue : l.queue = v :: vs) :
    SoundAt (Function.update (Function.update acquires t .idle) v (.holding i)) i l.unlock := by
  have hholder : l.holder = some t := (h.holder t).mpr hhold
  have hnodup : v ∉ vs ∧ vs.Nodup := nodup_cons.mp (hqueue ▸ h.nodup)
  rw [FairLock.unlock_of_queued hqueue]
  constructor
  · intro u
    by_cases huv : u = v
    · subst huv
      rw [update_self]
      exact iff_of_true rfl rfl
    rw [update_of_ne huv]
    by_cases hut : u = t
    · subst hut
      rw [update_self]
      exact iff_of_false (some_ne_of_ne huv) nofun
    · rw [update_of_ne hut, ← h.holder, hholder]
      exact iff_of_false (some_ne_of_ne huv) (some_ne_of_ne hut)
  · intro u
    by_cases huv : u = v
    · subst huv
      rw [update_self]
      exact iff_of_false hnodup.1 nofun
    rw [update_of_ne huv]
    have hqueued := h.queued u
    rw [hqueue, mem_cons, or_iff_right huv] at hqueued
    by_cases hut : u = t
    · subst hut
      rw [update_self, hqueued, hhold]
      exact iff_of_false nofun nofun
    · rw [update_of_ne hut]
      exact hqueued
  · exact hnodup.2
  · intro u _
    exact Option.some_ne_none v

end Changes

/-! ## §3. Steps. -/

variable {p p' : SlotLocks n} {act : Action} {a : GetState n} {t entered : Nat}
  {i idx : Fin (n + 1)} {rest : List (Fin (n + 1))}

/-- A change of one slot and one acquire, which stays away from the other slots. -/
theorem Sound.put_move {l : FairLock Nat} (h : Sound p)
    (hslot : SoundAt (update p.acquires t a) i l)
    (hothers : ∀ j, j ≠ i → Away (p.acquires t) j ∧ Away a j
      ∧ (a.PassedOver j → (p.slots j).holder ≠ none)) :
    Sound ((p.put i l).move t a) := by
  intro j
  show SoundAt (update p.acquires t a) j (update p.slots i l j)
  by_cases hj : j = i
  · subst hj
    rwa [update_self]
  rw [update_of_ne hj]
  obtain ⟨hbefore, hafter, hpassed⟩ := hothers j hj
  exact (h j).away hbefore hafter hpassed

theorem Sound.moves (h : Sound p) (hbefore : ∀ j, Away (p.acquires t) j) (hafter : ∀ j, Away a j)
    (hpassed : ∀ j, a.PassedOver j → (p.slots j).holder ≠ none) : Sound (p.move t a) :=
  fun j => (h j).away (hbefore j) (hafter j) (hpassed j)

theorem away_of_sweeping (h : a = .sweeping entered idx rest) (j : Fin (n + 1)) : Away a j := by
  subst h
  exact ⟨nofun, nofun⟩

theorem away_waiting {i j : Fin (n + 1)} (h : j ≠ i) :
    Away (.waiting entered i) j :=
  ⟨nofun, fun _ heq => h (GetState.waiting.inj heq).2.symm⟩

theorem away_holding {i j : Fin (n + 1)} (h : j ≠ i) : Away (.holding i) j :=
  ⟨fun heq => h (GetState.holding.inj heq).symm, nofun⟩

theorem mem_sweepOrder (idx i : Fin (n + 1)) : i ∈ sweepOrder idx := by
  have hi := i.isLt
  refine mem_map.mpr ⟨(i.val + (n + 1) - idx.val) % (n + 1), ?_, ?_⟩
  · exact mem_range.mpr (Nat.mod_lt _ (Nat.succ_pos n))
  apply Fin.ext
  show (idx.val + (i.val + (n + 1) - idx.val) % (n + 1)) % (n + 1) = i.val
  rw [Nat.add_mod_mod, show idx.val + (i.val + (n + 1) - idx.val) = i.val + (n + 1) from by omega,
    Nat.add_mod_right, Nat.mod_eq_of_lt hi]

theorem away_of_out (h : a = .idle ∨ a = .timedOut) (j : Fin (n + 1)) :
    Away a j ∧ ¬ a.PassedOver j := by
  rcases h with rfl | rfl <;> exact ⟨⟨nofun, nofun⟩, nofun⟩

theorem Sound.enters (h : Sound p) (hout : p.acquires t = .idle ∨ p.acquires t = .timedOut) :
    Sound (p.move t (.sweeping entered idx (sweepOrder idx))) := by
  apply h.moves (fun j => (away_of_out hout j).1) (away_of_sweeping rfl)
  intro j hover
  exact absurd (mem_sweepOrder idx j) hover.2

theorem Sound.takes (h : Sound p) (hat : p.acquires t = .sweeping entered idx rest)
    (hfree : (p.slots i).holder = none) : Sound ((p.put i (.taken t)).move t (.holding i)) := by
  apply h.put_move ((h i).takes hfree)
  intro j hj
  exact ⟨away_of_sweeping hat j, away_holding hj, nofun⟩

theorem Sound.passes (h : Sound p)
    (hat : p.acquires t = .sweeping entered idx (i :: rest)) (hheld : (p.slots i).holder ≠ none) :
    Sound (p.move t (.sweeping entered idx rest)) := by
  apply h.moves (away_of_sweeping hat) (away_of_sweeping rfl)
  intro j hover
  by_cases hj : j = i
  · exact hj ▸ hheld
  apply (h j).passed t
  rw [hat]
  exact ⟨hover.1, fun hmem => (mem_cons.mp hmem).elim hj hover.2⟩

theorem Sound.waits {t holder : Nat} (h : Sound p)
    (hat : p.acquires t = .sweeping entered idx []) (hheld : (p.slots idx).holder = some holder) :
    Sound ((p.put idx ((p.slots idx).lock t)).move t (.waiting entered idx)) := by
  apply h.put_move ((h idx).queues hheld (away_of_sweeping hat idx))
  intro j hj
  refine ⟨away_of_sweeping hat j, away_waiting hj, fun _ => (h j).passed t ?_⟩
  rw [hat]
  exact ⟨hj, not_mem_nil⟩

theorem Sound.leaves
    (h : Sound p) (hat : p.acquires t = .waiting entered idx) (hout : a = .idle ∨ a = .timedOut) :
    Sound ((p.put idx ((p.slots idx).leave t)).move t a) := by
  apply h.put_move ((h idx).leaves hat (away_of_out hout idx).1 (away_of_out hout idx).2)
  intro j hj
  exact ⟨hat ▸ away_waiting hj, (away_of_out hout j).1,
    fun hover => absurd hover (away_of_out hout j).2⟩

theorem Sound.releases (h : Sound p) (hat : p.acquires t = .holding i)
    (hpassed : (p.slots i).queue = [] → ∀ u, ¬ (p.acquires u).PassedOver i) :
    Sound ((p.move t .idle).handOver i) := by
  have hidle : ∀ j, j ≠ i → SoundAt (Function.update p.acquires t .idle) j (p.slots j) := by
    intro j hj
    exact (h j).away (hat ▸ away_holding hj) ⟨nofun, nofun⟩ nofun
  intro j
  unfold handOver
  split
  · rename_i hnil
    show SoundAt (Function.update p.acquires t .idle) j (Function.update p.slots i .free j)
    by_cases hj : j = i
    · subst hj
      rw [Function.update_self]
      exact (h j).frees hat hnil (hpassed hnil)
    · rw [Function.update_of_ne hj]
      exact hidle j hj
  · rename_i v vs hcons
    show SoundAt (Function.update (Function.update p.acquires t .idle) v (.holding i)) j
      (Function.update p.slots i (p.slots i).unlock j)
    by_cases hj : j = i
    · subst hj
      rw [Function.update_self]
      exact (h j).hands hat hcons
    rw [Function.update_of_ne hj]
    have hqueued : v ∈ (p.slots i).queue := by
      rw [show (p.slots i).queue = v :: vs from hcons]
      exact mem_cons_self
    obtain ⟨e, hwait⟩ := ((h i).queued v).mp hqueued
    refine (hidle j hj).away ?_ (away_holding hj) nofun
    by_cases hvt : v = t
    · subst hvt
      rw [Function.update_self]
      exact ⟨nofun, nofun⟩
    · rw [Function.update_of_ne hvt, hwait]
      exact away_waiting hj

theorem InTurn.passed (h : p.InTurn (.release t)) (hat : p.acquires t = .holding i)
    (hnil : (p.slots i).queue = []) (u : Nat) : ¬ (p.acquires u).PassedOver i := by
  have hturn := h i hat
  rw [hnil] at hturn
  exact hturn u

/-- **What one step keeps**, as long as slots are let go of in turn. -/
theorem step_sound (h : Sound p) (hturn : p.InTurn act) (hstep : p.step act = some p') :
    Sound p' := by
  cases act <;> simp only [step] at hstep
  case enter t =>
    split at hstep <;> cases hstep
    · next hat => exact h.enters (.inl hat)
    · next hat => exact h.enters (.inr hat)
  case tryNext t =>
    split at hstep
    · rename_i entered idx i rest hat
      unfold FairLock.tryLock at hstep
      rcases hholder : (p.slots i).holder with _ | u
      · rw [hholder] at hstep
        cases hstep
        exact h.takes hat hholder
      rw [hholder] at hstep
      cases hstep
      exact h.passes hat (by rw [hholder]; exact Option.some_ne_none u)
    · cases hstep
  case wait t =>
    split at hstep
    · rename_i entered idx hat
      cases hholder : (p.slots idx).holder with
      | none =>
        have hlock : (p.slots idx).lock t = .taken t := by
          unfold FairLock.lock
          rw [hholder]
        rw [hholder, hlock] at hstep
        cases hstep
        exact h.takes hat hholder
      | some u =>
        rw [hholder] at hstep
        cases hstep
        exact h.waits hat hholder
    · cases hstep
  case release t =>
    split at hstep <;> cases hstep
    next i hat => exact h.releases hat (hturn.passed hat)
  case abandon t =>
    split at hstep <;> cases hstep
    next hat => exact h.leaves hat (.inl rfl)
  case timeout t =>
    split at hstep
    · rename_i hat _
      split at hstep <;> cases hstep
      exact h.leaves hat (.inr rfl)
    · cases hstep
  case tick d =>
    cases hstep
    exact h

/-! ## §4. Queues are in order. -/

/-- In every queue the waits stand in the order in which they have begun. -/
structure Ordered (p : SlotLocks n) : Prop where
  sorted : ∀ i, (p.slots i).queue.Pairwise fun u v => p.since u < p.since v
  begun : ∀ i, ∀ u ∈ (p.slots i).queue, p.since u < p.waits

/-- A step after which every queue is what is left of it. -/
theorem Ordered.shrinks (h : Ordered p) (hqueues : ∀ i, (p'.slots i).queue <+ (p.slots i).queue)
    (hsince : p'.since = p.since) (hwaits : p'.waits = p.waits) : Ordered p' where
  sorted i := by
    rw [hsince]
    exact (h.sorted i).sublist (hqueues i)
  begun i u hu := by
    rw [hsince, hwaits]
    exact h.begun i u ((hqueues i).subset hu)

theorem Ordered.put_move {l : FairLock Nat} (h : Ordered p)
    (hqueue : l.queue <+ (p.slots i).queue) : Ordered ((p.put i l).move t a) := by
  refine h.shrinks (fun j => ?_) rfl rfl
  show (update p.slots i l j).queue <+ (p.slots j).queue
  by_cases hj : j = i
  · subst hj
    rwa [update_self]
  · rw [update_of_ne hj]

theorem Ordered.waits (h : Ordered p) {holder : Nat} (hnew : ∀ j, t ∉ (p.slots j).queue)
    (hheld : (p.slots i).holder = some holder) :
    Ordered (((p.put i ((p.slots i).lock t)).move t a).number t) := by
  have hqueue : ∀ j, (update p.slots i ((p.slots i).lock t) j).queue
      = if j = i then (p.slots j).queue ++ [t] else (p.slots j).queue := by
    intro j
    by_cases hj : j = i
    · subst hj
      rw [update_self, if_pos rfl, FairLock.lock_of_held hheld]
    · rw [update_of_ne hj, if_neg hj]
  have hsame : ∀ j, ∀ u ∈ (p.slots j).queue, update p.since t p.waits u = p.since u :=
    fun j u hu => update_of_ne (fun heq : u = t => hnew j (heq ▸ hu)) _ _
  -- those who waited before keep their numbers, which are below the new one
  have hsorted : ∀ j, (p.slots j).queue.Pairwise
      fun u v => update p.since t p.waits u < update p.since t p.waits v := by
    intro j
    refine (h.sorted j).imp_of_mem fun hu hv hlt => ?_
    rwa [hsame j _ hu, hsame j _ hv]
  constructor
  · intro j
    show (update p.slots i _ j).queue.Pairwise _
    rw [hqueue]
    split
    · refine pairwise_append.mpr ⟨hsorted j, pairwise_singleton _ t, fun u hu v hv => ?_⟩
      rw [mem_singleton.mp hv]
      show update p.since t p.waits u < update p.since t p.waits t
      rw [hsame j u hu, update_self]
      exact h.begun j u hu
    · exact hsorted j
  · intro j u hu
    have hmem : u ∈ (p.slots j).queue ∨ u = t := by
      change u ∈ (update p.slots i _ j).queue at hu
      rw [hqueue] at hu
      split at hu
      · exact (mem_append.mp hu).imp_right mem_singleton.mp
      · exact .inl hu
    show update p.since t p.waits u < p.waits + 1
    rcases hmem with hmem | rfl
    · rw [hsame j u hmem]
      exact (h.begun j u hmem).trans (Nat.lt_succ_self _)
    · rw [update_self]
      exact Nat.lt_succ_self _

theorem Ordered.hands (h : Ordered p) : Ordered ((p.move t .idle).handOver i) := by
  have hmoved : Ordered (p.move t .idle) := h.shrinks (fun _ => .refl _) rfl rfl
  unfold handOver
  split
  · refine hmoved.shrinks (fun j => ?_) rfl rfl
    show (update p.slots i .free j).queue <+ (p.slots j).queue
    by_cases hj : j = i
    · subst hj
      rw [update_self]
      exact nil_sublist _
    · rw [update_of_ne hj]
  · rename_i v vs hcons
    refine hmoved.put_move ?_
    rw [FairLock.unlock_of_queued hcons, hcons]
    exact sublist_cons_self v vs

theorem step_ordered (h : Ordered p) (hsound : Sound p) (hstep : p.step act = some p') :
    Ordered p' := by
  have htaken : ∀ {i t a}, Ordered ((p.put i (.taken t)).move t a) := h.put_move (nil_sublist _)
  cases act <;> simp only [step] at hstep
  case enter t =>
    split at hstep <;> cases hstep
    all_goals exact h.shrinks (fun _ => .refl _) rfl rfl
  case tryNext t =>
    split at hstep
    · rename_i entered idx i rest hat
      unfold FairLock.tryLock at hstep
      rcases hholder : (p.slots i).holder with _ | u
      · rw [hholder] at hstep
        cases hstep
        exact htaken
      rw [hholder] at hstep
      cases hstep
      exact h.shrinks (fun _ => .refl _) rfl rfl
    · cases hstep
  case wait t =>
    split at hstep
    · rename_i entered idx hat
      cases hholder : (p.slots idx).holder with
      | none =>
        have hlock : (p.slots idx).lock t = .taken t := by
          unfold FairLock.lock
          rw [hholder]
        rw [hholder, hlock] at hstep
        cases hstep
        exact htaken
      | some u =>
        rw [hholder] at hstep
        cases hstep
        refine h.waits (fun j hmem => ?_) hholder
        obtain ⟨e, hw⟩ := ((hsound j).queued t).mp hmem
        rw [hat] at hw
        cases hw
    · cases hstep
  case release t =>
    split at hstep <;> cases hstep
    exact h.hands
  case abandon t =>
    split at hstep <;> cases hstep
    exact h.put_move filter_sublist
  case timeout t =>
    split at hstep
    · split at hstep <;> cases hstep
      exact h.put_move filter_sublist
    · cases hstep
  case tick d =>
    cases hstep
    exact h.shrinks (fun _ => .refl _) rfl rfl

/-! ## §5. Timeouts. -/

theorem new_sound (n : Nat) (acquireTimeout : Option Nat) : Sound (new n acquireTimeout) := by
  intro i
  constructor
  · intro u
    exact iff_of_false nofun nofun
  · intro u
    exact iff_of_false not_mem_nil nofun
  · exact nodup_nil
  · intro u hover
    exact absurd hover id

theorem new_ordered (n : Nat) (acquireTimeout : Option Nat) : Ordered (new n acquireTimeout) :=
  ⟨fun _ => .nil, fun _ _ hu => absurd hu not_mem_nil⟩

/-- **A waiter has reason to wait**: all slots are in use by others, and whichever of them is
let go of in turn, the waiter has it then, or one that has waited longer. -/
structure Justified (p : SlotLocks n) (t : Nat) : Prop where
  inUse : ∀ i, ∃ u, u ≠ t ∧ (p.slots i).holder = some u
  proceeds : ∀ u p', p.InTurn (.release u) → p.step (.release u) = some p' →
    ∃ i, p.acquires u = .holding i ∧ (p'.acquires t = .holding i
      ∨ ∃ v e, p.acquires v = .waiting e i ∧ p.since v < p.since t ∧ p'.acquires v = .holding i)

/-- All slots are in use where an acquire waits. -/
theorem Sound.inUse (h : Sound p) (hwait : p.acquires t = .waiting entered idx)
    (i : Fin (n + 1)) : ∃ u, u ≠ t ∧ (p.slots i).holder = some u := by
  have hheld : (p.slots i).holder ≠ none := by
    by_cases hi : i = idx
    · rw [hi]
      exact FairLock.isLocked_of_queued (((h idx).queued t).mpr ⟨entered, hwait⟩)
    apply (h i).passed t
    rw [hwait]
    exact hi
  obtain ⟨u, hu⟩ := Option.ne_none_iff_exists'.mp hheld
  refine ⟨u, ?_, hu⟩
  rintro rfl
  have hhold := ((h i).holder u).mp hu
  rw [hwait] at hhold
  cases hhold

/-- Where an acquire waits, a slot that is let go of has a queue, and the first in it is the
acquire itself or has waited longer. -/
theorem Sound.first (h : Sound p) (hordered : Ordered p)
    (hwait : p.acquires t = .waiting entered idx) {u : Nat} (hhold : p.acquires u = .holding i)
    (hturn : p.InTurn (.release u)) :
    ∃ v vs, (p.slots i).queue = v :: vs ∧ (v = t ∨ p.since v < p.since t) := by
  have hqueued : t ∈ (p.slots idx).queue := ((h idx).queued t).mpr ⟨entered, hwait⟩
  rcases hqueue : (p.slots i).queue with _ | ⟨v, vs⟩
  · have hi : i ≠ idx := by
      rintro rfl
      rw [hqueue] at hqueued
      exact not_mem_nil hqueued
    refine absurd ?_ (hturn.passed hhold hqueue t)
    rw [hwait]
    exact hi
  refine ⟨v, vs, rfl, ?_⟩
  by_cases hi : idx = i
  · -- in its own queue nobody overtakes
    subst hi
    rw [hqueue] at hqueued
    rcases mem_cons.mp hqueued with rfl | hlater
    · exact .inl rfl
    have hsorted := hordered.sorted idx
    rw [hqueue] at hsorted
    exact .inr (rel_of_pairwise_cons hsorted hlater)
  · have hlonger := hturn i hhold
    rw [hqueue] at hlonger
    exact .inr (hlonger t entered idx hwait hi)

/-- Where locks, acquires and queues agree, every waiter has reason to wait. -/
theorem Sound.justified (h : Sound p) (hordered : Ordered p)
    (hwait : p.acquires t = .waiting entered idx) : Justified p t where
  inUse := h.inUse hwait
  proceeds := by
    intro u p' hturn hstep
    simp only [step] at hstep
    split at hstep
    · rename_i i hhold
      cases hstep
      obtain ⟨v, vs, hcons, hfirst⟩ := h.first hordered hwait hhold hturn
      obtain ⟨e, hv⟩ := ((h i).queued v).mp (hcons ▸ mem_cons_self)
      have hgets : ((p.move u .idle).handOver i).acquires v = .holding i := by
        unfold handOver
        rw [show ((p.move u .idle).slots i).queue = v :: vs from hcons]
        exact update_self v _ _
      refine ⟨i, hhold, ?_⟩
      rcases hfirst with rfl | hlonger
      · exact .inl hgets
      · exact .inr ⟨v, e, hv, hlonger, hgets⟩
    · cases hstep

theorem waiting_of_timeout {p' : SlotLocks n} (hstep : p.step (.timeout t) = some p') :
    ∃ e idx, p.acquires t = .waiting e idx := by
  simp only [step] at hstep
  split at hstep
  · rename_i entered idx _ hat _
    exact ⟨entered, idx, hat⟩
  · cases hstep

/-- **A PoolTimeout means that no slot was free**, as long as slots are let go of in turn: at
every moment at which an acquire waits all slots are in use by others, and one that is let go
of goes to it, or to one that has waited longer; only a wait ends in a PoolTimeout. -/
theorem timeout_is_busy {acts : List Action} {q : SlotLocks n} {acquireTimeout : Option Nat}
    (hrun : Run step InTurn (new n acquireTimeout) acts q) :
    (∀ k s t e idx, exec step (new n acquireTimeout) (acts.take k) = some s →
        s.acquires t = .waiting e idx → Justified s t)
      ∧ ∀ t r, q.step (.timeout t) = some r → ∃ e idx, q.acquires t = .waiting e idx := by
  constructor
  · intro k s t e idx hexec hat
    obtain ⟨s', hexec', hprefix⟩ := hrun.take k
    cases hexec.symm.trans hexec'
    obtain ⟨hsound, hordered⟩ : Sound s ∧ Ordered s :=
      hprefix.invariant (I := fun s => Sound s ∧ Ordered s) (fun _ _ _ hs hturn hstep =>
          ⟨step_sound hs.1 hturn hstep, step_ordered hs.2 hs.1 hstep⟩)
        ⟨new_sound n acquireTimeout, new_ordered n acquireTimeout⟩
    exact hsound.justified hordered hat
  · intro t r hstep
    exact waiting_of_timeout hstep

/-- One slot, held by the first acquire while two others wait for it; it is let go of once. -/
def oneSlotRun : List Action :=
  [.enter 0, .tryNext 0, .enter 1, .tryNext 1, .wait 1, .enter 2, .tryNext 2, .wait 2,
    .release 0, .tick 5]

/-- The first waiter has it then, and the second one has reason to wait until it times out. -/
theorem timeout_is_busy_oneSlot :
    ∃ q : SlotLocks 0, exec step (new 0 (some 5)) oneSlotRun = some q
      ∧ q.acquires 1 = .holding 0 ∧ (q.step (.timeout 2)).isSome = true ∧ Justified q 2 := by
  have hdone : (exec step (new 0 (some 5)) oneSlotRun).isSome = true := by decide +kernel
  obtain ⟨q, hq⟩ := Option.isSome_iff_exists.mp hdone
  have hstate : ((exec step (new 0 (some 5)) oneSlotRun).map fun q =>
      (q.acquires 1, q.acquires 2, (q.step (.timeout 2)).isSome))
        = some (.holding 0, .waiting 0 0, true) := by
    decide +kernel
  rw [hq] at hstate
  obtain ⟨hfirst, hwaiting, htimeout⟩ : q.acquires 1 = .holding 0 ∧ q.acquires 2 = .waiting 0 0
      ∧ (q.step (.timeout 2)).isSome = true := by
    simpa using hstate
  have hrun : Run step InTurn (new 0 (some 5)) oneSlotRun q :=
    Run.of_exec_ok (fun a _ s => inTurn_of_oneSlot s a) hq
  exact ⟨q, hq, hfirst, htimeout, (timeout_is_busy hrun).1 10 q 2 0 0 hq hwaiting⟩

/-- Two slots in use; the third acquire waits for the first slot, and the second one is let go
of. -/
def twoSlotRun : List Action :=
  [.enter 0, .tryNext 0, .enter 1, .tryNext 1, .enter 2, .tryNext 2, .tryNext 2, .wait 2,
    .release 1, .tick 5]

/-- The same, with a fourth acquire that waits for the second slot. -/
def overtakenRun : List Action :=
  twoSlotRun.take 8 ++ [.enter 3, .tryNext 3, .tryNext 3, .wait 3, .release 1, .tick 5]

/-- The second slot is free from then on, or goes to the one that has waited less, and the
third acquire times out. -/
theorem unseen_release :
    (exec step (new 1 (some 5)) (twoSlotRun.take 9)).map
        (fun p => (p.acquires 2, (p.slots 1).holder)) = some (.waiting 0 0, none)
      ∧ (exec step (new 1 (some 5)) (twoSlotRun ++ [.timeout 2])).map
        (fun p => (p.acquires 2, (p.slots 1).holder)) = some (.timedOut, none)
      ∧ (exec step (new 1 (some 5)) (overtakenRun ++ [.timeout 2])).map
        (fun p => (p.acquires 2, (p.slots 1).holder)) = some (.timedOut, some 3) := by
  decide +kernel

end SlotLocks

end StClickHouse
