/-
  StClickHouse.Python.Wakeups
  **WAITING FOR A SLOT OF `ConnectionPool`.**

  The condition of the pool over its slots: the threads that wait in its queue, and those
  that have been taken out of it by `notify` and have not run since.  A wait that runs out
  of time leaves the queue when it has the lock again.
-/
import StClickHouse.Python.Slots

namespace StClickHouse.Python

open List

/-! ## §1. The condition. -/

/-- Whom a locked block wakes: `notify`, `notify_all` or neither. -/
inductive Wake where
  | nobody | one | all

namespace Slots

/-- The notification that goes with a step. -/
def wakes (min : Nat) (s : Slots) : SlotAction → Wake
  | .release _ c destroy =>
    if s.closed then .nobody
    else
      match s.all.find? (fun pc => s.client pc = c) with
      | none => .nobody
      | some pc => if destroy then .all else if pc ∈ s.lent then .one else .nobody
  | .growFail _ | .drop _ | .close => .all
  | .grow _ => if s.closed then .all else .nobody
  | .reap stale =>
    -- a `remove` that raises leaves the block before it notifies
    let reaped := s.reaped min stale
    if s.closed ∨ reaped = [] ∨ (s.unshelve reaped).all.length + reaped.length ≠ s.all.length then
      .nobody
    else .all
  | _ => .nobody

/-- The available slots and the capacity that is left. -/
def free (max : Nat) (s : Slots) : Nat := s.available.length + (max - (s.all.length + s.creating))

end Slots

/-- The thread that is in `_reserve`, with the lock. -/
def SlotAction.turn : SlotAction → Option Nat
  | .reserve t | .book t | .giveUp t => some t
  | _ => none

structure Waiting where
  slots : Slots
  waiters : List Nat
  notified : List Nat

inductive WaitAction where
  | act (a : SlotAction)
  /-- `_reserve` finds nothing and has time left. -/
  | wait (t : Nat)
  | expire (t : Nat)

namespace Waiting

def wake (w : Waiting) : Wake → Waiting
  | .nobody => w
  | .one => { w with waiters := w.waiters.tail, notified := w.notified ++ w.waiters.take 1 }
  | .all => { w with waiters := [], notified := w.notified ++ w.waiters }

def step (min max : Nat) (w : Waiting) : WaitAction → Option Waiting
  | .act a =>
    if a.turn.all (· ∉ w.waiters) then
      (w.slots.step min max a).map fun s =>
        wake ⟨s, w.waiters, a.turn.elim w.notified w.notified.erase⟩ (w.slots.wakes min a)
    else none
  | .wait t =>
    if t ∉ w.waiters ∧ w.slots.thread t = .idle ∧ !w.slots.closed ∧ w.slots.available = [] ∧
        max ≤ w.slots.all.length + w.slots.creating then
      some { w with waiters := w.waiters ++ [t], notified := w.notified.erase t }
    else none
  | .expire t => if t ∈ w.waiters then some { w with waiters := w.waiters.erase t } else none

def start (min : Nat) : Waiting := ⟨.start min, [], []⟩

end Waiting

/-! ## §2. What a step frees. -/

section Free

variable {min max : Nat} {s s' : Slots} {a : SlotAction}

/-- Reaping takes a slot for each unit of capacity that it frees. -/
theorem Slots.unshelve_free (pcs : List Nat) (h : pcs <+~ s.available) :
    (s.unshelve pcs).free max ≤ s.free max ∧ (s.unshelve pcs).closed = s.closed := by
  induction pcs generalizing s with
  | nil => exact ⟨le_rfl, rfl⟩
  | cons pc rest ih =>
    have hpc : pc ∈ s.available := h.subset mem_cons_self
    have hlen := length_erase_of_mem hpc
    have hpos := length_pos_of_mem hpc
    unfold Slots.unshelve
    split
    · next hall =>
      have hone := length_erase_of_mem hall
      obtain ⟨hfree, hclosed⟩ := @ih
        { s with available := s.available.erase pc, all := s.all.erase pc }
        (by simpa using h.erase pc)
      refine ⟨Nat.le_trans hfree ?_, hclosed⟩
      simp only [Slots.free, hone, hlen]
      omega
    · refine ⟨?_, rfl⟩
      simp only [Slots.free, hlen]
      omega

/-- What a step frees, by whom it wakes: a step that wakes nobody frees nothing, and the turn
    of a thread takes one of the free units where there is one. -/
def Slots.Frees (max : Nat) (s s' : Slots) (turn : Option Nat) : Wake → Prop
  | .nobody => s'.closed = s.closed ∧ s'.free max ≤ s.free max ∧
      (turn ≠ none → s.closed = true ∨ s'.free max = 0 ∨ s'.free max < s.free max)
  | .one => s'.closed = s.closed ∧ s'.free max ≤ s.free max + 1 ∧ turn = none
  | .all => turn = none

theorem Slots.Frees.refl : s.Frees max s none .nobody := ⟨rfl, le_rfl, nofun⟩

theorem Slots.frees_of_step (hstep : s.step min max a = some s') :
    s.Frees max s' a.turn (s.wakes min a) := by
  cases a with
  | reserve t =>
    unfold Slots.step at hstep
    dsimp only at hstep
    split at hstep
    · next pc rest hav =>
      obtain ⟨-, rfl⟩ := of_guard hstep
      show _ ∧ _ ∧ _
      simp only [Slots.free, Slots.setThread, hav, length_cons]
      exact ⟨trivial, by omega, fun _ => .inr (.inr (by omega))⟩
    · cases hstep
  | book t =>
    obtain ⟨⟨-, -, -, hroom⟩, rfl⟩ := of_guard hstep
    show _ ∧ _ ∧ _
    simp only [Slots.free, Slots.setThread]
    exact ⟨trivial, by omega, fun _ => .inr (.inr (by omega))⟩
  | giveUp t =>
    obtain ⟨⟨-, hwhy⟩, rfl⟩ := of_guard hstep
    refine ⟨rfl, le_rfl, fun _ => hwhy.imp_right fun hbusy => .inl ?_⟩
    obtain ⟨hav, hfull⟩ := hbusy
    simp only [Slots.free, Slots.setThread, hav, length_nil]
    omega
  | grow t =>
    obtain ⟨-, hgrow⟩ := of_guard_then hstep
    unfold Slots.wakes
    split at hgrow <;> cases hgrow
    · next hclosed =>
      rw [if_pos hclosed]
      rfl
    · next hopen =>
      rw [if_neg hopen]
      refine ⟨rfl, ?_, fun h => absurd rfl h⟩
      simp only [Slots.free, Slots.setThread, length_append, length_singleton]
      omega
  | handOut t | replace t =>
    obtain ⟨pc, -, rfl⟩ := Option.map_eq_some_iff.mp hstep
    show s.Frees max _ none .nobody
    split <;> exact .refl
  | growFail t | drop t | close => rfl
  | release t c destroy =>
    have hthread : ∀ r w, s.Frees max r none w →
        s.Frees max (if s.thread t = .holds c then r.setThread t (.gave c) else r) none w := by
      intro r w h
      split
      · cases w <;> exact h
      · exact h
    cases hstep
    refine hthread _ _ ?_
    show s.Frees max (s.giveBack c destroy) none (s.wakes min (.release t c destroy))
    unfold Slots.giveBack Slots.wakes
    dsimp only
    by_cases hclosed : s.closed = true
    · rw [if_pos hclosed, if_pos hclosed]
      exact .refl
    rw [if_neg hclosed, if_neg hclosed]
    rcases s.all.find? (fun pc => s.client pc = c) with _ | pc
    · exact .refl
    cases destroy with
    | true => rfl
    | false =>
      by_cases hlent : pc ∈ s.lent
      · simp only [if_pos hlent, Bool.false_eq_true, if_false]
        refine ⟨rfl, ?_, rfl⟩
        simp only [Slots.free, length_append, length_singleton]
        omega
      · simp only [if_neg hlent, Bool.false_eq_true, if_false]
        exact .refl
  | reap stale =>
    cases hstep
    unfold Slots.wakes
    dsimp only
    by_cases hclosed : s.closed = true
    · rw [if_pos hclosed, if_pos (.inl hclosed)]
      exact .refl
    have hsub : s.reaped min stale <+~ s.available :=
      ((take_sublist _ _).trans filter_sublist).subperm
    obtain ⟨hfree, hsame⟩ := @Slots.unshelve_free max s _ hsub
    rw [if_neg hclosed]
    split
    · exact ⟨hsame, hfree, fun h => absurd rfl h⟩
    · rfl

end Free

/-! ## §3. No wake-up is lost. -/

/-- Each thread is blocked once; and either none is left in the queue, or the pool is open and
    as many have been notified as there are free units. -/
structure Waiting.Served (max : Nat) (w : Waiting) : Prop where
  nodup : (w.waiters ++ w.notified).Nodup
  served : w.waiters = [] ∨ w.slots.closed = false ∧ w.slots.free max ≤ w.notified.length

/-- A notification moves threads from the queue to the notified ones. -/
theorem Waiting.wake_perm (w : Waiting) (k : Wake) :
    ((w.wake k).waiters ++ (w.wake k).notified).Perm (w.waiters ++ w.notified) := by
  obtain ⟨s, waiters, notified⟩ := w
  cases k with
  | nobody => exact .refl _
  | one =>
    rcases waiters with _ | ⟨t, rest⟩
    · simp [wake]
    show (rest ++ (notified ++ [t])).Perm _
    rw [← append_assoc]
    exact perm_append_singleton t _
  | all => exact @perm_append_comm _ notified waiters

theorem Waiting.Served.step {min max : Nat} {w w' : Waiting} {a : WaitAction}
    (h : w.Served max) (hstep : w.step min max a = some w') : w'.Served max := by
  obtain ⟨hnodup, hserved⟩ := h
  cases a with
  | wait t =>
    obtain ⟨⟨ht, -, hopen, hav, hfull⟩, rfl⟩ := of_guard hstep
    refine ⟨?_, .inr ⟨by simpa using hopen, ?_⟩⟩
    · rw [append_assoc]
      refine perm_middle.nodup_iff.mpr (nodup_cons.mpr
        ⟨fun hin => ?_, hnodup.sublist (erase_sublist.append_left _)⟩)
      exact (mem_append.mp hin).elim ht hnodup.of_append_right.not_mem_erase
    · simp only [Slots.free, hav, length_nil]
      omega
  | expire t =>
    obtain ⟨-, rfl⟩ := of_guard hstep
    refine ⟨hnodup.sublist (erase_sublist.append_right _), ?_⟩
    exact hserved.imp_left fun hnil => by rw [hnil, erase_nil]
  | act a =>
    obtain ⟨hturn, hact⟩ := of_guard_then hstep
    obtain ⟨s, hs, rfl⟩ := Option.map_eq_some_iff.mp hact
    have hfrees := Slots.frees_of_step hs
    -- a thread that takes its turn is notified no longer
    have hsub : a.turn.elim w.notified w.notified.erase <+ w.notified := by
      cases a.turn with
      | none => exact .refl _
      | some t => exact erase_sublist
    refine ⟨(wake_perm _ _).nodup_iff.mpr (hnodup.sublist (hsub.append_left _)), ?_⟩
    cases hk : w.slots.wakes min a with
    | all => exact .inl rfl
    | one =>
      rw [hk] at hfrees
      obtain ⟨hclosed, hfree, hnone⟩ := hfrees
      rcases hserved with hnil | ⟨hopen, hle⟩
      · exact .inl (by simp [wake, hnil])
      rcases hw : w.waiters with _ | ⟨t, rest⟩
      · exact .inl rfl
      refine .inr ⟨hclosed.trans hopen, ?_⟩
      simp only [wake, hnone, Option.elim, length_append, take_succ_cons, take_zero,
        length_singleton]
      omega
    | nobody =>
      rw [hk] at hfrees
      obtain ⟨hclosed, hfree, htaken⟩ := hfrees
      refine hserved.imp_right fun ⟨hopen, hle⟩ => ⟨hclosed.trans hopen, ?_⟩
      show s.free max ≤ (a.turn.elim w.notified w.notified.erase).length
      rcases ht : a.turn with _ | t
      · exact Nat.le_trans hfree hle
      have hone : w.notified.length - 1 ≤ (w.notified.erase t).length := by
        rw [length_erase]
        split <;> omega
      have := htaken (by simp [ht])
      simp only [hopen, Bool.false_eq_true, false_or] at this
      show s.free max ≤ (w.notified.erase t).length
      omega

/-- **NO WAKE-UP IS LOST.**  In every interleaving, while threads wait in the queue the pool is
    open and at least as many blocked threads have been notified as there are slots and units
    of capacity free; and an acquire that gives up on an open pool has found neither. -/
theorem no_wakeup_lost (min max : Nat) (as : List WaitAction) (w : Waiting)
    (hrun : Run (Waiting.step min max) (fun _ _ => True) (.start min) as w) :
    (w.waiters ++ w.notified).Nodup ∧
      (w.waiters = [] ∨ w.slots.closed = false ∧
        w.slots.available.length + (max - (w.slots.all.length + w.slots.creating))
          ≤ w.notified.length) ∧
      ∀ t w', w.step min max (.act (.giveUp t)) = some w' → w.slots.closed = false →
        w.slots.available = [] ∧ max ≤ w.slots.all.length + w.slots.creating := by
  obtain ⟨hnodup, hserved⟩ :=
    hrun.invariant (fun _ _ _ h _ => h.step) (⟨nodup_nil, .inl rfl⟩ : (Waiting.start min).Served max)
  refine ⟨hnodup, hserved, fun t w' hstep hopen => ?_⟩
  obtain ⟨s, hs, -⟩ := Option.map_eq_some_iff.mp (of_guard_then hstep).2
  simpa [hopen] using (of_guard hs).1.2

/-- One thread has the only slot, another waits for it, and the slot comes back. -/
def handOver : List WaitAction :=
  [.act (.book 0), .act (.grow 0), .wait 1, .act (.release 0 0 false)]

theorem no_wakeup_lost_handOver : ∃ w, exec (Waiting.step 0 1) (.start 0) handOver = some w ∧
    w.slots.available = [0] ∧ w.notified = [1] ∧ (w.waiters ++ w.notified).Nodup :=
  ⟨_, rfl, rfl, rfl, (no_wakeup_lost 0 1 handOver _ (.of_exec rfl)).1⟩

end StClickHouse.Python
