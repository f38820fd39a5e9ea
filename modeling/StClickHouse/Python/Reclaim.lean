/-
  StClickHouse.Python.Reclaim
  **A CANCELLED `_acquire` GIVES ITS SLOT BACK.**

  `AsyncClient._acquire` runs `ConnectionPool.acquire` in a worker.  A task that is
  cancelled while it waits starts a reclaim thread, which looks every 10 ms whether the
  worker is done, and then releases its client; at its deadline it stops looking.

      reclaimed_not_lent — the slot is given back, where no worker outlasts the deadline
-/
import StClickHouse.Python.Slots

namespace StClickHouse.Python

open Function

/-- A task in `_acquire`: suspended, gone on, or cancelled with a reclaim thread that looks
    until its deadline, or that has ended. -/
inductive AcquireTask where
  | waiting
  | returned
  | cancelled (deadline : Nat)
  | reclaimed
deriving DecidableEq, Repr

/-- The pool, the clock in milliseconds, and the tasks; the worker of a task is the thread
    of its number. -/
structure Acquires where
  slots : Slots
  now : Nat
  task : Nat → AcquireTask
  /-- The worker was cancelled in the executor's queue: it never marks itself as done. -/
  unstarted : Nat → Bool

inductive ReclaimAction where
  | pool (a : SlotAction)
  | pass (ms : Nat)
  | resume (t : Nat)
  | cancel (t : Nat)
  | unqueue (t : Nat)
  /-- The reclaim thread looks. -/
  | poll (t : Nat)
deriving DecidableEq, Repr

namespace Acquires

def start (min : Nat) : Acquires := ⟨Slots.start min, 0, fun _ => .waiting, fun _ => false⟩

def setTask (s : Acquires) (t : Nat) (task : AcquireTask) : Acquires :=
  { s with task := Function.update s.task t task }

/-- Callers release what `_acquire` has returned to them. -/
def calls (s : Acquires) : SlotAction → Bool
  | .release t _ _ => s.task t = .returned
  | _ => true

/-- One step; `timeout` is `acquire_timeout`. -/
def step (min max timeout : Nat) (s : Acquires) : ReclaimAction → Option Acquires
  | .pool a =>
    if s.calls a then (s.slots.step min max a).map fun p => { s with slots := p } else none
  | .pass ms => some { s with now := s.now + ms }
  | .resume t =>
    match s.slots.thread t with
    | .holds _ | .failed =>
      if s.task t = .waiting then some (s.setTask t .returned) else none
    | _ => none
  | .cancel t =>
    if s.task t = .waiting then some (s.setTask t (.cancelled (s.now + timeout + 5000))) else none
  | .unqueue t =>
    match s.task t with
    | .cancelled _ =>
      if s.slots.thread t = .idle then
        some { s with
          slots := s.slots.setThread t .failed
          unstarted := Function.update s.unstarted t true }
      else none
    | _ => none
  | .poll t =>
    match s.task t with
    | .cancelled deadline =>
      match s.slots.thread t, s.unstarted t with
      | .holds c, _ =>
        (s.slots.step min max (.release t c false)).map fun p =>
          { s with slots := p }.setTask t .reclaimed
      | .failed, false => some (s.setTask t .reclaimed)
      | _, _ => if deadline ≤ s.now then some (s.setTask t .reclaimed) else none
    | _ => none

/-- The worker has a client or has failed, or it never starts. -/
def Ended : Thread → Prop
  | .holds _ | .failed => True
  | _ => False

/-- A reclaim thread that looks at its deadline or later finds the worker ended. -/
def InTime (s : Acquires) : ReclaimAction → Prop
  | .poll t => ∀ deadline, s.task t = .cancelled deadline → deadline ≤ s.now →
      Ended (s.slots.thread t)
  | _ => True

variable {min max timeout t c : Nat} {s s' : Acquires}

theorem step_distinct {a : ReclaimAction} (h : s.slots.Distinct)
    (hstep : s.step min max timeout a = some s') : s'.slots.Distinct := by
  cases a with
  | pool a =>
    obtain ⟨p, hp, rfl⟩ := Option.map_eq_some_iff.mp (of_guard_then hstep).2
    exact h.step hp
  | pass ms =>
    cases hstep
    exact h
  | resume t =>
    unfold step at hstep
    dsimp only at hstep
    split at hstep
    · exact (of_guard hstep).2 ▸ h
    · exact (of_guard hstep).2 ▸ h
    · cases hstep
  | cancel t => exact (of_guard hstep).2 ▸ h
  | unqueue t =>
    unfold step at hstep
    dsimp only at hstep
    split at hstep
    · obtain ⟨-, rfl⟩ := of_guard hstep
      exact ⟨h.fresh, h.known, h.apart, h.lent⟩
    · cases hstep
  | poll t =>
    unfold step at hstep
    dsimp only at hstep
    split at hstep
    · split at hstep
      · obtain ⟨p, hp, rfl⟩ := Option.map_eq_some_iff.mp hstep
        exact h.step hp
      · cases hstep
        exact h
      · exact (of_guard hstep).2 ▸ h
    · cases hstep

end Acquires

/-- A client has one slot, and a release leaves it unlent. -/
theorem Slots.Distinct.giveBack_unlent {s : Slots} (h : s.Distinct) (c : Nat) :
    (s.giveBack c false).closed = true ∨ ∀ pc ∈ (s.giveBack c false).all,
      (s.giveBack c false).client pc = c → pc ∉ (s.giveBack c false).lent := by
  unfold Slots.giveBack
  split
  · next hclosed => exact .inl hclosed
  refine .inr ?_
  split
  · next hfind =>
    intro pc hpc hclient
    exact absurd (decide_eq_true hclient) (List.find?_eq_none.mp hfind pc hpc)
  · next qc hfind =>
    have hqc : s.client qc = c := by simpa using List.find?_some hfind
    have honly : ∀ pc ∈ s.all, s.client pc = c → pc = qc := fun pc hpc hclient =>
      h.apart pc hpc qc (List.mem_of_find?_eq_some hfind) (hclient.trans hqc.symm)
    rw [if_neg Bool.false_ne_true]
    split
    · intro pc hpc hclient
      exact honly pc hpc hclient ▸ h.lent.not_mem_erase
    · next hnot => exact fun pc hpc hclient => honly pc hpc hclient ▸ hnot

/-- **A cancelled acquire leaks no slot**, in every run in which no reclaim thread stops
    looking before its worker has ended: when the reclaim thread ends, the worker has failed,
    or its client has been released and has no lent slot, unless the pool is closed. -/
theorem reclaimed_not_lent {min max timeout t : Nat} {as : List ReclaimAction} {s s' : Acquires}
    (hrun : Run (Acquires.step min max timeout) Acquires.InTime (Acquires.start min) as s)
    (hok : s.InTime (.poll t)) (hpoll : s.step min max timeout (.poll t) = some s') :
    s'.task t = .reclaimed ∧ (s'.slots.thread t = .failed ∨ ∃ c, s'.slots.thread t = .gave c ∧
      (s'.slots.closed = true ∨
        ∀ pc ∈ s'.slots.all, s'.slots.client pc = c → pc ∉ s'.slots.lent)) := by
  have hd : s.slots.Distinct := hrun.invariant (I := fun s => s.slots.Distinct)
    (fun _ _ _ h _ hs => Acquires.step_distinct h hs) (Slots.Distinct.start min)
  unfold Acquires.step at hpoll
  dsimp only at hpoll
  split at hpoll
  · next deadline htask =>
    split at hpoll
    · next c hthread =>
      simp only [Slots.step, hthread, if_true, Option.map_some, Option.some.injEq] at hpoll
      cases hpoll
      refine ⟨update_self .., .inr ⟨c, update_self .., ?_⟩⟩
      exact hd.giveBack_unlent c
    · next hthread _ =>
      cases hpoll
      exact ⟨update_self .., .inl hthread⟩
    · next hnot _ =>
      obtain ⟨hlate, rfl⟩ := of_guard hpoll
      refine ⟨update_self .., .inl ?_⟩
      have hended := hok deadline htask hlate
      show s.slots.thread t = .failed
      cases hthread : s.slots.thread t <;> rw [hthread] at hended
      case holds c => exact absurd hthread (hnot c)
      all_goals exact hended.elim
  · cases hpoll

/-- The worker is in the factory when its task is cancelled, and ends in time. -/
theorem reclaimed_not_lent_inTime : ∃ s s', Run (Acquires.step 0 1 0) Acquires.InTime
      (Acquires.start 0) [.pool (.book 0), .cancel 0, .pass 10, .pool (.grow 0)] s ∧
    s.step 0 1 0 (.poll 0) = some s' ∧ s.slots.lent = [0] ∧ s'.task 0 = .reclaimed := by
  obtain ⟨s, hs, hend⟩ := Option.map_eq_some_iff.mp (show (exec (Acquires.step 0 1 0)
      (Acquires.start 0) [.pool (.book 0), .cancel 0, .pass 10, .pool (.grow 0)]).map (fun s =>
        (s.slots.lent, decide (5000 ≤ s.now), s.task 0, (s.step 0 1 0 (.poll 0)).isSome)) =
      some ([0], false, .cancelled 5000, true) by decide +kernel)
  simp only [Prod.mk.injEq, decide_eq_false_iff_not] at hend
  obtain ⟨hlent, hnow, htask, hsome⟩ := hend
  obtain ⟨s', hpoll⟩ := Option.isSome_iff_exists.mp hsome
  have hrun : Run (Acquires.step 0 1 0) Acquires.InTime (Acquires.start 0) _ s :=
    .of_exec_ok (by simp [Acquires.InTime]) hs
  have hok : s.InTime (.poll 0) := by
    intro deadline hd hle
    rw [htask] at hd
    cases hd
    exact absurd hle hnow
  exact ⟨s, s', hrun, hpoll, hlent, (reclaimed_not_lent hrun hok hpoll).1⟩

/-- **The factory takes longer than the reclaim thread looks**: the worker gets a slot that
    nobody gives back. -/
theorem slow_factory_leaks :
    (exec (Acquires.step 0 1 0) (Acquires.start 0) [.pool (.book 0), .cancel 0, .pass 5000,
      .poll 0, .pool (.grow 0)]).map
      (fun s => (s.task 0, s.slots.thread 0, s.slots.lent, s.slots.closed)) =
    some (.reclaimed, .holds 0, [0], false) := by
  decide +kernel

end StClickHouse.Python
