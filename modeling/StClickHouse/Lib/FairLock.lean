/-
  StClickHouse.Lib.FairLock
  **A LOCK WITH A QUEUE.**

  The mutex of an async runtime: those who wait stand in a queue, and an unlock hands the
  lock to the first of them.  A lock that somebody waits for is therefore never free, which
  the type says.
-/
import Mathlib

/-- Who holds the lock, and who waits for it. -/
structure FairLock (T : Type) where
  holder : Option T
  queue : List T
  waited : holder = none → queue = []

namespace FairLock

variable {T : Type}

/-- A lock nobody holds. -/
def free : FairLock T := ⟨none, [], fun _ => rfl⟩

/-- A lock that was taken when it was free. -/
def taken (t : T) : FairLock T := ⟨some t, [], nofun⟩

/-- Take the lock if it is free. -/
def tryLock (l : FairLock T) (t : T) : Option (FairLock T) :=
  match l.holder with
  | none => some (taken t)
  | some _ => none

/-- Take the lock if it is free, and queue up for it otherwise. -/
def lock (l : FairLock T) (t : T) : FairLock T :=
  match l.holder with
  | none => taken t
  | some h => ⟨some h, l.queue ++ [t], nofun⟩

/-- Let go of the lock: whoever waits longest has it then. -/
def unlock (l : FairLock T) : FairLock T :=
  match l.queue with
  | [] => free
  | t :: ts => ⟨some t, ts, nofun⟩

/-- Stop waiting for it. -/
def leave [DecidableEq T] (l : FairLock T) (t : T) : FairLock T :=
  ⟨l.holder, l.queue.filter (· ≠ t), fun h => by rw [l.waited h]; rfl⟩

variable {l : FairLock T}

theorem isLocked_of_queued {t : T} (h : t ∈ l.queue) : l.holder ≠ none := by
  intro hfree
  rw [l.waited hfree] at h
  exact List.not_mem_nil h

theorem unlock_of_queued {t : T} {ts : List T} (h : l.queue = t :: ts) :
    l.unlock = ⟨some t, ts, nofun⟩ := by
  unfold unlock
  split
  · rename_i hnil
    rw [h] at hnil
    cases hnil
  · rename_i t' ts' hcons
    rw [h] at hcons
    cases hcons
    rfl

theorem lock_of_held {t u : T} (h : l.holder = some u) :
    l.lock t = ⟨some u, l.queue ++ [t], nofun⟩ := by
  unfold lock
  split
  · rename_i hnone
    rw [h] at hnone
    cases hnone
  · rename_i h' hsome
    rw [h] at hsome
    cases hsome
    rfl

end FairLock
