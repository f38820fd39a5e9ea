/-
  StClickHouse.Python.Recycling
  **WHAT GOES BACK TO THE POOL UNDESTROYED.**

  A connection is clean when nothing is outstanding on it and no thread is going to use
  it.  In a run of orderly steps every release is clean.  The worker of a one-shot
  operation releases its connection after any error of the native client, so that of a
  query that timed out goes back with its answer unread.

      recycled_clean  — what is recycled is clean
      broken_recycled — a query that fails in any other way is recycled unread
-/
import StClickHouse.Python.Upkeep

namespace StClickHouse.Python

open Leasing List

namespace World

/-! ## §1. Whole runs. -/

theorem Tidy.start (min max : Nat) : Tidy (World.start min max) where
  sole := .start min max
  known := fun c hc => mem_range.mp hc
  closed := fun h => absurd h Bool.false_ne_true
  idle := fun _ _ => rfl
  fresh := fun _ _ => rfl
  flags := by
    nofun
  fit := by
    intro h
    refine ⟨?_, ⟨rfl, rfl, rfl, rfl⟩, rfl, rfl⟩
    rintro k n w ⟨K, hK, -⟩
    cases hK

variable {s s' : World}

/-- **Every orderly step keeps all connections fit.** -/
theorem Tidy.step {a : WorldAction} (hs : Tidy s) (horderly : Orderly s a)
    (hstep : s.step a = some s') : Tidy s' := by
  have hsole := (step_moves hstep).sole hs.sole
  cases a with
  | start h kind =>
    obtain ⟨hunused, rfl⟩ := of_guard hstep
    have hblank := hs.blank (.inl hunused)
    refine hs.frame hsole rfl (fun _ _ => rfl) (.inl rfl) le_rfl
      (fun c hc => .inl hc) hs.closed (fun c hc => .inl hc) ?_
      ⟨hblank.calls, ⟨rfl, rfl, rfl, rfl⟩, rfl, rfl⟩
    -- An operation that has not begun has made no calls.
    exact fun k K hK _ => .inl ⟨hK, fun heq => hblank.calls k _ _ (heq ▸ mine_self hK)⟩
  | acquire h a => exact hs.acquire hstep
  | call k a =>
    obtain ⟨K, hK, hstep⟩ := step_call hstep
    exact hs.call hK horderly hstep
  | holder h a => exact hs.holder horderly hstep
  | reap c =>
    obtain ⟨hcan, rfl⟩ := of_guard hstep
    refine hs.of_pool hsole ⟨fun _ h => (mem_filter.mp h).1,
      fun _ h => (mem_filter.mp h).1, ?_⟩
    intro hclosed
    have hopen : s.pool.closed = false := by simpa using hcan.1
    exact absurd (hopen.symm.trans hclosed) Bool.false_ne_true
  | closePool =>
    cases hstep
    exact hs.of_pool hsole ⟨(by intro _ h; cases h), (by intro _ h; cases h), fun _ => rfl⟩

theorem Tidy.run {min max : Nat} {as : List WorldAction}
    (hrun : Run World.step Orderly (World.start min max) as s) : Tidy s :=
  hrun.invariant (fun _ _ _ hs horderly hstep => hs.step horderly hstep) (.start min max)

/-- Nothing is outstanding on a connection, and no executor and no reader thread is going
    to use it. -/
structure Clean (s : World) (c : Nat) : Prop where
  wire : s.wire c = .rest
  calls : ∀ k K, s.calls k = some K → (s.holders K.holder).conn = c → K.worker.unfinished = false
  readers : ∀ h, (s.holders h).conn = c → (s.holders h).reader ≠ .reading

/-- What a ready operation has, is clean, if the pool still knows it. -/
theorem Tidy.clean (hs : Tidy s) {h : Nat} (hready : Ready s h)
    (hknown : (s.holders h).conn ∈ s.pool.all) : Clean s (s.holders h).conn := by
  -- Whoever else uses the connection has it too, and that is nobody.
  have hothers : ∀ o, (s.holders o).conn = (s.holders h).conn →
      Still (s.holders o) (s.mine o) := by
    intro o hconn
    by_contra hbusy
    have hhas := has_of_owns (hs.owns hbusy)
    rw [hconn] at hhas
    have heq := hs.sole.exclusive.single o h _ hhas (has_of_owns hready.owns)
    exact hbusy (heq ▸ hready.still)
  refine ⟨hready.rest.resolve_left fun hlost => hlost hknown, ?_, ?_⟩
  · intro k K hK hconn
    exact (hothers K.holder hconn).calls k K.native K.worker (mine_self hK)
  · intro o hconn
    exact (hothers o hconn).reader

theorem Tidy.ready_call (hs : Tidy s) {k h : Nat} {K : NativeCall} {a : CallAction}
    (hK : s.calls k = some K) (horderly : Orderly s (.call k a))
    (hstep : s.callStep k K (s.holders K.holder) a = some s')
    (hrel : s.releases (.call k a) = some h) : Ready s h := by
  simp only [World.releases, hK] at hrel
  split at hrel <;> cases hrel
  · next e hnative hworker =>
      simp only [callStep, World.noticeCall, hnative, hworker] at hstep
      obtain ⟨-, hstep⟩ := of_guard_then hstep
      obtain ⟨hstage, -⟩ := of_guard hstep
      exact hs.ready_insert hK hnative hworker hstage.1 hstage.2
  · next e hok hnative hworker =>
      have hended : K.worker.unfinished = false ∧ K.worker ≠ .ended .ok := by
        rw [hworker]
        exact ⟨rfl, fun heq => hok (Worker.ended.inj heq)⟩
      simp only [callStep, World.noticeCall, hnative, hworker] at hstep
      obtain ⟨-, hstep⟩ := of_guard_then hstep
      obtain ⟨hstage, hstep⟩ := of_guard_then hstep
      exact hs.ready_stream hK hnative hended.1 hended.2 hstage.1 hstage.2
  · next hnative =>
      simp only [callStep, World.handleCall, hnative] at hstep
      obtain ⟨-, hstep⟩ := of_guard_then hstep
      obtain ⟨hstage, hstep⟩ := of_guard_then hstep
      exact hs.ready_unstarted hK hnative (horderly K hK hnative) hstage.1 hstage.2

/-- An orderly step that releases a connection does so for an operation that is ready. -/
theorem Tidy.ready (hs : Tidy s) {a : WorldAction} {h : Nat} (horderly : Orderly s a)
    (hstep : s.step a = some s') (hrel : s.releases a = some h) :
    Ready s h := by
  cases a with
  | start _ _ | reap _ | closePool => cases hrel
  | acquire o a =>
    cases a with
    | reclaim =>
      cases hrel
      obtain ⟨hstage, -⟩ := of_guard hstep
      exact hs.ready_granted hstage.1
    | _ => cases hrel
  | call k a =>
    obtain ⟨K, hK, hstep⟩ := step_call hstep
    exact hs.ready_call hK horderly hstep hrel
  | holder o a =>
    cases a with
    | close k =>
      obtain ⟨hkind, rfl⟩ := of_guard hrel
      simp only [World.step, holderStep, hkind] at hstep
      obtain ⟨hstage, -⟩ := of_guard hstep
      exact hs.ready_session hkind hstage horderly
    | giveBack =>
      obtain ⟨hstage, rfl⟩ := of_guard hrel
      exact hs.ready_leaving hstage
    | _ => cases hrel

/-- **What is recycled is clean.**  In every run of orderly steps, whenever the pool takes a
    connection back undestroyed, every request on it has been answered and the answer
    read, and no executor and no reader thread is using it. -/
theorem recycled_clean {min max : Nat} {as : List WorldAction} {s s' : World}
    (hrun : Run World.step Orderly (World.start min max) as s) {a : WorldAction}
    (horderly : Orderly s a) (hstep : s.step a = some s') {h c : Nat}
    (hrecycled : s.recycled a = some (h, c)) : Clean s c := by
  have hs := Tidy.run hrun
  unfold recycled at hrecycled
  split at hrecycled
  · cases hrecycled
  · next o hrel =>
    obtain ⟨htaken, heq⟩ := of_guard hrecycled
    cases heq
    exact hs.clean (hs.ready horderly hstep hrel) htaken.2.1

/-- A one-shot operation up to its release, by the end of its call. -/
def oneShotEnds (e : CallEnd) : List WorldAction :=
  oneShotRuns 0 0 ++ [.call 0 (.finish e), .call 0 .leave]

theorem recycled_clean_oneShot :
    ∃ s, Run World.step Orderly (World.start 1 1) (oneShotEnds .ok) s ∧
      s.recycled (.holder 0 .giveBack) = some (0, 0) ∧ Clean s 0 := by
  obtain ⟨s, hs, hend⟩ := Option.map_eq_some_iff.mp
    (show (exec World.step (World.start 1 1) (oneShotEnds .ok)).map (fun s =>
      (s.recycled (.holder 0 .giveBack), (s.step (.holder 0 .giveBack)).isSome)) =
      some (some (0, 0), true) by decide +kernel)
  simp only [Prod.mk.injEq] at hend
  obtain ⟨s', hstep⟩ := Option.isSome_iff_exists.mp hend.2
  have horderly : ∀ a ∈ oneShotEnds .ok, ∀ s, Orderly s a := by
    intro a ha s
    simp only [oneShotEnds, oneShotRuns, cons_append, nil_append, mem_cons,
      not_mem_nil, or_false] at ha
    obtain rfl | rfl | rfl | rfl | rfl | rfl | rfl := ha
    case inr.inr.inr.inr.inr.inl =>
      rintro K - (h | ⟨-, h⟩) <;> cases h
    all_goals trivial
  have hrun := Run.of_exec_ok horderly hs
  exact ⟨s, hrun, hend.1, recycled_clean hrun (show Orderly s (.holder 0 .giveBack) from trivial) hstep hend.1⟩

/-- **A query that fails by a timeout goes back to the pool with its answer unread.** -/
theorem broken_recycled :
    ∃ s, Run World.step (fun _ _ => True) (World.start 1 1) (oneShotEnds .broken) s ∧
      (s.step (.holder 0 .giveBack)).isSome ∧ s.recycled (.holder 0 .giveBack) = some (0, 0) ∧
      s.wire 0 = .broken ∧ ¬ Clean s 0 := by
  obtain ⟨s, hs, hend⟩ := Option.map_eq_some_iff.mp
    (show (exec World.step (World.start 1 1) (oneShotEnds .broken)).map (fun s =>
      ((s.step (.holder 0 .giveBack)).isSome, s.recycled (.holder 0 .giveBack), s.wire 0)) =
      some (true, some (0, 0), .broken) by decide +kernel)
  simp only [Prod.mk.injEq] at hend
  obtain ⟨hstep, hrecycled, hwire⟩ := hend
  refine ⟨s, .of_exec hs, hstep, hrecycled, hwire, ?_⟩
  intro hclean
  exact absurd (hclean.wire.symm.trans hwire) nofun

end World

end StClickHouse.Python
