/-
  StClickHouse.Python.Ownership
  **A CONNECTION HAS ONE HOLDER.**

  From when the pool lends a connection until its operation has released it, the
  connection is not available and is lent to nobody else, in every run.  So what an
  operation kills or removes before its own release is nobody else's.  A cancelled
  operation whose worker has released the connection already kills whatever was lent
  in between.

      cleanup_is_own — an operation that has not released its connection hurts nobody
      late_cancel    — one that has, does
-/
import StClickHouse.Python.Lending
import StClickHouse.Lib.Leases

namespace StClickHouse.Python

open Leasing List Function

/-! ## §1. The books. -/

/-- The operation has been lent a connection and has not released it. -/
def Stage.owns : Stage → Bool
  | .checking => true
  | .granted => true
  | .working => true
  | .leaving _ => true
  | .gone => true
  | _ => false

/-- What a holder has. -/
def Holder.has (H : Holder) : Option Nat := if H.stage.owns then some H.conn else none

namespace World

/-- The leases of the client's pool. -/
def leases (s : World) : Leases Nat Nat where
  available := s.pool.available
  lent := s.pool.lent
  has := fun h => (s.holders h).has

/-- Nothing is lent in the step: items and holders may drop out. -/
structure Quiet (s s' : World) : Prop where
  next : s.nextConn ≤ s'.nextConn
  available : s'.pool.available.Sublist s.pool.available
  lent : ∀ p ∈ s'.pool.lent, p ∈ s.pool.lent
  has : ∀ h c, (s'.holders h).has = some c → (s.holders h).has = some c

structure Sole (s : World) : Prop where
  exclusive : Exclusive s.leases
  available : ∀ c ∈ s.pool.available, c < s.nextConn
  lent : ∀ p ∈ s.pool.lent, p.1 < s.nextConn
  has : ∀ h c, (s.holders h).has = some c → c < s.nextConn

variable {s s' : World} {h c k : Nat} {H : Holder} {a : WorldAction} {K : NativeCall}

/-- What is new in the books has a number. -/
theorem Sole.update (hs : Sole s) (hexclusive : Exclusive s'.leases)
    (hnext : s.nextConn ≤ s'.nextConn)
    (havailable : ∀ c ∈ s'.pool.available, c ∈ s.pool.available ∨ c < s'.nextConn)
    (hlent : ∀ p ∈ s'.pool.lent, p ∈ s.pool.lent ∨ p.1 < s'.nextConn)
    (hhas : ∀ o c, (s'.holders o).has = some c → (s.holders o).has = some c ∨ c < s'.nextConn) :
    Sole s' where
  exclusive := hexclusive
  available := fun c hc => (havailable c hc).elim
    (fun h => Nat.lt_of_lt_of_le (hs.available c h) hnext) id
  lent := fun p hp => (hlent p hp).elim (fun h => Nat.lt_of_lt_of_le (hs.lent p h) hnext) id
  has := fun o c hc => (hhas o c hc).elim (fun h => Nat.lt_of_lt_of_le (hs.has o c h) hnext) id

theorem Quiet.sole (h : Quiet s s') (hs : Sole s) : Sole s' :=
  hs.update (hs.exclusive.shrink h.available h.lent h.has) h.next
    (fun _ hc => .inl (h.available.subset hc)) (fun p hp => .inl (h.lent p hp))
    (fun o c hc => .inl (h.has o c hc))

theorem Sole.start (min max : Nat) : Sole (World.start min max) where
  exclusive := by
    refine ⟨nodup_range, ?_, ?_, ?_⟩
    · nofun
    · nofun
    · nofun
  available := by
    intro c hc
    exact mem_range.mp hc
  lent := by
    nofun
  has := by
    intro h c hc
    cases hc

theorem Sole.fresh (hs : Sole s) : Fresh s.leases s.nextConn where
  available := fun h => Nat.lt_irrefl _ (hs.available _ h)
  lent := fun _ h => Nat.lt_irrefl _ (hs.lent _ h)
  has := fun o h => Nat.lt_irrefl _ (hs.has o _ h)

/-- Nothing is added to the pool's books. -/
structure Shrinks (p p' : LendingPool) : Prop where
  available : p'.available.Sublist p.available
  lent : ∀ l ∈ p'.lent, l ∈ p.lent

theorem Shrinks.refl (p : LendingPool) : Shrinks p p := ⟨List.Sublist.refl _, fun _ h => h⟩

theorem Shrinks.remove (p : LendingPool) (c : Nat) : Shrinks p (p.remove c) := by
  unfold LendingPool.remove
  split
  · exact ⟨filter_sublist, fun _ h => (mem_filter.mp h).1⟩
  · exact .refl p

theorem Shrinks.dropSlot (p : LendingPool) (c : Nat) : Shrinks p (p.dropSlot c) :=
  ⟨List.Sublist.refl _, fun _ h => (mem_filter.mp h).1⟩

theorem Sole.of_pool (hs : Sole s) (hnext : s'.nextConn = s.nextConn)
    (hpool : Shrinks s.pool s'.pool) (hholders : s'.holders = s.holders) : Sole s' := by
  refine Quiet.sole ⟨Nat.le_of_eq hnext.symm, hpool.available, hpool.lent, ?_⟩ hs
  intro o c hc
  rwa [hholders] at hc

theorem has_of_update {o : Nat} (hholders : s'.holders = update s.holders h H)
    (hc : (s'.holders o).has = some c) :
    (s.holders o).has = some c ∨ (o = h ∧ H.has = some c) := by
  rw [hholders, update_apply] at hc
  split at hc
  · next ho => exact .inr ⟨ho, hc⟩
  · exact .inl hc

theorem Quiet.of_holder
    (hnext : s.nextConn ≤ s'.nextConn) (hpool : Shrinks s.pool s'.pool)
    (hholders : s'.holders = update s.holders h H)
    (hkeep : ∀ c, H.has = some c → (s.holders h).has = some c) : Quiet s s' :=
  ⟨hnext, hpool.available, hpool.lent, fun _ c hc =>
    (has_of_update hholders hc).elim id fun ⟨ho, hc⟩ => ho ▸ hkeep c hc⟩

theorem Sole.of_holder (hs : Sole s)
    (hnext : s.nextConn ≤ s'.nextConn) (hpool : Shrinks s.pool s'.pool)
    (hholders : s'.holders = Function.update s.holders h H)
    (hkeep : ∀ c, H.has = some c → (s.holders h).has = some c) : Sole s' :=
  (Quiet.of_holder hnext hpool hholders hkeep).sole hs

theorem has_update (s : World) (h : Nat) (H : Holder) :
    (fun o => (update s.holders h H o).has) =
      update (fun o => (s.holders o).has) h H.has := by
  funext o
  by_cases ho : o = h
  · subst ho
    simp only [update_self]
  · simp only [update_of_ne ho]

theorem has_of_owns (h : H.stage.owns = true) : H.has = some H.conn := if_pos h

theorem Sole.release (hs : Sole s)
    (howns : (s.holders h).stage.owns = true) : Sole (s.release h) := by
  have hhas := has_of_owns howns
  have hnone : ((s.holders h).atStage .returned).has = none := rfl
  have hquiet : Sole (s.setHolder h ((s.holders h).atStage .returned)) := by
    refine hs.of_holder le_rfl (.refl _) rfl ?_
    nofun
  unfold World.release LendingPool.recycle
  split
  · refine hs.update ?_ le_rfl ?_ (fun p hp => .inl (mem_filter.mp hp).1)
      (fun o c hc => .inr (hquiet.has o c hc))
    · have hl := hs.exclusive.recycle (show s.leases.has h = _ from hhas)
      have hupdate := has_update s h ((s.holders h).atStage .returned)
      show Exclusive ⟨_, _, fun o => (Function.update s.holders h _ o).has⟩
      rw [hupdate]
      exact hl
    intro x hx
    refine (mem_append.mp hx).imp_right fun hx => ?_
    obtain rfl := mem_singleton.mp hx
    exact hs.has h _ hhas
  · exact hquiet

/-! ## §2. Every step keeps a connection with its holder. -/

/-- What a step can do to the books: a connection becomes available when it is recycled,
    and a holder has what it had, what was available, or what is new. -/
structure Moves (a : WorldAction) (s s' : World) : Prop where
  next : s.nextConn ≤ s'.nextConn
  available : ∀ c ∈ s'.pool.available, c ∈ s.pool.available ∨ ∃ h, s.recycled a = some (h, c)
  has : ∀ o c, (s'.holders o).has = some c →
    (s.holders o).has = some c ∨ c ∈ s.pool.available ∨ s.nextConn ≤ c
  sole : Sole s → Sole s'

theorem Moves.quiet (h : Quiet s s') : Moves a s s' :=
  ⟨h.next, fun _ hc => .inl (h.available.subset hc), fun o c hc => .inl (h.has o c hc), h.sole⟩

theorem Moves.of_pool (hnext : s'.nextConn = s.nextConn) (hpool : Shrinks s.pool s'.pool)
    (hholders : s'.holders = s.holders) : Moves a s s' :=
  .quiet ⟨Nat.le_of_eq hnext.symm, hpool.available, hpool.lent, fun _ _ hc => hholders ▸ hc⟩

theorem Moves.of_holder (hnext : s.nextConn ≤ s'.nextConn) (hpool : Shrinks s.pool s'.pool)
    (hholders : s'.holders = update s.holders h H)
    (hkeep : ∀ c, H.has = some c → (s.holders h).has = some c) : Moves a s s' :=
  .quiet (.of_holder hnext hpool hholders hkeep)

/-- A holder takes a note. -/
theorem Moves.notes (hnext : s'.nextConn = s.nextConn) (hpool : s'.pool = s.pool)
    (hholders : s'.holders = update s.holders h H)
    (hkeep : ∀ c, H.has = some c → (s.holders h).has = some c) : Moves a s s' :=
  .of_holder (Nat.le_of_eq hnext.symm) (hpool ▸ .refl _) hholders hkeep

/-- What drops out goes first, then a connection is lent that is as good as new. -/
theorem Moves.lend {p : LendingPool} (hpool : Shrinks s.pool p)
    (hfresh : Sole s → Fresh (s.setPool p).leases c ∧ c < s'.nextConn)
    (hfrom : c ∈ s.pool.available ∨ s.nextConn ≤ c) (hnext : s.nextConn ≤ s'.nextConn)
    (hhas : H.has = some c) (hholders : s'.holders = update s.holders h H)
    (havail : s'.pool.available = p.available) (hlent : s'.pool.lent = (c, h) :: p.lent) :
    Moves a s s' := by
  have hrest : ∀ x ∈ s'.pool.available, x ∈ s.pool.available :=
    fun x hx => hpool.available.subset (havail ▸ hx)
  have hheld : ∀ o x, (s'.holders o).has = some x → (s.holders o).has = some x ∨ c = x :=
    fun o x hx => (has_of_update hholders hx).imp_right fun hx =>
      Option.some.inj (hhas.symm.trans hx.2)
  refine ⟨hnext, fun x hx => .inl (hrest x hx),
    fun o x hx => (hheld o x hx).imp_right fun (hx : c = x) => hx ▸ hfrom, fun hs => ?_⟩
  obtain ⟨hfresh, hc⟩ := hfresh hs
  refine hs.update ?_ hnext (fun x hx => .inl (hrest x hx)) ?_
    (fun o x hx => (hheld o x hx).imp_right fun (hx : c = x) => hx ▸ hc)
  · have hl := (hs.of_pool rfl hpool rfl : Sole (s.setPool p)).exclusive.grant (h := h) hfresh
    rw [leases, hholders, has_update, hhas, havail, hlent]
    exact hl
  intro l hl
  rw [hlent] at hl
  exact (mem_cons.mp hl).symm.imp (hpool.lent l) fun (hl : l = _) => hl ▸ hc

theorem Moves.lendNew {p : LendingPool} (hpool : Shrinks s.pool p)
    (hhas : H.has = some s.nextConn) (hholders : s'.holders = update s.holders h H)
    (hnext : s'.nextConn = s.nextConn + 1) (havail : s'.pool.available = p.available)
    (hlent : s'.pool.lent = (s.nextConn, h) :: p.lent) : Moves a s s' :=
  .lend hpool (fun hs => ⟨(hs.of_pool rfl hpool rfl : Sole (s.setPool p)).fresh,
    hnext ▸ Nat.lt_succ_self _⟩) (.inr le_rfl) (hnext ▸ Nat.le_succ _) hhas hholders
    havail hlent

theorem Moves.release (hr : s.releases a = some h) (howns : (s.holders h).stage.owns = true)
    (hholders : s'.holders = (s.release h).holders) (hpool : s'.pool = (s.release h).pool)
    (hnext : s'.nextConn = s.nextConn) : Moves a s s' := by
  refine ⟨Nat.le_of_eq hnext.symm, ?_, ?_,
    fun hs => (hs.release howns).of_pool hnext (hpool ▸ .refl _) hholders⟩
  · intro c hc
    rw [hpool] at hc
    unfold World.release World.setPool LendingPool.recycle at hc
    split at hc
    · next htaken =>
      refine (mem_append.mp hc).imp_right fun hc => ?_
      rw [mem_singleton.mp hc]
      simp only [recycled, hr]
      exact ⟨h, if_pos htaken⟩
    · exact .inl hc
  · intro o c hc
    refine (has_of_update hholders hc).imp_right fun hc => ?_
    cases hc.2

theorem owns_of_eq {stage : Stage} (h : H.stage = stage)
    (hstage : stage.owns = true) : H.stage.owns = true := h ▸ hstage

theorem has_of_conn {H' : Holder} (howns : H.stage.owns = true) (hconn : H'.conn = H.conn) :
    ∀ c, H'.has = some c → H.has = some c := by
  intro c hc
  rw [has_of_owns howns, ← hconn]
  obtain ⟨-, hc⟩ := of_guard_then hc
  exact hc

theorem acquire_moves {a : AcquireAction}
    (hstep : s.acquireStep h (s.holders h) a = some s') :
    Moves (.acquire h a) s s' := by
  have hdrop : ∀ c, ((s.holders h).atStage .failed).has = some c → (s.holders h).has = some c :=
    nofun
  cases a with
  | reserve =>
    simp only [acquireStep] at hstep
    split at hstep
    · next c rest hstage havailable =>
      obtain ⟨-, hstep⟩ := of_check hstep
      cases hstep
      have hmem : c ∈ s.pool.available := havailable ▸ mem_cons_self
      exact .lend (p := { s.pool with available := rest })
        ⟨havailable ▸ sublist_cons_self c rest, fun _ => id⟩
        (fun hs => ⟨hs.exclusive.taken havailable, hs.available c hmem⟩) (.inl hmem)
        le_rfl rfl rfl rfl rfl
    · cases hstep
  | book =>
    obtain ⟨-, rfl⟩ := of_guard hstep
    exact .of_holder le_rfl ⟨List.Sublist.refl _, fun _ h => h⟩ rfl
      nofun
  | giveUp =>
    obtain ⟨-, rfl⟩ := of_guard hstep
    exact .notes rfl rfl rfl hdrop
  | grow =>
    obtain ⟨-, hstep⟩ := of_guard_then hstep
    split at hstep <;> cases hstep
    · exact .of_holder (Nat.le_succ _) ⟨List.Sublist.refl _, fun _ h => h⟩ rfl hdrop
    · exact .lendNew (.refl _) rfl rfl rfl rfl rfl
  | growFail =>
    obtain ⟨-, rfl⟩ := of_guard hstep
    exact .of_holder le_rfl ⟨List.Sublist.refl _, fun _ h => h⟩ rfl hdrop
  | handOut =>
    obtain ⟨hstage, hstep⟩ := of_guard_then hstep
    split at hstep <;> cases hstep
    · exact .notes rfl rfl rfl hdrop
    · exact .notes rfl rfl rfl (has_of_conn (owns_of_eq hstage rfl) rfl)
  | replace =>
    obtain ⟨-, hstep⟩ := of_guard_then hstep
    split at hstep <;> cases hstep
    · exact .of_holder (Nat.le_succ _) (.refl _) rfl hdrop
    · exact .lendNew (.dropSlot _ _) rfl rfl rfl rfl rfl
  | drop =>
    obtain ⟨-, rfl⟩ := of_guard hstep
    exact .of_holder le_rfl (.dropSlot _ _) rfl hdrop
  | cancel =>
    obtain ⟨-, rfl⟩ := of_guard hstep
    exact .notes rfl rfl rfl fun _ hc => hc
  | reclaim =>
    obtain ⟨hstage, rfl⟩ := of_guard hstep
    exact .release rfl (owns_of_eq hstage.1 rfl) rfl rfl rfl
  | enter k =>
    obtain ⟨hstage, hstep⟩ := of_guard_then hstep
    have howns := owns_of_eq hstage.1 rfl
    split at hstep <;> cases hstep <;> exact .notes rfl rfl rfl (has_of_conn howns rfl)

/-- A call's state does not matter to the books. -/
theorem Sole.setCall (hs : Sole s) (k : Nat) (K : NativeCall) :
    Sole (s.setCall k K) := hs.of_pool rfl (.refl _) rfl

theorem Sole.notes (hs : Sole s) (hnext : s'.nextConn = s.nextConn) (hpool : s'.pool = s.pool)
    (hholders : s'.holders = Function.update s.holders h H)
    (hstage : H.stage = (s.holders h).stage) (hconn : H.conn = (s.holders h).conn) : Sole s' := by
  refine hs.of_holder (Nat.le_of_eq hnext.symm) (hpool ▸ .refl _) hholders ?_
  intro c hc
  rwa [Holder.has, hstage, hconn] at hc

/-- A slot is removed for a holder that stays where it is, or is gone. -/
theorem Sole.destroy (hs : Sole s) {stage : Stage}
    (hstage : stage = (s.holders h).stage ∨ (s.holders h).stage.owns = true) :
    Sole (s.destroy h stage) := by
  refine hs.of_holder le_rfl (.remove _ _) rfl ?_
  obtain rfl | howns := hstage
  · exact fun c hc => hc
  · exact has_of_conn howns rfl

theorem noticeCall_moves (hK : s.calls k = some K)
    (hstep : s.noticeCall k K (s.holders K.holder) = some s') :
    Moves (.call k .notice) s s' := by
  simp only [World.noticeCall] at hstep
  split at hstep
  · obtain ⟨-, hstep⟩ := of_check hstep
    cases hstep
    exact .of_pool rfl (.refl _) rfl
  · cases hstep
    exact .of_pool rfl (.refl _) rfl
  · cases hstep
    exact .of_pool rfl (.refl _) rfl
  · obtain ⟨-, rfl⟩ := of_guard hstep
    exact .notes rfl rfl rfl fun _ hc => hc
  · obtain ⟨hstage, rfl⟩ := of_guard hstep
    exact .of_holder le_rfl (.remove _ _) rfl (has_of_conn (owns_of_eq hstage.1 rfl) rfl)
  · next hnative hworker =>
    obtain ⟨hstage, rfl⟩ := of_guard hstep
    exact .release (by simp only [releases, hK, hnative, hworker]) (owns_of_eq hstage.1 rfl) rfl rfl rfl
  · obtain ⟨-, rfl⟩ := of_guard hstep
    exact .notes rfl rfl rfl fun _ hc => hc
  · next hnative hworker =>
    obtain ⟨hstage, rfl⟩ := of_guard hstep
    exact .release (by simp only [releases, hK, hnative, hworker]) (owns_of_eq hstage.1 rfl) rfl rfl rfl
  · cases hstep

theorem handleCall_moves (hK : s.calls k = some K)
    (hstep : s.handleCall k K (s.holders K.holder) = some s') :
    Moves (.call k .handle) s s' := by
  simp only [World.handleCall] at hstep
  split at hstep
  · obtain ⟨-, hstep⟩ := of_check hstep
    cases hstep
    exact .of_holder le_rfl (.remove _ _) rfl fun _ hc => hc
  · cases hstep
    exact .of_pool rfl (.refl _) rfl
  · cases hstep
    exact .of_holder le_rfl (.remove _ _) rfl fun _ hc => hc
  · obtain ⟨hstage, rfl⟩ := of_guard hstep
    exact .of_holder le_rfl (.remove _ _) rfl (has_of_conn (owns_of_eq hstage.1 rfl) rfl)
  · obtain ⟨hstage, rfl⟩ := of_guard hstep
    exact .of_holder le_rfl (.remove _ _) rfl (has_of_conn (owns_of_eq hstage.1 rfl) rfl)
  · next hnative =>
    obtain ⟨hstage, rfl⟩ := of_guard hstep
    exact .release (by simp only [releases, hK, hnative]) (owns_of_eq hstage.1 rfl) rfl rfl rfl

theorem callStep_leave (hstep : s.callStep k K H .leave = some s') :
    ∃ e, K.worker = .ended e ∧ (H.kind = .oneShot ∧ H.stage = .working) ∧
      s.setHolder K.holder (H.atStage (.leaving H.cancelled)) = s' := by
  simp only [callStep] at hstep
  split at hstep
  · next e hworker => exact ⟨e, hworker, of_guard hstep⟩
  · cases hstep

theorem call_moves {a : CallAction} (hK : s.calls k = some K)
    (hstep : s.callStep k K (s.holders K.holder) a = some s') :
    Moves (.call k a) s s' := by
  cases a with
  | run | unqueue | cancel | timeOut =>
    obtain ⟨-, rfl⟩ := of_guard hstep
    exact .of_pool rfl (.refl _) rfl
  | finish e =>
    obtain ⟨-, hstep⟩ := of_guard_then hstep
    split at hstep <;> cases hstep
    · exact .notes rfl rfl rfl fun _ hc => hc
    · exact .of_pool rfl (.refl _) rfl
  | notice =>
    obtain ⟨-, hstep⟩ := of_guard_then hstep
    exact noticeCall_moves hK hstep
  | handle =>
    obtain ⟨-, hstep⟩ := of_guard_then hstep
    exact handleCall_moves hK hstep
  | flag | kill | dropStream =>
    obtain ⟨-, rfl⟩ := of_guard hstep
    exact .notes rfl rfl rfl fun _ hc => hc
  | remove =>
    obtain ⟨-, rfl⟩ := of_guard hstep
    exact .of_pool rfl (.remove _ _) rfl
  | leave =>
    obtain ⟨e, -, hstage, rfl⟩ := callStep_leave hstep
    exact .notes rfl rfl rfl (has_of_conn (owns_of_eq hstage.2 rfl) rfl)

theorem holder_moves {a : HolderAction} (hstep : s.holderStep h (s.holders h) a = some s') :
    Moves (.holder h a) s s' := by
  cases a with
  | submit k native =>
    obtain ⟨-, rfl⟩ := of_guard hstep
    exact .of_pool rfl (.refl _) rfl
  | close k =>
    simp only [holderStep] at hstep
    split at hstep
    · next hkind =>
      obtain ⟨hstage, rfl⟩ := of_guard hstep
      exact .release (if_pos hkind) (owns_of_eq hstage rfl) rfl rfl rfl
    · obtain ⟨-, rfl⟩ := of_guard hstep
      exact .notes rfl rfl rfl fun _ hc => hc
    · cases hstep
  | giveBack =>
    simp only [holderStep] at hstep
    split at hstep <;> cases hstep
    · next hstage =>
        exact .release (if_pos hstage) (owns_of_eq hstage rfl) rfl rfl rfl
    · next hstage =>
        exact .of_holder le_rfl (.remove _ _) rfl (has_of_conn (owns_of_eq hstage rfl) rfl)
  | readEnd | readFake | readFail | abandon | abandonKill =>
    obtain ⟨-, rfl⟩ := of_guard hstep
    exact .notes rfl rfl rfl fun _ hc => hc
  | forwarded =>
    obtain ⟨hstage, rfl⟩ := of_guard hstep
    exact .notes rfl rfl rfl (has_of_conn (owns_of_eq hstage.1 rfl) rfl)

theorem step_call {a : CallAction} (hstep : s.step (.call k a) = some s') :
    ∃ K, s.calls k = some K ∧ s.callStep k K (s.holders K.holder) a = some s' := by
  simp only [World.step] at hstep
  split at hstep
  · next K hK => exact ⟨K, hK, hstep⟩
  · cases hstep

/-- **What a step does to the books.** -/
theorem step_moves (hstep : s.step a = some s') : Moves a s s' := by
  cases a with
  | start h kind =>
    obtain ⟨-, rfl⟩ := of_guard hstep
    exact .notes rfl rfl rfl nofun
  | acquire h a => exact acquire_moves hstep
  | call k a =>
    obtain ⟨K, hK, hstep⟩ := step_call hstep
    exact call_moves hK hstep
  | holder h a => exact holder_moves hstep
  | reap c =>
    obtain ⟨-, rfl⟩ := of_guard hstep
    exact .of_pool rfl ⟨filter_sublist, fun _ h => h⟩ rfl
  | closePool =>
    cases hstep
    exact .of_pool rfl ⟨nil_sublist _, nofun⟩ rfl

/-- **A connection has one holder, in every run.** -/
theorem Sole.run {ok : World → WorldAction → Prop} {min max : Nat} {as : List WorldAction}
    (hrun : Run World.step ok (World.start min max) as s) : Sole s :=
  hrun.invariant (fun _ _ _ hs _ hstep => (step_moves hstep).sole hs) (.start min max)

/-! ## §3. What a cancelled operation kills. -/

/-- What the step kills or removes, its operation has not released. -/
def Timely (s : World) (a : WorldAction) : Prop :=
  match s.cleanup a with
  | none => True
  | some (h, _) => (s.holders h).stage.owns = true

instance (s : World) (a : WorldAction) : Decidable (Timely s a) := by
  unfold Timely
  split <;> infer_instance

theorem conn_of_cleanup (hclean : s.cleanup a = some (h, c)) : c = (s.holders h).conn := by
  unfold cleanup at hclean
  split at hclean
  · split at hclean
    · cases hclean
    · split at hclean <;> cases hclean <;> rfl
  · cases (of_guard hclean).2
    rfl
  · cases hclean
    rfl
  · cases hclean

/-- **A cleanup hurts nobody else.**  In every run of one-shot operations, sessions and
    streams in which operations kill and remove only what they have not released, the
    connection a step kills, or whose slot it removes, is lent to no other operation. -/
theorem cleanup_is_own {min max : Nat} {as : List WorldAction}
    (hrun : Run World.step Timely (World.start min max) as s)
    (htimely : Timely s a) (hclean : s.cleanup a = some (h, c)) :
    ∀ h', (c, h') ∈ s.pool.lent → h' = h := by
  have hs := Sole.run hrun
  rw [Timely, hclean] at htimely
  have hhas := has_of_owns htimely
  rw [← conn_of_cleanup hclean] at hhas
  exact (hs.exclusive.alone h c hhas).2

/-- A one-shot operation from its start to its running call. -/
def oneShotRuns (h k : Nat) : List WorldAction :=
  [.start h .oneShot, .acquire h .reserve, .acquire h .handOut, .acquire h (.enter k),
    .call k .run]

/-- The task is cancelled while the query runs. -/
def cancelInTime : List WorldAction :=
  oneShotRuns 0 0 ++ [.call 0 .cancel, .call 0 .flag]

/-- A task that is cancelled in time kills the connection that is lent to its operation. -/
theorem cleanup_is_own_inTime :
    ∃ s, Run World.step Timely (World.start 1 1) cancelInTime s ∧
      (s.step (.call 0 .kill)).isSome ∧ s.pool.lent = [(0, 0)] ∧
      ∀ h', (0, h') ∈ s.pool.lent → h' = 0 := by
  obtain ⟨s, hs, hend⟩ := Option.map_eq_some_iff.mp
    (show (exec (guarded World.step Timely) (World.start 1 1) cancelInTime).map (fun s =>
      ((s.step (.call 0 .kill)).isSome, s.pool.lent, s.cleanup (.call 0 .kill),
        decide (Timely s (.call 0 .kill)))) =
      some (true, [(0, 0)], some (0, 0), true) by decide +kernel)
  simp only [Prod.mk.injEq, decide_eq_true_eq] at hend
  obtain ⟨hstep, hlent, hclean, htimely⟩ := hend
  have hrun := Run.of_guarded hs
  exact ⟨s, hrun, hstep, hlent, cleanup_is_own hrun htimely hclean⟩

/-- The worker has released the connection and the event loop does not know yet; the next
    operation is lent the connection; then the task is cancelled. -/
def cancelLate : List WorldAction :=
  oneShotRuns 0 0 ++ [.call 0 (.finish .ok), .call 0 .leave, .holder 0 .giveBack] ++
    oneShotRuns 1 1 ++ [.call 0 .cancel, .call 0 .flag]

/-- **A cancellation that comes late kills another operation's connection.** -/
theorem late_cancel :
    ∃ s, Run World.step (fun _ _ => True) (World.start 1 1) cancelLate s ∧
      (s.step (.call 0 .kill)).isSome ∧ s.cleanup (.call 0 .kill) = some (0, 0) ∧
      (0, 1) ∈ s.pool.lent := by
  obtain ⟨s, hs, hend⟩ := Option.map_eq_some_iff.mp
    (show (exec World.step (World.start 1 1) cancelLate).map (fun s =>
      ((s.step (.call 0 .kill)).isSome, s.cleanup (.call 0 .kill), s.pool.lent)) =
      some (true, some (0, 0), [(0, 1)]) by decide +kernel)
  simp only [Prod.mk.injEq] at hend
  obtain ⟨hstep, hclean, hlent⟩ := hend
  refine ⟨s, .of_exec hs, hstep, hclean, ?_⟩
  rw [hlent]
  exact mem_cons_self

end World

end StClickHouse.Python
