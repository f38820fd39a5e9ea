/-
  StClickHouse.Python.Tidiness
  **ALL CONNECTIONS FIT.**

  A client is tidy when the connection of every operation is fit and nothing is
  outstanding on what is available.  A step of one operation leaves everybody else's
  connection alone, because nobody else has it.
-/
import StClickHouse.Python.Fitness

namespace StClickHouse.Python

open Leasing List Function

namespace World

/-! ## §1. Tidy clients. -/

/-- The calls of an operation. -/
def mine (s : World) (h : Nat) : Calls := fun k n w =>
  ∃ K, s.calls k = some K ∧ K.holder = h ∧ K.native = n ∧ K.worker = w

/-- The pool has no slot for the operation's connection. -/
def Lost (s : World) (h : Nat) : Prop := (s.holders h).conn ∉ s.pool.all

/-- The operation's connection is fit for where the operation stands. -/
def FitAt (s : World) (h : Nat) : Prop :=
  Fit (s.Lost h) (s.wire (s.holders h).conn) (s.holders h) (s.mine h)

structure Tidy (s : World) : Prop where
  sole : Sole s
  known : ∀ c ∈ s.pool.all, c < s.nextConn
  closed : s.pool.closed = true → s.pool.all = []
  idle : ∀ c ∈ s.pool.available, s.wire c = .rest
  fresh : ∀ c, s.nextConn ≤ c → s.wire c = .rest
  flags : ∀ k K, s.calls k = some K → K.task = .flagged ∨ K.task = .killed →
    (s.holders K.holder).kind = .oneShot ∧ (s.holders K.holder).cancelled = true
  fit : ∀ h, s.FitAt h

/-! ## §2. What a step of one operation leaves alone. -/

variable {s s' : World} {k h : Nat} {K : NativeCall} {H : Holder}

theorem mine_setCall_other (hne : K.holder ≠ h)
    (hold : ∀ K', s.calls k = some K' → K'.holder ≠ h) :
    (s.setCall k K).mine h = s.mine h := by
  funext k' n w
  apply propext
  by_cases hk : k' = k
  · subst hk
    simp only [mine, setCall, update_self, Option.some.injEq]
    constructor
    · rintro ⟨K', rfl, hh, -⟩
      exact absurd hh hne
    · rintro ⟨K', hK', hh, -⟩
      exact absurd hh (hold K' hK')
  · simp only [mine, setCall, update_of_ne hk]

theorem mine_setCall_self (hK : K.holder = h)
    (k' : Nat) (n : Native) (w : Worker) :
    (s.setCall k K).mine h k' n w ↔
      (k' = k ∧ n = K.native ∧ w = K.worker) ∨ (k' ≠ k ∧ s.mine h k' n w) := by
  by_cases hk : k' = k
  · subst hk
    simp only [mine, setCall, update_self, Option.some.injEq]
    constructor
    · rintro ⟨K', rfl, -, rfl, rfl⟩
      exact .inl ⟨trivial, rfl, rfl⟩
    rintro (⟨-, rfl, rfl⟩ | ⟨hne, -⟩)
    · exact ⟨K, rfl, hK, rfl, rfl⟩
    · exact absurd rfl hne
  · simp only [mine, setCall, update_of_ne hk]
    constructor
    · intro h
      exact .inr ⟨hk, h⟩
    rintro (⟨heq, -⟩ | ⟨-, h⟩)
    · exact absurd heq hk
    · exact h

theorem mine_retask (hK : s.calls k = some K)
    (t : TaskState) (h : Nat) : (s.setCall k { K with task := t }).mine h = s.mine h := by
  by_cases hh : K.holder = h
  · funext k' n w
    apply propext
    rw [mine_setCall_self (K := { K with task := t }) hh]
    constructor
    · rintro (⟨rfl, rfl, rfl⟩ | ⟨-, hm⟩)
      · exact ⟨K, hK, hh, rfl, rfl⟩
      · exact hm
    intro hm
    by_cases hk : k' = k
    · subst hk
      obtain ⟨K', hK', -, rfl, rfl⟩ := hm
      rw [hK, Option.some.injEq] at hK'
      subst hK'
      exact .inl ⟨rfl, rfl, rfl⟩
    · exact .inr ⟨hk, hm⟩
  · refine mine_setCall_other hh ?_
    intro K' hK'
    rw [hK, Option.some.injEq] at hK'
    exact hK' ▸ hh

theorem Tidy.owns (hs : Tidy s) (hbusy : ¬ Still (s.holders h) (s.mine h)) :
    (s.holders h).stage.owns = true := by
  by_contra hnot
  exact hbusy ((hs.fit h).still (Bool.eq_false_iff.mpr hnot))

/-- **The frame.**  A step of one operation changes its own connection's wire only, and
    the pool loses slots, gets a new one, or gets back the operation's connection. -/
theorem Tidy.frame (hs : Tidy s) (hsole : Sole s')
    (hholders : s'.holders = update s.holders h H)
    (hmine : ∀ o, o ≠ h → s'.mine o = s.mine o)
    (hwire : s'.wire = s.wire ∨ ((s.holders h).stage.owns = true ∧
      ∀ c, c ≠ (s.holders h).conn → s'.wire c = s.wire c))
    (hnext : s.nextConn ≤ s'.nextConn)
    (hall : ∀ c ∈ s'.pool.all, c ∈ s.pool.all ∨ (c = s.nextConn ∧ s.nextConn < s'.nextConn))
    (hclosed : s'.pool.closed = true → s'.pool.all = [])
    (havailable : ∀ c ∈ s'.pool.available, c ∈ s.pool.available ∨ s'.wire c = .rest)
    (hflags : ∀ k K, s'.calls k = some K → K.task = .flagged ∨ K.task = .killed →
      (s.calls k = some K ∧ K.holder ≠ h) ∨
        (K.holder = h ∧ H.kind = .oneShot ∧ H.cancelled = true))
    (hfit : Fit (H.conn ∉ s'.pool.all) (s'.wire H.conn) H (s'.mine h)) : Tidy s' := by
  have hself : s'.holders h = H := by rw [hholders, update_self]
  have hother : ∀ o, o ≠ h → s'.holders o = s.holders o :=
    fun o ho => by rw [hholders, update_of_ne ho]
  -- The wire is the old one wherever the operation has nothing.
  have hsame : ∀ c, (∀ howns : (s.holders h).stage.owns = true, c ≠ (s.holders h).conn) →
      s'.wire c = s.wire c := by
    intro c hc
    obtain hwire | ⟨howns, hwire⟩ := hwire
    · rw [hwire]
    · exact hwire c (hc howns)
  refine ⟨hsole, ?_, hclosed, ?_, ?_, ?_, ?_⟩
  · intro c hc
    obtain hc | ⟨rfl, hlt⟩ := hall c hc
    · exact Nat.lt_of_lt_of_le (hs.known c hc) hnext
    · exact hlt
  · intro c hc
    obtain hc | hrest := havailable c hc
    · rw [hsame c ?_]
      · exact hs.idle c hc
      · rintro howns rfl
        exact (hs.sole.exclusive.alone h _ (has_of_owns howns)).1 hc
    · exact hrest
  · intro c hc
    rw [hsame c ?_]
    · exact hs.fresh c (Nat.le_trans hnext hc)
    · rintro howns rfl
      exact absurd (hs.sole.has h _ (has_of_owns howns)) (by omega)
  · intro k K hK htask
    obtain ⟨hold, hne⟩ | ⟨rfl, hnew⟩ := hflags k K hK htask
    · rw [hother _ hne]
      exact hs.flags k K hold htask
    · rw [hself]
      exact hnew
  intro o
  unfold FitAt Lost
  by_cases ho : o = h
  · rw [ho, hself]
    exact hfit
  have hfit' := hs.fit o
  rw [hother o ho, hmine o ho]
  by_cases hoowns : (s.holders o).stage.owns = true
  · have hhas := has_of_owns hoowns
    rw [hsame _ ?_]
    · refine hfit'.mono ?_
      intro hlost hmem
      obtain hmem | ⟨heq, -⟩ := hall _ hmem
      · exact hlost hmem
      · exact absurd (hs.sole.has o _ hhas) (by omega)
    intro howns heq
    rw [heq] at hhas
    exact ho (hs.sole.exclusive.single o h _ hhas (has_of_owns howns))
  · exact hfit'.of_not_owns (Bool.eq_false_iff.mpr hoowns)

/-- The flags of `_run_pooled` where no call changes. -/
theorem Tidy.flags_kept (hs : Tidy s) (hkind : H.kind = (s.holders h).kind)
    (hcancelled : (s.holders h).cancelled = true → H.cancelled = true) :
    ∀ k K, s.calls k = some K → K.task = .flagged ∨ K.task = .killed →
      (s.calls k = some K ∧ K.holder ≠ h) ∨
        (K.holder = h ∧ H.kind = .oneShot ∧ H.cancelled = true) := by
  intro k K hK htask
  by_cases hh : K.holder = h
  · obtain ⟨hone, hc⟩ := hs.flags k K hK htask
    rw [hh] at hone hc
    exact .inr ⟨hh, hkind.trans hone, hcancelled hc⟩
  · exact .inl ⟨hK, hh⟩

/-- The pool loses slots, if anything. -/
structure Fewer (p p' : LendingPool) : Prop where
  all : ∀ c ∈ p'.all, c ∈ p.all
  available : ∀ c ∈ p'.available, c ∈ p.available
  closed : p'.closed = true → p'.all = []

theorem Tidy.fewer (hs : Tidy s) : Fewer s.pool s.pool :=
  ⟨fun _ h => h, fun _ h => h, hs.closed⟩

theorem Tidy.fewer_remove (hs : Tidy s) (c : Nat) :
    Fewer s.pool (s.pool.remove c) := by
  unfold LendingPool.remove
  split
  · next hopen =>
    refine ⟨fun _ h => (mem_filter.mp h).1, fun _ h => (mem_filter.mp h).1, ?_⟩
    intro hclosed
    simp only at hclosed
    simp [hclosed] at hopen
  · exact hs.fewer

theorem Tidy.not_mem_remove (hs : Tidy s) (c : Nat) :
    c ∉ (s.pool.remove c).all := by
  unfold LendingPool.remove
  split
  · simp
  · next hnot =>
    intro hmem
    by_cases hclosed : s.pool.closed = true
    · rw [hs.closed hclosed] at hmem
      cases hmem
    · exact hnot ⟨by simpa using hclosed, hmem⟩

/-- A step of one holder that makes no call and takes nothing from the pool. -/
theorem Tidy.of_holder (hs : Tidy s) (hsole : Sole s')
    (hholders : s'.holders = update s.holders h H) (hcalls : s'.calls = s.calls)
    (hwire : s'.wire = s.wire) (hnext : s.nextConn ≤ s'.nextConn)
    (hpool : Fewer s.pool s'.pool) (hkind : H.kind = (s.holders h).kind)
    (hcancelled : (s.holders h).cancelled = true → H.cancelled = true)
    (hfit : Fit (H.conn ∉ s'.pool.all) (s.wire H.conn) H (s.mine h)) : Tidy s' := by
  have hmine : s'.mine = s.mine := by
    funext o k n w
    simp only [mine, hcalls]
  refine hs.frame hsole hholders (fun o _ => by rw [hmine]) (.inl hwire) hnext
    (fun c hc => .inl (hpool.all c hc)) hpool.closed (fun c hc => .inl (hpool.available c hc)) ?_ ?_
  · rw [hcalls]
    exact hs.flags_kept hkind hcancelled
  · rw [hwire, hmine]
    exact hfit

theorem mine_setCall_eq (hK : K.holder = h) :
    (s.setCall k K).mine h = (s.mine h).set k K.native K.worker := by
  funext k' n w
  exact propext (mine_setCall_self hK k' n w)

/-- A step that changes one call of a holder. -/
theorem Tidy.of_call (hs : Tidy s) (hsole : Sole s')
    (hcalls : s'.calls = update s.calls k (some K))
    (hold : ∀ K', s.calls k = some K' → K'.holder = K.holder)
    (hholders : s'.holders = update s.holders K.holder H)
    (hwire : s'.wire = s.wire ∨ ((s.holders K.holder).stage.owns = true ∧
      ∀ c, c ≠ (s.holders K.holder).conn → s'.wire c = s.wire c))
    (hnext : s'.nextConn = s.nextConn) (hpool : Fewer s.pool s'.pool)
    (hkind : H.kind = (s.holders K.holder).kind)
    (hcancelled : (s.holders K.holder).cancelled = true → H.cancelled = true)
    (hnew : K.task = .flagged ∨ K.task = .killed → H.kind = .oneShot ∧ H.cancelled = true)
    (hfit : Fit (H.conn ∉ s'.pool.all) (s'.wire H.conn) H
      ((s.mine K.holder).set k K.native K.worker)) : Tidy s' := by
  have hmine : ∀ o, s'.mine o = (s.setCall k K).mine o := by
    intro o
    funext k' n w
    simp only [mine, setCall, hcalls]
  refine hs.frame hsole hholders ?_ hwire (Nat.le_of_eq hnext.symm)
    (fun c hc => .inl (hpool.all c hc)) hpool.closed (fun c hc => .inl (hpool.available c hc)) ?_ ?_
  · intro o ho
    rw [hmine]
    exact mine_setCall_other ho.symm fun K' hK' heq => ho (heq.symm.trans (hold K' hK'))
  · intro j K' hK' htask
    rw [hcalls, update_apply] at hK'
    split at hK'
    · cases hK'
      exact .inr ⟨rfl, hnew htask⟩
    · exact hs.flags_kept hkind hcancelled j K' hK' htask
  · rw [hmine, mine_setCall_eq rfl]
    exact hfit

theorem Tidy.newCall (hs : Tidy s) {n : Native} (hsole : Sole s') (hk : s.calls k = none)
    (hcalls : s'.calls = update s.calls k (some ⟨h, n, .queued, .awaiting⟩))
    (hholders : s'.holders = update s.holders h H) (hwire : s'.wire = s.wire)
    (hnext : s'.nextConn = s.nextConn) (hpool : s'.pool = s.pool)
    (hkind : H.kind = (s.holders h).kind) (hcancelled : H.cancelled = (s.holders h).cancelled)
    (hfit : Fit (H.conn ∉ s.pool.all) (s.wire H.conn) H ((s.mine h).set k n .queued)) :
    Tidy s' := by
  refine hs.of_call hsole hcalls ?_ hholders (.inl hwire) hnext (hpool ▸ hs.fewer) hkind
    (fun hc => hcancelled.trans hc) (by rintro (h | h) <;> cases h) ?_
  · intro K hK
    rw [hk] at hK
    cases hK
  · rw [hwire, hpool]
    exact hfit

/-! ## §3. The pool's own steps and `_acquire`. -/

/-- The operation can release its connection. -/
structure Ready (s : World) (h : Nat) : Prop where
  owns : (s.holders h).stage.owns = true
  still : Still (s.holders h) (s.mine h)
  rest : s.Lost h ∨ s.wire (s.holders h).conn = .rest

variable (hs : Tidy s)
include hs

theorem Tidy.of_pool {p : LendingPool} (hsole : Sole (s.setPool p))
    (hpool : Fewer s.pool p) : Tidy (s.setPool p) where
  sole := hsole
  known := fun c hc => hs.known c (hpool.all c hc)
  closed := hpool.closed
  idle := fun c hc => hs.idle c (hpool.available c hc)
  fresh := hs.fresh
  flags := hs.flags
  fit := fun h => (hs.fit h).mono fun hlost hmem => hlost (hpool.all _ hmem)

theorem Tidy.blank (hstage : (s.holders h).stage = .unused ∨ (s.holders h).stage = .waiting ∨
      (s.holders h).stage = .growing ∨ (s.holders h).stage = .failed) :
    Blank (s.holders h) (s.mine h) := by
  have hfit := hs.fit h
  unfold FitAt Fit at hfit
  obtain hstage | hstage | hstage | hstage := hstage <;> rw [hstage] at hfit <;> exact hfit

theorem Tidy.blank_rest
    (hstage : (s.holders h).stage = .checking ∨ (s.holders h).stage = .granted) :
    Blank (s.holders h) (s.mine h) ∧ s.wire (s.holders h).conn = .rest := by
  have hfit := hs.fit h
  unfold FitAt Fit at hfit
  obtain hstage | hstage := hstage <;> rw [hstage] at hfit <;> exact hfit

theorem Tidy.lendNew {p : LendingPool}
    (hblank : Blank (s.holders h) (s.mine h)) (hclosed : p.closed = false)
    (hall : ∀ c ∈ p.all, c ∈ s.pool.all) (havailable : p.available = s.pool.available)
    (hsole : Sole ((s.setHolder h
      { s.holders h with stage := .granted, conn := s.nextConn }).setPool
        (p.lendNew s.nextConn h)).bumpConn) :
    Tidy ((s.setHolder h { s.holders h with stage := .granted, conn := s.nextConn }).setPool
      (p.lendNew s.nextConn h)).bumpConn := by
  refine hs.frame hsole rfl (fun _ _ => rfl) (.inl rfl) (Nat.le_succ _) ?_ ?_ ?_
    (hs.flags_kept rfl id) ⟨hblank.move _ _ _, hs.fresh _ le_rfl⟩
  · intro c hc
    obtain hc | hc := mem_append.mp hc
    · exact .inl (hall c hc)
    · exact .inr ⟨mem_singleton.mp hc, Nat.lt_succ_self _⟩
  · intro hc
    exact absurd (hclosed.symm.trans hc) Bool.false_ne_true
  · intro c hc
    exact .inl (havailable ▸ hc)

/-- **A release.**  What a ready operation gives back is clean, and it uses it no more. -/
theorem Tidy.release (hready : Ready s h) : Tidy (s.release h) := by
  have hsole := hs.sole.release hready.owns
  have hall : (s.pool.recycle (s.holders h).conn).all = s.pool.all := by
    unfold LendingPool.recycle
    split
    · rfl
    · rfl
  have hclosed : (s.pool.recycle (s.holders h).conn).closed = s.pool.closed := by
    unfold LendingPool.recycle
    split
    · rfl
    · rfl
  refine hs.frame hsole rfl (fun _ _ => rfl) (.inl rfl) le_rfl ?_ ?_ ?_
    (hs.flags_kept rfl id) ⟨hready.still.calls, hready.still.reader⟩
  · intro c hc
    exact .inl (hall ▸ hc)
  · intro hc
    exact hall.trans (hs.closed (hclosed ▸ hc))
  intro c hc
  have hc' : c ∈ (s.pool.recycle (s.holders h).conn).available := hc
  unfold LendingPool.recycle at hc'
  split at hc'
  · next hopen =>
    obtain hc' | hc' := mem_append.mp hc'
    · exact .inl hc'
    · obtain rfl := mem_singleton.mp hc'
      exact .inr (hready.rest.resolve_left fun hlost => hlost hopen.2.1)
  · exact .inl hc'

theorem Tidy.ready_granted (hstage : (s.holders h).stage = .granted) : Ready s h := by
  obtain ⟨hblank, hrest⟩ := hs.blank_rest (.inr hstage)
  exact ⟨owns_of_eq hstage rfl, hblank.still, .inr hrest⟩

/-- An operation that leaves without being told to destroy its connection. -/
theorem Tidy.ready_leaving (hstage : (s.holders h).stage = .leaving false) : Ready s h := by
  have hfit := hs.fit h
  unfold FitAt Fit at hfit
  rw [hstage] at hfit
  obtain ⟨hrest, hstill⟩ := hfit rfl
  exact ⟨owns_of_eq hstage rfl, hstill, .inr hrest⟩

theorem Tidy.enter {n : Native} (hstage : (s.holders h).stage = .granted) (hk : s.calls k = none)
    (hfirst : firstCall (s.holders h).kind = some n)
    (hsole : Sole ((s.setHolder h { s.holders h with stage := .working, main := k }).setCall k
      ⟨h, n, .queued, .awaiting⟩)) :
    Tidy ((s.setHolder h { s.holders h with stage := .working, main := k }).setCall k
      ⟨h, n, .queued, .awaiting⟩) := by
  obtain ⟨hblank, hrest⟩ := hs.blank_rest (.inr hstage)
  refine hs.newCall hsole hk rfl rfl rfl rfl rfl rfl rfl ?_
  -- The new call is the only one.
  have honly : OnlyMain { s.holders h with stage := .working, main := k }
      ((s.mine h).set k n .queued) n .queued := by
    refine ⟨.inl ⟨rfl, rfl, rfl⟩, ?_⟩
    rintro k' n' w' (hm | ⟨-, hm⟩)
    · exact hm
    · exact absurd hm (hblank.calls k' n' w')
  have hplain : Plain { s.holders h with stage := .working, main := k } :=
    ⟨hblank.plain.reader, hblank.plain.forwarding, hblank.plain.abandon, hblank.plain.eos⟩
  cases hkind : (s.holders h).kind with
  | oneShot =>
    rw [hkind] at hfirst
    cases hfirst
    refine .oneShot hkind ⟨hplain, ⟨_, honly⟩, .inl hrest, ?_⟩
    intro hshut
    exact absurd (hblank.shut.symm.trans hshut) Bool.false_ne_true
  | session =>
    rw [hkind] at hfirst
    cases hfirst
  | insertStream =>
    rw [hkind] at hfirst
    cases hfirst
    refine .insertStream hkind .beginInsert .queued ⟨hplain, honly.main, ?_, .inl rfl, ?_, ?_,
      .inr ⟨hrest, hblank.shut⟩⟩
    · intro n' w' hm
      exact (honly.only _ n' w' hm).2
    · intro k' n' w' hm hne
      exact absurd (honly.only k' n' w' hm).1 hne
    rintro (hopen | ⟨k', n', w', hm, hne, -⟩)
    · exact absurd (hblank.isOpen.symm.trans hopen) Bool.false_ne_true
    · exact absurd (honly.only k' n' w' hm).1 hne
  | queryStream =>
    rw [hkind] at hfirst
    cases hfirst
    exact .queryStream hkind .queued honly (.starting hplain hblank.shut hrest nofun)

theorem Tidy.acquire {a : AcquireAction}
    (hstep : s.acquireStep h (s.holders h) a = some s') : Tidy s' := by
  have hsole := (acquire_moves hstep).sole hs.sole
  cases a with
  | reserve =>
    simp only [acquireStep] at hstep
    split at hstep
    · next c rest hstage havailable =>
      obtain ⟨-, hstep⟩ := of_check hstep
      cases hstep
      have hmem : c ∈ s.pool.available := havailable ▸ mem_cons_self
      refine hs.of_holder hsole rfl rfl rfl le_rfl
        ⟨fun _ hc => hc, fun x hx => havailable ▸ mem_cons_of_mem _ hx, hs.closed⟩
        rfl id ?_
      exact ⟨(hs.blank (.inr (.inl hstage))).move _ _ _, hs.idle c hmem⟩
    · cases hstep
  | book =>
    obtain ⟨hstage, rfl⟩ := of_guard hstep
    refine hs.of_holder hsole rfl rfl rfl le_rfl ⟨fun _ h => h, fun _ h => h, hs.closed⟩
      rfl id ?_
    exact (hs.blank (.inr (.inl hstage.1))).move _ _ _
  | giveUp =>
    obtain ⟨hstage, rfl⟩ := of_guard hstep
    refine hs.of_holder hsole rfl rfl rfl le_rfl hs.fewer rfl id ?_
    exact (hs.blank (.inr (.inl hstage))).move _ _ _
  | grow =>
    obtain ⟨hstage, hstep⟩ := of_guard_then hstep
    have hblank := hs.blank (.inr (.inr (.inl hstage)))
    split at hstep <;> cases hstep
    · refine hs.of_holder hsole rfl rfl rfl (Nat.le_succ _)
        ⟨fun _ h => h, fun _ h => h, hs.closed⟩ rfl id ?_
      exact hblank.move _ _ _
    · next hopen =>
        exact hs.lendNew hblank (Bool.eq_false_iff.mpr hopen) (fun _ h => h) rfl hsole
  | growFail =>
    obtain ⟨hstage, rfl⟩ := of_guard hstep
    refine hs.of_holder hsole rfl rfl rfl le_rfl
      ⟨fun _ h => h, fun _ h => h, hs.closed⟩ rfl id ?_
    exact (hs.blank (.inr (.inr (.inl hstage)))).move _ _ _
  | handOut =>
    obtain ⟨hstage, hstep⟩ := of_guard_then hstep
    obtain ⟨hblank, hrest⟩ := hs.blank_rest (.inl hstage)
    split at hstep <;> cases hstep
    · refine hs.of_holder hsole rfl rfl rfl le_rfl hs.fewer rfl id ?_
      exact hblank.move _ _ _
    · refine hs.of_holder hsole rfl rfl rfl le_rfl hs.fewer rfl id ?_
      exact ⟨hblank.move _ _ _, hrest⟩
  | replace =>
    obtain ⟨hstage, hstep⟩ := of_guard_then hstep
    obtain ⟨hblank, -⟩ := hs.blank_rest (.inl hstage)
    split at hstep <;> cases hstep
    · refine hs.of_holder hsole rfl rfl rfl (Nat.le_succ _) hs.fewer rfl id ?_
      exact hblank.move _ _ _
    · next hopen =>
        refine hs.lendNew hblank ?_ (fun _ h => (mem_filter.mp h).1) rfl hsole
        exact Bool.eq_false_iff.mpr fun hclosed => hopen (.inl hclosed)
  | drop =>
    obtain ⟨hstage, hstep⟩ := of_guard_then hstep
    obtain ⟨hblank, -⟩ := hs.blank_rest (.inl hstage)
    cases hstep
    refine hs.of_holder hsole rfl rfl rfl le_rfl
      ⟨fun _ h => (mem_filter.mp h).1, fun _ h => h, ?_⟩ rfl id ?_
    · intro hclosed
      have hnil := hs.closed hclosed
      simp [setPool, LendingPool.dropSlot, hnil]
    · exact hblank.move _ _ _
  | cancel =>
    obtain ⟨-, rfl⟩ := of_guard hstep
    exact hs.of_holder hsole rfl rfl rfl le_rfl hs.fewer rfl (fun _ => rfl)
      (hs.fit h).cancelled
  | reclaim =>
    obtain ⟨hstage, rfl⟩ := of_guard hstep
    exact hs.release (hs.ready_granted hstage.1)
  | enter k =>
    obtain ⟨hstage, hstep⟩ := of_guard_then hstep
    obtain ⟨hblank, hrest⟩ := hs.blank_rest (.inr hstage.1)
    split at hstep <;> cases hstep
    · next hfirst =>
        refine hs.of_holder hsole rfl rfl rfl le_rfl hs.fewer rfl id ?_
        refine .session ?_ ⟨⟨hblank.plain.reader, hblank.plain.forwarding,
          hblank.plain.abandon, hblank.plain.eos⟩, ?_, .inr ⟨hrest, hblank.shut⟩⟩
        · show (s.holders h).kind = .session
          cases hkind : (s.holders h).kind <;> rw [hkind] at hfirst <;> first | rfl | cases hfirst
        · intro k' n w hm
          exact absurd hm (hblank.calls k' n w)
    · next n hfirst =>
        exact hs.enter hstage.1 hstage.2.2 hfirst hsole

end World

end StClickHouse.Python
