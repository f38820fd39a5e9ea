/-
  StClickHouse.Python.Fitness
  **WHAT AN OPERATION'S CONNECTION IS LIKE.**

  `Fit` says, for every kind and stage of an operation, what is outstanding on its
  connection, which of its calls have ended and what its reader does.  It looks at one
  operation, its calls and its connection's wire only.
-/
import StClickHouse.Python.Ownership

namespace StClickHouse.Python

/-! ## §1. What an operation's connection is like. -/

/-- The calls of a holder, by number. -/
abbrev Calls := Nat → Native → Worker → Prop

/-- No executor and no reader thread is going to use the connection. -/
structure Still (H : Holder) (M : Calls) : Prop where
  calls : ∀ k n w, M k n w → w.unfinished = false
  reader : H.reader ≠ .reading

/-- No stream was started. -/
structure Plain (H : Holder) : Prop where
  reader : H.reader = .none
  forwarding : H.forwarding = false
  abandon : H.abandon = .no
  eos : H.eos = false

/-- The operation has done nothing yet. -/
structure Blank (H : Holder) (M : Calls) : Prop where
  calls : ∀ k n w, ¬ M k n w
  plain : Plain H
  shut : H.shut = false
  isOpen : H.isOpen = false

/-- The one call of an operation. -/
structure OnlyMain (H : Holder) (M : Calls) (n : Native) (w : Worker) : Prop where
  main : M H.main n w
  only : ∀ k n' w', M k n' w' → k = H.main ∧ n' = n ∧ w' = w

structure FitOneShot (w : Wire) (H : Holder) (M : Calls) : Prop where
  plain : Plain H
  main : ∃ worker, OnlyMain H M .request worker
  wire : w = .rest ∨ H.shut = true
  shut : H.shut = true → H.cancelled = true

structure FitSession (gone : Prop) (w : Wire) (H : Holder) (M : Calls) : Prop where
  plain : Plain H
  calls : ∀ k n worker, M k n worker → n = .request ∨ n = .quiet
  wire : gone ∨ (w = .rest ∧ H.shut = false)

/-- What an insert stream's connection waits for, by its main call. -/
def expected : Native → Worker → Wire
  | .beginInsert, .ended .ok => .inserting
  | .beginInsert, _ => .rest
  | .endInsert, .ended _ => .rest
  | _, _ => .inserting

structure FitInsert (gone : Prop) (w : Wire) (H : Holder) (M : Calls) (n : Native)
    (worker : Worker) : Prop where
  plain : Plain H
  main : M H.main n worker
  unique : ∀ n' w', M H.main n' w' → n' = n ∧ w' = worker
  native : n = .beginInsert ∨ n = .endInsert
  others : ∀ k n' w', M k n' w' → k ≠ H.main → w'.unfinished = true → n' = .sendData
  began : H.isOpen = true ∨ (∃ k n' w', M k n' w' ∧ k ≠ H.main ∧ w'.unfinished = true) →
    n = .beginInsert ∧ worker = .ended .ok
  wire : gone ∨ (w = expected n worker ∧ H.shut = false)

/-- A query stream by the state of its reader. -/
inductive FitStream (w : Wire) (H : Holder) : Worker → Prop
  | starting {worker : Worker} (hplain : Plain H) (hshut : H.shut = false) (hrest : w = .rest)
      (hworker : worker ≠ .ended .ok) : FitStream w H worker
  | reading (hreader : H.reader = .reading) (heos : H.eos = false) : FitStream w H (.ended .ok)
  | finished (hreader : H.reader = .ended) (hrest : w = .rest) : FitStream w H (.ended .ok)

/-- What the connection of an operation in its body is like. -/
inductive Works (gone : Prop) (w : Wire) (H : Holder) (M : Calls) : Prop
  | oneShot (hkind : H.kind = .oneShot) (h : FitOneShot w H M)
  | session (hkind : H.kind = .session) (h : FitSession gone w H M)
  | insertStream (hkind : H.kind = .insertStream) (n : Native) (worker : Worker)
      (h : FitInsert gone w H M n worker)
  | queryStream (hkind : H.kind = .queryStream) (worker : Worker)
      (hmain : OnlyMain H M .queryStream worker) (h : FitStream w H worker)

/-- What the connection of an operation at a stage is like; `gone` says that the pool has
    no slot for it. -/
def FitStage (gone : Prop) (w : Wire) (H : Holder) (M : Calls) : Stage → Prop
  | .unused => Blank H M
  | .waiting => Blank H M
  | .growing => Blank H M
  | .failed => Blank H M
  | .checking => Blank H M ∧ w = .rest
  | .granted => Blank H M ∧ w = .rest
  | .working => Works gone w H M
  | .leaving destroy => destroy = false → w = .rest ∧ Still H M
  | .returned => Still H M
  | .gone => gone

/-- What the connection of an operation is like. -/
def Fit (gone : Prop) (w : Wire) (H : Holder) (M : Calls) : Prop :=
  FitStage gone w H M H.stage

variable {gone : Prop} {w : Wire} {H : Holder} {M : Calls} {k : Nat} {n : Native}
  {worker : Worker}

theorem Blank.still (h : Blank H M) : Still H M where
  calls := fun k n w hM => absurd hM (h.calls k n w)
  reader := by
    rw [h.plain.reader]
    nofun

/-- Inside `_acquire` only the stage, the connection and the cancellation change. -/
theorem Blank.move (h : Blank H M) (stage : Stage) (conn : Nat) (cancelled : Bool) :
    Blank { H with stage := stage, conn := conn, cancelled := cancelled } M :=
  ⟨h.calls, ⟨h.plain.reader, h.plain.forwarding, h.plain.abandon, h.plain.eos⟩, h.shut,
    h.isOpen⟩

variable {gone gone' : Prop} {worker worker' : Worker} {w w' : Wire}

theorem Works.mono (h : Works gone w H M) (hgone : gone → gone') : Works gone' w H M := by
  cases h with
  | oneShot hkind h => exact .oneShot hkind h
  | session hkind h =>
    exact .session hkind ⟨h.plain, h.calls, h.wire.imp_left hgone⟩
  | insertStream hkind n worker h =>
    exact .insertStream hkind n worker
      ⟨h.plain, h.main, h.unique, h.native, h.others, h.began, h.wire.imp_left hgone⟩
  | queryStream hkind worker hmain h => exact .queryStream hkind worker hmain h

theorem Works.cancelled (h : Works gone w H M) : Works gone w { H with cancelled := true } M := by
  have hplain : Plain H → Plain { H with cancelled := true } :=
    fun h => ⟨h.reader, h.forwarding, h.abandon, h.eos⟩
  cases h with
  | oneShot hkind h =>
    obtain ⟨worker, hmain⟩ := h.main
    exact .oneShot hkind ⟨hplain h.plain, ⟨worker, hmain.main, hmain.only⟩, h.wire, fun _ => rfl⟩
  | session hkind h => exact .session hkind ⟨hplain h.plain, h.calls, h.wire⟩
  | insertStream hkind n worker h =>
    exact .insertStream hkind n worker
      ⟨hplain h.plain, h.main, h.unique, h.native, h.others, h.began, h.wire⟩
  | queryStream hkind worker hmain h =>
    refine .queryStream hkind worker ⟨hmain.main, hmain.only⟩ ?_
    cases h with
    | starting hp hshut hrest hworker => exact .starting (hplain hp) hshut hrest hworker
    | reading hreader heos => exact .reading hreader heos
    | finished hreader hrest => exact .finished hreader hrest

/-- A step keeps what its stage asks for if it keeps the parts. -/
theorem FitStage.imp {H' : Holder} {M' : Calls} {stage : Stage} (h : FitStage gone w H M stage)
    (hblank : Blank H M → Blank H' M') (hworks : Works gone w H M → Works gone' w' H' M')
    (hstill : Still H M → (w = .rest → w' = .rest) ∧ Still H' M') (hgone : gone → gone') :
    FitStage gone' w' H' M' stage := by
  cases stage with
  | unused | waiting | growing | failed => exact hblank h
  | checking | granted => exact ⟨hblank h.1, (hstill h.1.still).1 h.2⟩
  | working => exact hworks h
  | leaving destroy =>
    intro hclean
    exact (hstill (h hclean).2).imp (fun hrest => hrest (h hclean).1) id
  | returned => exact (hstill h).2
  | gone => exact hgone h

/-! ## §2. How an operation's own steps keep its connection fit. -/

section Stages

variable (h : Fit gone w H M)
include h

theorem Fit.cancelled : Fit gone w { H with cancelled := true } M :=
  FitStage.imp h (fun hb => hb.move _ _ _) Works.cancelled
    (fun hs => ⟨id, hs.calls, hs.reader⟩) id

theorem Fit.mono (hgone : gone → gone') : Fit gone' w H M :=
  FitStage.imp h id (fun hw => hw.mono hgone) (fun hs => ⟨id, hs⟩) hgone

theorem Fit.of_not_owns (howns : H.stage.owns = false) : Fit gone' w' H M := by
  unfold Fit at h ⊢
  cases hstage : H.stage <;> rw [hstage] at h howns <;> first | exact h | cases howns

theorem Fit.still (howns : H.stage.owns = false) : Still H M := by
  unfold Fit at h
  cases hstage : H.stage <;> rw [hstage] at h howns <;>
    first | exact Blank.still h | exact h | cases howns

theorem Fit.started {H' : Holder}
    (hstarted : ¬ Plain H) (hstage : H'.stage = H.stage) (hkind : H'.kind = H.kind)
    (hmain : H'.main = H.main) (hreader : H'.reader = H.reader) (heos : H'.eos = H.eos) :
    Fit gone w H' M := by
  unfold Fit
  rw [hstage]
  refine FitStage.imp h (fun hb => absurd hb.plain hstarted) ?_
    (fun hs => ⟨id, hs.calls, hreader ▸ hs.reader⟩) id
  intro hworks
  cases hworks with
  | oneShot _ h | session _ h | insertStream _ _ _ h => exact absurd h.plain hstarted
  | queryStream hk worker hm h =>
    refine .queryStream (hkind.trans hk) worker ⟨hmain ▸ hm.main, hmain ▸ hm.only⟩ ?_
    cases h with
    | starting hplain _ _ _ => exact absurd hplain hstarted
    | reading hr he => exact .reading (hreader.trans hr) (heos.trans he)
    | finished hr hrest => exact .finished (hreader.trans hr) hrest

/-- A session or an insert stream that has destroyed its connection. -/
theorem Fit.struck (hM : M k n worker)
    (hn : n = .request ∧ H.kind ≠ .oneShot ∨ n = .sendData) (hgone : gone') :
    Fit gone' w (H.struck H.stage) M := by
  refine FitStage.imp h (fun hb => absurd hM (hb.calls k n worker)) ?_
    (fun hs => ⟨id, hs.calls, hs.reader⟩) (fun _ => hgone)
  have hplain : Plain H → Plain (H.struck H.stage) :=
    fun hp => ⟨hp.reader, hp.forwarding, hp.abandon, hp.eos⟩
  intro hworks
  cases hworks with
  | oneShot hk h =>
    obtain ⟨_, hmain⟩ := h.main
    obtain ⟨-, rfl, -⟩ := hmain.only k n worker hM
    obtain ⟨-, hne⟩ | hsend := hn
    · exact absurd hk hne
    · cases hsend
  | session hk h => exact .session hk ⟨hplain h.plain, h.calls, .inl hgone⟩
  | insertStream hk n' worker' h =>
    refine .insertStream hk n' worker' ⟨hplain h.plain, h.main, h.unique, h.native,
      h.others, ?_, .inl hgone⟩
    rintro (hopen | hother)
    · cases hopen
    · exact h.began (.inr hother)
  | queryStream hk _ hmain _ =>
    obtain ⟨-, rfl, -⟩ := hmain.only k n worker hM
    obtain ⟨hreq, -⟩ | hsend := hn
    · cases hreq
    · cases hsend

/-- A one-shot operation that has shut its connection down after it was cancelled. -/
theorem Fit.shut (hM : M k n worker) (hkind : H.kind = .oneShot)
    (hcancelled : H.cancelled = true) : Fit gone w { H with shut := true } M := by
  refine FitStage.imp h (fun hb => absurd hM (hb.calls k n worker)) ?_
    (fun hs => ⟨id, hs.calls, hs.reader⟩) id
  intro hworks
  cases hworks with
  | oneShot hk h =>
    obtain ⟨worker', hmain⟩ := h.main
    have hp := h.plain
    exact .oneShot hk ⟨⟨hp.reader, hp.forwarding, hp.abandon, hp.eos⟩,
      ⟨worker', hmain.main, hmain.only⟩, .inr rfl, fun _ => hcancelled⟩
  | session hk _ | insertStream hk _ _ _ | queryStream hk _ _ _ =>
    exact absurd (hkind.symm.trans hk) nofun

end Stages

/-- The calls after one of them has moved. -/
def Calls.set (M : Calls) (k : Nat) (n : Native) (worker : Worker) : Calls := fun k' n' w' =>
  (k' = k ∧ n' = n ∧ w' = worker) ∨ (k' ≠ k ∧ M k' n' w')

theorem OnlyMain.set (h : OnlyMain H M n worker) (worker' : Worker) :
    OnlyMain H (M.set H.main n worker') n worker' where
  main := .inl ⟨rfl, rfl, rfl⟩
  only := by
    rintro k n' w' (hk | ⟨hne, hm⟩)
    · exact hk
    · exact absurd (h.only k n' w' hm).1 hne

theorem FitInsert.set_main (h : FitInsert gone w H M n worker) (hworker : worker.unfinished = true)
    (hwire : w = expected n worker → H.shut = false → w' = expected n worker') :
    FitInsert gone w' H (M.set H.main n worker') n worker' where
  plain := h.plain
  main := .inl ⟨rfl, rfl, rfl⟩
  unique := by
    rintro n' w' (⟨-, hn, hw⟩ | ⟨hne, -⟩)
    · exact ⟨hn, hw⟩
    · exact absurd rfl hne
  native := h.native
  others := by
    rintro k n' w' (⟨hk, -⟩ | ⟨-, hm⟩) hne
    · exact absurd hk hne
    · exact h.others k n' w' hm hne
  began := by
    -- While the main call runs the stream is not open and nothing is sent.
    intro hbegan
    refine absurd (h.began ?_).2 ?_
    · obtain hopen | ⟨k, n', w', hm, hne, hw'⟩ := hbegan
      · exact .inl hopen
      obtain ⟨hk, -⟩ | ⟨-, hm⟩ := hm
      · exact absurd hk hne
      · exact .inr ⟨k, n', w', hm, hne, hw'⟩
    · rintro rfl
      cases hworker
  wire := h.wire.imp_right fun hw => ⟨hwire hw.1 hw.2, hw.2⟩

theorem FitInsert.set_other {n m : Native}
    {worker worker₀ worker' : Worker} (h : FitInsert gone w H M n worker)
    (hM : M k m worker₀) (hk : k ≠ H.main) (hworker : worker₀.unfinished = true)
    (hwire : w = .inserting → H.shut = false → w' = .inserting) :
    FitInsert gone w' H (M.set k m worker') n worker := by
  obtain ⟨rfl, rfl⟩ := h.began (.inr ⟨k, m, worker₀, hM, hk, hworker⟩)
  refine ⟨h.plain, .inr ⟨hk.symm, h.main⟩, ?_, h.native, ?_, fun _ => ⟨rfl, rfl⟩, ?_⟩
  · rintro n' w' (⟨heq, -⟩ | ⟨-, hm⟩)
    · exact absurd heq.symm hk
    · exact h.unique n' w' hm
  · rintro k' n' w' (⟨rfl, rfl, -⟩ | ⟨-, hm⟩) hne hw
    · exact h.others k' n' worker₀ hM hk hworker
    · exact h.others k' n' w' hm hne hw
  · exact h.wire.imp_right fun hw => ⟨hwire hw.1 hw.2, hw.2⟩

theorem expected_unfinished (h : worker.unfinished = true) (h' : ∀ e, worker' ≠ .ended e) :
    expected n worker = expected n worker' := by
  cases worker with
  | ended e | dropped => cases h
  | queued | running =>
    cases worker' with
    | ended e => exact absurd rfl (h' e)
    | _ => cases n <;> rfl

theorem Works.rework (h : Works gone w H M) (hM : M k n worker)
    (hworker : worker.unfinished = true) (hworker' : ∀ e, worker' ≠ .ended e) :
    Works gone w H (M.set k n worker') := by
  cases h with
  | oneShot hk h =>
    obtain ⟨worker₀, hmain⟩ := h.main
    obtain ⟨rfl, rfl, rfl⟩ := hmain.only k n worker hM
    exact .oneShot hk ⟨h.plain, ⟨worker', hmain.set worker'⟩, h.wire, h.shut⟩
  | session hk h =>
    refine .session hk ⟨h.plain, ?_, h.wire⟩
    rintro k' n' w' (⟨-, rfl, -⟩ | ⟨-, hm⟩)
    · exact h.calls k n' worker hM
    · exact h.calls k' n' w' hm
  | insertStream hk n₀ worker₀ h =>
    by_cases hmain : k = H.main
    · subst hmain
      obtain ⟨rfl, rfl⟩ := h.unique n worker hM
      refine .insertStream hk n worker' (h.set_main hworker ?_)
      intro hw _
      rw [hw]
      exact expected_unfinished hworker hworker'
    · exact .insertStream hk n₀ worker₀ (h.set_other hM hmain hworker fun hw _ => hw)
  | queryStream hk worker₀ hmain h =>
    obtain ⟨rfl, rfl, rfl⟩ := hmain.only k n worker hM
    refine .queryStream hk worker' (hmain.set worker') ?_
    cases h with
    | starting hplain hshut hrest _ =>
      exact .starting hplain hshut hrest (hworker' _)
    | reading _ _ | finished _ _ => cases hworker

/-- Where an operation stands while one of its calls is not finished. -/
theorem Fit.unfinished (h : Fit gone w H M) (hM : M k n worker)
    (hworker : worker.unfinished = true) :
    (H.stage = .working ∧ Works gone w H M) ∨ H.stage = .leaving true ∨
      (H.stage = .gone ∧ gone) := by
  have hstill : ¬ Still H M := by
    intro hs
    rw [hs.calls k n worker hM] at hworker
    cases hworker
  unfold Fit at h
  cases hcase : H.stage <;> rw [hcase] at h
  case working => exact .inl ⟨rfl, h⟩
  case leaving destroy =>
    cases destroy with
    | true => exact .inr (.inl rfl)
    | false => exact absurd (h rfl).2 hstill
  case returned => exact absurd h hstill
  case gone => exact .inr (.inr ⟨rfl, h⟩)
  all_goals first | exact absurd (Blank.still h) hstill | exact absurd (Blank.still h.1) hstill

/-- The reader thread of a stream starts with the end of its call. -/
def Holder.afterCall (H : Holder) (n : Native) (e : CallEnd) : Holder :=
  if n = .queryStream ∧ e = .ok then { H with reader := .reading } else H

/-- **A call ends**, by an answer, or because its operation has shut its connection. -/
theorem Works.finish (h : Works gone w H M) {e : CallEnd} {discarded : Bool} (hM : M k n worker)
    (hworker : worker.unfinished = true) (hpossible : e.possible n discarded = true)
    (hbroken : e = .broken ∨ (n = .endInsert ∧ e = .refused) → H.shut = true) :
    Works gone (w.after n e) (H.afterCall n e) (M.set k n (.ended e)) := by
  have hshut : H.shut = false → e ≠ .broken := by
    rintro hshut rfl
    exact absurd (hshut.symm.trans (hbroken (.inl rfl))) Bool.false_ne_true
  cases h with
  | oneShot hk h =>
    obtain ⟨worker₀, hmain⟩ := h.main
    obtain ⟨rfl, rfl, rfl⟩ := hmain.only k n worker hM
    refine .oneShot hk ⟨h.plain, ⟨_, hmain.set _⟩, ?_, h.shut⟩
    obtain rfl | hs := h.wire
    · cases e with
      | broken => exact .inr (hbroken (.inl rfl))
      | _ => exact .inl rfl
    · exact .inr hs
  | session hk h =>
    have hn := h.calls k n worker hM
    have hafter : H.afterCall n e = H := by
      obtain rfl | rfl := hn <;> rfl
    rw [hafter]
    refine .session hk ⟨h.plain, ?_, ?_⟩
    · rintro k' n' w' (⟨-, rfl, -⟩ | ⟨-, hm⟩)
      · exact hn
      · exact h.calls k' n' w' hm
    refine h.wire.imp_right ?_
    rintro ⟨rfl, hs⟩
    refine ⟨?_, hs⟩
    have hne := hshut hs
    obtain rfl | rfl := hn <;> cases e <;> first | rfl | exact absurd rfl hne
  | insertStream hk n₀ worker₀ h =>
    by_cases hmain : k = H.main
    · subst hmain
      obtain ⟨rfl, rfl⟩ := h.unique n worker hM
      have hafter : H.afterCall n e = H := by
        obtain rfl | rfl := h.native <;> rfl
      rw [hafter]
      refine .insertStream hk n (.ended e) (h.set_main hworker ?_)
      rintro rfl hs
      have hne := hshut hs
      have hrefused : ¬ (n = .endInsert ∧ e = .refused) := fun hr =>
        absurd (hs.symm.trans (hbroken (.inr hr))) Bool.false_ne_true
      obtain rfl | rfl := h.native
      · rw [show expected .beginInsert worker = .rest by cases worker <;> first | rfl | cases hworker]
        cases e <;> first | rfl | exact absurd rfl hne
      rw [show expected .endInsert worker = .inserting by
        cases worker <;> first | rfl | cases hworker]
      cases e <;> first | rfl | exact absurd rfl hne | exact absurd ⟨rfl, rfl⟩ hrefused
    · have hn := h.others k n worker hM hmain hworker
      subst hn
      refine .insertStream hk n₀ worker₀ (h.set_other hM hmain hworker ?_)
      rintro rfl hs
      have hne := hshut hs
      cases e with
      | answered => cases hpossible
      | broken => exact absurd rfl hne
      | ok | refused => rfl
  | queryStream hk worker₀ hmain h =>
    obtain ⟨rfl, rfl, rfl⟩ := hmain.only k n worker hM
    cases h with
    | starting hplain hs hrest _ =>
      have hne := hshut hs
      subst hrest
      cases e with
      | ok =>
        exact .queryStream hk (.ended .ok) ⟨(hmain.set _).main, (hmain.set _).only⟩
          (.reading rfl hplain.eos)
      | answered => cases hpossible
      | refused =>
        exact .queryStream hk (.ended .refused) (hmain.set _)
          (.starting hplain hs rfl nofun)
      | broken => exact absurd rfl hne
    | reading _ _ | finished _ _ => cases hworker

/-- The operation that makes a call of a kind that only insert streams make. -/
theorem Works.insert_of_main (h : Works gone w H M) (hM : M H.main n worker)
    (hn : n = .beginInsert ∨ n = .endInsert) :
    H.kind = .insertStream ∧ FitInsert gone w H M n worker := by
  cases h with
  | oneShot _ h =>
    obtain ⟨_, hmain⟩ := h.main
    obtain ⟨-, rfl, -⟩ := hmain.only _ _ _ hM
    obtain hn | hn := hn <;> cases hn
  | session _ h =>
    obtain rfl | rfl := h.calls _ _ _ hM
    · obtain hn | hn := hn <;> cases hn
    · obtain hn | hn := hn <;> cases hn
  | insertStream hk n' worker' h =>
    obtain ⟨rfl, rfl⟩ := h.unique _ _ hM
    exact ⟨hk, h⟩
  | queryStream _ _ hmain _ =>
    obtain ⟨-, rfl, -⟩ := hmain.only _ _ _ hM
    obtain hn | hn := hn <;> cases hn

/-- The operation that makes a call of a kind that only query streams make. -/
theorem Works.stream_of_main (h : Works gone w H M) (hM : M H.main .queryStream worker) :
    OnlyMain H M .queryStream worker ∧ FitStream w H worker := by
  cases h with
  | oneShot _ h =>
    obtain ⟨_, hmain⟩ := h.main
    obtain ⟨-, h, -⟩ := hmain.only _ _ _ hM
    cases h
  | session _ h => obtain h | h := h.calls _ _ _ hM <;> cases h
  | insertStream _ n' worker' h =>
    obtain ⟨rfl, -⟩ := h.unique _ _ hM
    obtain hn | hn := h.native <;> cases hn
  | queryStream _ _ hmain h =>
    obtain ⟨-, -, rfl⟩ := hmain.only _ _ _ hM
    exact ⟨hmain, h⟩

theorem FitInsert.clean {e : CallEnd}
    (h : FitInsert gone w H M .endInsert (.ended e)) : Still H M ∧ (gone ∨ w = .rest) := by
  refine ⟨⟨?_, ?_⟩, h.wire.imp_right And.left⟩
  · intro k n w' hm
    by_cases hk : k = H.main
    · obtain ⟨-, rfl⟩ := h.unique n w' (hk ▸ hm)
      rfl
    by_contra hbusy
    obtain ⟨hn, -⟩ := h.began (.inr ⟨k, n, w', hm, hk, by simpa using hbusy⟩)
    cases hn
  · rw [h.plain.reader]
    nofun

theorem FitStream.clean (hmain : OnlyMain H M .queryStream worker) (h : FitStream w H worker)
    (hworker : worker.unfinished = false) (hok : worker ≠ .ended .ok) :
    Still H M ∧ w = .rest := by
  cases h with
  | starting hplain _ hrest _ =>
    refine ⟨⟨?_, ?_⟩, hrest⟩
    · intro k n w' hm
      obtain ⟨-, -, rfl⟩ := hmain.only k n w' hm
      exact hworker
    · rw [hplain.reader]
      nofun
  | reading _ _ | finished _ _ => exact absurd rfl hok

end StClickHouse.Python
