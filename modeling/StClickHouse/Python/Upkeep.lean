/-
  StClickHouse.Python.Upkeep
  **THE ORDERLY STEPS OF OPERATIONS.**

  What a native call, the task that awaits it and the threads of a stream do to a tidy
  client, when calls fail by an answer of the server only, or because their operation was
  cancelled, and nobody closes or cancels under a running call.
-/
import StClickHouse.Python.Tidiness

namespace StClickHouse.Python

open Leasing Function

namespace World

/-! ## §1. The steps of a call. -/

/-- What an orderly step is.  A native call fails in no other way than by an answer of the
    server or before anything was written, unless its operation has shut the connection; a
    stream whose start was handed to the executor is not cancelled; a session or an insert
    stream is closed when its calls have ended; a stream ends with its terminal packet. -/
def Orderly (s : World) : WorldAction → Prop
  | .call k (.finish e) => ∀ K, s.calls k = some K →
      e = .broken ∨ (K.native = .endInsert ∧ e = .refused) → (s.holders K.holder).shut = true
  | .call k .handle => ∀ K, s.calls k = some K → K.native = .queryStream →
      K.worker = .dropped ∨ K.worker = .ended .refused
  | .holder h (.close _) => ∀ k n w, s.mine h k n w → w.unfinished = false
  | .holder _ .readFake => False
  | _ => True

variable {s s' : World} {k h : Nat} {K : NativeCall} {H : Holder} {n : Native}

theorem set_self (hK : s.calls k = some K) :
    (s.mine K.holder).set k K.native K.worker = s.mine K.holder := by
  have h := mine_retask hK K.task K.holder
  rw [mine_setCall_eq rfl] at h
  exact h

theorem holder_of_call {K' : NativeCall} (hK : s.calls k = some K) (hsame : K.holder = K'.holder) :
    ∀ K₀, s.calls k = some K₀ → K₀.holder = K'.holder := by
  intro K₀ hK₀
  rw [hK, Option.some.injEq] at hK₀
  exact hK₀ ▸ hsame

theorem Tidy.retask (hs : Tidy s) (hsole : Sole s')
    (t : TaskState) (hK : s.calls k = some K)
    (hcalls : s'.calls = update s.calls k (some { K with task := t }))
    (hholders : s'.holders = update s.holders K.holder H) (hwire : s'.wire = s.wire)
    (hnext : s'.nextConn = s.nextConn) (hpool : Fewer s.pool s'.pool)
    (hkind : H.kind = (s.holders K.holder).kind)
    (hcancelled : (s.holders K.holder).cancelled = true → H.cancelled = true)
    (hnew : t = .flagged ∨ t = .killed → H.kind = .oneShot ∧ H.cancelled = true)
    (hfit : Fit (H.conn ∉ s'.pool.all) (s.wire H.conn) H (s.mine K.holder)) : Tidy s' := by
  refine hs.of_call hsole hcalls (holder_of_call hK rfl) hholders (.inl hwire) hnext hpool hkind
    hcancelled hnew ?_
  rw [hwire]
  exact (set_self hK).symm ▸ hfit

theorem Tidy.retask_only (hs : Tidy s) {t : TaskState}
    (hK : s.calls k = some K) (ht : ¬ (t = .flagged ∨ t = .killed)) :
    Tidy (s.setCall k { K with task := t }) :=
  hs.retask (hs.sole.setCall _ _) t hK rfl (update_eq_self _ _).symm rfl rfl hs.fewer
    rfl id (fun h => absurd h ht) (hs.fit K.holder)

theorem Tidy.destroy (hs : Tidy s) {stage : Stage}
    (hstage : stage = (s.holders h).stage ∨ (s.holders h).stage.owns = true)
    (hfit : ((s.holders h).conn ∉ (s.pool.remove (s.holders h).conn).all) →
      Fit ((s.holders h).conn ∉ (s.pool.remove (s.holders h).conn).all)
        (s.wire (s.holders h).conn) ((s.holders h).struck stage) (s.mine h)) :
    Tidy (s.destroy h stage) :=
  hs.of_holder (hs.sole.destroy hstage) rfl rfl rfl le_rfl (hs.fewer_remove _) rfl id
    (hfit (hs.not_mem_remove _))

theorem Tidy.works (hs : Tidy s) (hstage : (s.holders h).stage = .working) :
    Works (s.Lost h) (s.wire (s.holders h).conn) (s.holders h) (s.mine h) := by
  have hfit := hs.fit h
  unfold FitAt Fit at hfit
  rw [hstage] at hfit
  exact hfit

theorem mine_self (hK : s.calls k = some K) :
    s.mine K.holder k K.native K.worker := ⟨K, hK, rfl, rfl, rfl⟩

theorem Ready.settled (hready : Ready s h)
    (hK : s.calls k = some K) : Ready (s.setCall k { K with task := .settled }) h := by
  refine ⟨hready.owns, ?_, hready.rest⟩
  rw [mine_retask hK]
  exact hready.still

theorem setHolder_self {t : World} (ht : t.holders = s.holders) :
    t.setHolder h (s.holders h) = t := by
  rw [← ht, setHolder, update_eq_self]

section Calls

variable (hs : Tidy s) (hK : s.calls k = some K)
include hs hK

theorem Tidy.settled : Tidy (s.setCall k { K with task := .settled }) :=
  hs.retask_only hK (by rintro (h | h) <;> cases h)

theorem Tidy.ready_insert {e : CallEnd} (hnative : K.native = .endInsert) (hworker : K.worker = .ended e)
    (hstage : (s.holders K.holder).stage = .working) (hmain : (s.holders K.holder).main = k) :
    Ready s K.holder := by
  have hmine := mine_self hK
  rw [hnative, hworker, ← hmain] at hmine
  obtain ⟨hstill, hrest⟩ := ((hs.works hstage).insert_of_main hmine (.inr rfl)).2.clean
  exact ⟨owns_of_eq hstage rfl, hstill, hrest⟩

/-- A query stream whose start was not run, or raised before it wrote anything. -/
theorem Tidy.ready_stream (hnative : K.native = .queryStream)
    (hworker : K.worker.unfinished = false) (hok : K.worker ≠ .ended .ok)
    (hstage : (s.holders K.holder).stage = .working) (hmain : (s.holders K.holder).main = k) :
    Ready s K.holder := by
  have hmine := mine_self hK
  rw [hnative, ← hmain] at hmine
  obtain ⟨honly, h⟩ := (hs.works hstage).stream_of_main hmine
  obtain ⟨hstill, hrest⟩ := h.clean honly hworker hok
  exact ⟨owns_of_eq hstage rfl, hstill, .inr hrest⟩

/-- A query stream whose start an orderly handler of a cancellation finds. -/
theorem Tidy.ready_unstarted (hnative : K.native = .queryStream)
    (hworker : K.worker = .dropped ∨ K.worker = .ended .refused)
    (hstage : (s.holders K.holder).stage = .working) (hmain : (s.holders K.holder).main = k) :
    Ready s K.holder := by
  obtain hw | hw := hworker
  · exact hs.ready_stream hK hnative (by rw [hw]; rfl) (by rw [hw]; nofun) hstage hmain
  · exact hs.ready_stream hK hnative (by rw [hw]; rfl) (by rw [hw]; nofun) hstage hmain

theorem Tidy.noticeCall (hstep : s.noticeCall k K (s.holders K.holder) = some s') : Tidy s' := by
  have hsole := (noticeCall_moves hK hstep).sole hs.sole
  have hsettled := hs.settled hK
  have hmine := mine_self hK
  unfold World.noticeCall at hstep
  simp only at hstep
  split at hstep
  · obtain ⟨-, hstep⟩ := of_check hstep
    cases hstep
    exact hsettled
  · cases hstep
    exact hsettled
  · cases hstep
    exact hsettled
  · next hnative hworker =>
    obtain ⟨hstage, rfl⟩ := of_guard hstep
    refine hsettled.of_holder hsole rfl rfl rfl le_rfl hsettled.fewer rfl id ?_
    rw [hnative, hworker, ← hstage.2] at hmine
    obtain ⟨hkind, h⟩ := (hs.works hstage.1).insert_of_main hmine (.inl rfl)
    have hp := h.plain
    rw [mine_retask hK]
    rw [hstage.1]
    exact .insertStream hkind .beginInsert (.ended .ok)
      ⟨⟨hp.reader, hp.forwarding, hp.abandon, hp.eos⟩, h.main, h.unique, h.native, h.others,
        fun _ => ⟨rfl, rfl⟩, h.wire⟩
  · obtain ⟨hstage, rfl⟩ := of_guard hstep
    exact hsettled.destroy (.inr (owns_of_eq hstage.1 rfl)) fun hgone => hgone
  · next e hnative hworker =>
    obtain ⟨hstage, rfl⟩ := of_guard hstep
    exact hsettled.release
      ((hs.ready_insert hK hnative hworker hstage.1 hstage.2).settled hK)
  · next hnative hworker =>
    obtain ⟨hstage, rfl⟩ := of_guard hstep
    rw [hnative, hworker, ← hstage.2] at hmine
    obtain ⟨hmain, h⟩ := (hs.works hstage.1).stream_of_main hmine
    refine hsettled.of_holder hsole rfl rfl rfl le_rfl hsettled.fewer rfl id ?_
    refine Fit.started (hsettled.fit K.holder) ?_ rfl rfl rfl rfl rfl
    intro hplain
    have hnone : (s.holders K.holder).reader = .none := hplain.reader
    cases h with
    | starting _ _ _ hok => exact hok rfl
    | reading hreader _ | finished hreader _ => exact absurd (hnone.symm.trans hreader) nofun
  · next e hok hnative hworker =>
    obtain ⟨hstage, rfl⟩ := of_guard hstep
    refine hsettled.release ((hs.ready_stream hK hnative ?_ ?_ hstage.1 hstage.2).settled hK)
    · rw [hworker]
      rfl
    · rw [hworker]
      exact fun heq => hok (Worker.ended.inj heq)
  · cases hstep

theorem Tidy.handleCall (horderly : K.native = .queryStream →
      K.worker = .dropped ∨ K.worker = .ended .refused)
    (hstep : s.handleCall k K (s.holders K.holder) = some s') : Tidy s' := by
  have hsettled := hs.settled hK
  have hmine := mine_self hK
  unfold World.handleCall at hstep
  simp only at hstep
  split at hstep
  · next hnative =>
    obtain ⟨hkind, hstep⟩ := of_check hstep
    cases hstep
    refine hsettled.destroy (.inl rfl) ?_
    intro hgone
    rw [mine_retask hK]
    exact (hs.fit K.holder).struck hmine (.inl ⟨hnative, hkind⟩) hgone
  · cases hstep
    exact hsettled
  · next hnative =>
    cases hstep
    refine hsettled.destroy (.inl rfl) ?_
    intro hgone
    rw [mine_retask hK]
    exact (hs.fit K.holder).struck hmine (.inr hnative) hgone
  · obtain ⟨hstage, rfl⟩ := of_guard hstep
    exact hsettled.destroy (.inr (owns_of_eq hstage.1 rfl)) fun hgone => hgone
  · obtain ⟨hstage, rfl⟩ := of_guard hstep
    exact hsettled.destroy (.inr (owns_of_eq hstage.1 rfl)) fun hgone => hgone
  · next hnative =>
    obtain ⟨hstage, rfl⟩ := of_guard hstep
    exact hsettled.release ((hs.ready_unstarted hK hnative (horderly hnative) hstage.1
      hstage.2).settled hK)

theorem Tidy.rework (hqueued : K.worker = .queued) {worker : Worker}
    (hworker : ∀ e, worker ≠ .ended e) : Tidy (s.setCall k { K with worker := worker }) := by
  refine hs.of_call (hs.sole.setCall _ _) rfl (holder_of_call hK rfl)
    (update_eq_self _ _).symm (.inl rfl) rfl hs.fewer rfl id (hs.flags k K hK) ?_
  have hmine := mine_self hK
  have hunfinished : K.worker.unfinished = true := by rw [hqueued]; rfl
  show FitStage (s.Lost K.holder) (s.wire (s.holders K.holder).conn) (s.holders K.holder)
    ((s.mine K.holder).set k K.native worker) (s.holders K.holder).stage
  obtain ⟨hstage, hworks⟩ | hstage | ⟨hstage, hgone⟩ :=
    (hs.fit K.holder).unfinished hmine hunfinished
  · rw [hstage]
    exact hworks.rework hmine hunfinished hworker
  · rw [hstage]
    nofun
  · rw [hstage]
    exact hgone

theorem Tidy.finish {e : CallEnd} (hrunning : K.worker = .running)
    (hpossible : e.possible K.native (s.discarded (s.holders K.holder).conn) = true)
    (hbroken : e = .broken ∨ (K.native = .endInsert ∧ e = .refused) →
      (s.holders K.holder).shut = true) :
    Tidy (((s.setCall k { K with worker := .ended e }).setWire (s.holders K.holder).conn
      ((s.wire (s.holders K.holder).conn).after K.native e)).setHolder K.holder
        ((s.holders K.holder).afterCall K.native e)) := by
  have hmine := mine_self hK
  have hunfinished : K.worker.unfinished = true := by rw [hrunning]; rfl
  have hnotes : ((s.holders K.holder).afterCall K.native e).stage = (s.holders K.holder).stage ∧
      ((s.holders K.holder).afterCall K.native e).conn = (s.holders K.holder).conn ∧
      ((s.holders K.holder).afterCall K.native e).kind = (s.holders K.holder).kind ∧
      ((s.holders K.holder).afterCall K.native e).cancelled = (s.holders K.holder).cancelled := by
    unfold Holder.afterCall
    split
    · exact ⟨rfl, rfl, rfl, rfl⟩
    · exact ⟨rfl, rfl, rfl, rfl⟩
  obtain ⟨hstage, hconn, hkind, hcancelled⟩ := hnotes
  have howns : (s.holders K.holder).stage.owns = true := by
    refine hs.owns ?_
    intro hstill
    rw [hstill.calls _ _ _ hmine] at hunfinished
    cases hunfinished
  refine hs.of_call (hs.sole.notes rfl rfl rfl hstage hconn) rfl (holder_of_call hK rfl) rfl
    (.inr ⟨howns, fun c hc => update_of_ne hc _ _⟩) rfl hs.fewer hkind
    (fun h => hcancelled ▸ h) ?_ ?_
  · intro htask
    rw [hkind, hcancelled]
    exact hs.flags k K hK htask
  unfold Fit
  rw [hstage, hconn]
  have hwire : ((((s.setCall k { K with worker := .ended e }).setWire
      (s.holders K.holder).conn ((s.wire (s.holders K.holder).conn).after K.native e)).setHolder
      K.holder ((s.holders K.holder).afterCall K.native e)).wire (s.holders K.holder).conn) =
      (s.wire (s.holders K.holder).conn).after K.native e := update_self _ _ _
  rw [hwire]
  obtain ⟨hst, hworks⟩ | hst | ⟨hst, hgone⟩ :=
    (hs.fit K.holder).unfinished hmine hunfinished
  · rw [hst]
    exact hworks.finish hmine hunfinished hpossible hbroken
  · rw [hst]
    nofun
  · rw [hst]
    exact hgone

theorem Tidy.call {a : CallAction} (horderly : Orderly s (.call k a))
    (hstep : s.callStep k K (s.holders K.holder) a = some s') : Tidy s' := by
  have hsole := (call_moves hK hstep).sole hs.sole
  have hmine := mine_self hK
  cases a with
  | run =>
    obtain ⟨hqueued, rfl⟩ := of_guard hstep
    exact hs.rework hK hqueued nofun
  | unqueue =>
    obtain ⟨hqueued, rfl⟩ := of_guard hstep
    exact hs.rework hK hqueued.1 nofun
  | finish e =>
    obtain ⟨hrunning, hstep⟩ := of_guard_then hstep
    have hfinish := hs.finish hK hrunning.1 hrunning.2 (horderly K hK)
    unfold Holder.afterCall at hfinish
    split at hstep <;> cases hstep
    · next hok =>
        rw [if_pos hok] at hfinish
        exact hfinish
    · next hok =>
        rw [if_neg hok] at hfinish
        rw [setHolder_self] at hfinish
        · exact hfinish
        · rfl
  | cancel =>
    obtain ⟨-, rfl⟩ := of_guard hstep
    exact hs.retask_only hK (by rintro (h | h) <;> cases h)
  | timeOut =>
    obtain ⟨-, rfl⟩ := of_guard hstep
    exact hs.settled hK
  | notice =>
    obtain ⟨-, hstep⟩ := of_guard_then hstep
    exact hs.noticeCall hK hstep
  | handle =>
    obtain ⟨-, hstep⟩ := of_guard_then hstep
    exact hs.handleCall hK (horderly K hK) hstep
  | flag =>
    obtain ⟨htask, rfl⟩ := of_guard hstep
    exact hs.retask hsole .flagged hK rfl rfl rfl rfl hs.fewer rfl (fun _ => rfl)
      (fun _ => ⟨htask.2, rfl⟩) (hs.fit K.holder).cancelled
  | kill =>
    obtain ⟨htask, rfl⟩ := of_guard hstep
    obtain ⟨hkind, hcancelled⟩ := hs.flags k K hK (.inl htask)
    exact hs.retask hsole .killed hK rfl rfl rfl rfl hs.fewer rfl id
      (fun _ => ⟨hkind, hcancelled⟩) ((hs.fit K.holder).shut hmine hkind hcancelled)
  | remove =>
    obtain ⟨-, rfl⟩ := of_guard hstep
    refine hs.retask hsole .settled hK rfl (update_eq_self _ _).symm rfl rfl
      (hs.fewer_remove _) rfl id (by rintro (h | h) <;> cases h) ?_
    exact (hs.fit K.holder).mono fun hlost hmem => hlost ((hs.fewer_remove _).all _ hmem)
  | leave =>
    obtain ⟨e, hworker, hstage, rfl⟩ := callStep_leave hstep
    refine hs.of_holder hsole rfl rfl rfl le_rfl hs.fewer rfl id ?_
    -- Its only call has ended; unless it was cancelled, the answer was read.
    intro hclean
    cases hs.works hstage.2 with
    | oneShot _ h =>
      obtain ⟨worker, hmain⟩ := h.main
      obtain ⟨-, -, rfl⟩ := hmain.only _ _ _ hmine
      refine ⟨h.wire.resolve_right ?_, ?_, ?_⟩
      · intro hshut
        exact absurd (hclean.symm.trans (h.shut hshut)) Bool.false_ne_true
      · intro k' n' w' hm
        obtain ⟨-, -, rfl⟩ := hmain.only k' n' w' hm
        rw [hworker]
        rfl
      show (s.holders K.holder).reader ≠ .reading
      rw [h.plain.reader]
      nofun
    | session hk _ | insertStream hk _ _ _ | queryStream hk _ _ _ =>
      exact absurd (hstage.1.symm.trans hk) nofun
  | dropStream =>
    obtain ⟨hstage, hstep⟩ := of_guard_then hstep
    have hstill := (hs.fit K.holder).still (by rw [hstage.2.1]; rfl)
    exact absurd hstage.2.2.1 hstill.reader

end Calls

/-! ## §2. The other steps of a holder. -/

theorem mine_of_none (hk : s.calls k = none) {w : Worker} :
    ¬ s.mine h k n w := by
  rintro ⟨K, hK, -⟩
  rw [hk] at hK
  cases hK

theorem Tidy.submit (hs : Tidy s)
    (hstage : (s.holders h).stage = .working) (hopen : (s.holders h).isOpen = true)
    (hlater : laterCall (s.holders h).kind n = true) (hk : s.calls k = none) :
    Tidy (s.setCall k ⟨h, n, .queued, .awaiting⟩) := by
  refine hs.newCall (hs.sole.setCall _ _) hk rfl (update_eq_self _ _).symm rfl rfl rfl
    rfl rfl ?_
  show FitStage (s.Lost h) (s.wire (s.holders h).conn) (s.holders h)
    ((s.mine h).set k n .queued) (s.holders h).stage
  rw [hstage]
  cases hs.works hstage with
  | oneShot hkind _ | queryStream hkind _ _ _ =>
    rw [hkind] at hlater
    cases hlater
  | session hkind hw =>
    rw [hkind] at hlater
    refine .session hkind ⟨hw.plain, ?_, hw.wire⟩
    rintro k' n' w' (⟨-, rfl, -⟩ | ⟨-, hm⟩)
    · cases n' <;> first | exact .inl rfl | exact .inr rfl | cases hlater
    · exact hw.calls k' n' w' hm
  | insertStream hkind n₀ worker hw =>
    rw [hkind] at hlater
    obtain rfl : n = .sendData := by cases n <;> first | rfl | cases hlater
    have hne : (s.holders h).main ≠ k := by
      rintro rfl
      exact mine_of_none hk hw.main
    refine .insertStream hkind n₀ worker ⟨hw.plain, .inr ⟨hne, hw.main⟩, ?_, hw.native, ?_,
      fun _ => hw.began (.inl hopen), hw.wire⟩
    · rintro n' w' (⟨heq, -⟩ | ⟨-, hm⟩)
      · exact absurd heq hne
      · exact hw.unique n' w' hm
    rintro k' n' w' (⟨-, rfl, -⟩ | ⟨-, hm⟩) hk' hw'
    · rfl
    · exact hw.others k' n' w' hm hk' hw'

theorem Tidy.closeInsert (hs : Tidy s)
    (hkind : (s.holders h).kind = .insertStream) (hstage : (s.holders h).stage = .working)
    (hopen : (s.holders h).isOpen = true) (hk : s.calls k = none)
    (horderly : ∀ k n w, s.mine h k n w → w.unfinished = false)
    (hsole : Sole ((s.setHolder h { s.holders h with isOpen := false, main := k }).setCall k
      ⟨h, .endInsert, .queued, .awaiting⟩)) :
    Tidy ((s.setHolder h { s.holders h with isOpen := false, main := k }).setCall k
      ⟨h, .endInsert, .queued, .awaiting⟩) := by
  refine hs.newCall hsole hk rfl rfl rfl rfl rfl rfl rfl ?_
  show FitStage _ _ _ _ (s.holders h).stage
  rw [hstage]
  cases hs.works hstage with
  | oneShot hk' _ | session hk' _ | queryStream hk' _ _ _ =>
    exact absurd (hkind.symm.trans hk') nofun
  | insertStream _ n₀ worker hw =>
    obtain ⟨rfl, rfl⟩ := hw.began (.inl hopen)
    have hp := hw.plain
    refine .insertStream hkind .endInsert .queued
      ⟨⟨hp.reader, hp.forwarding, hp.abandon, hp.eos⟩, .inl ⟨rfl, rfl, rfl⟩, ?_, .inr rfl, ?_, ?_,
        hw.wire⟩
    · rintro n' w' (⟨-, hn, hw'⟩ | ⟨hne, -⟩)
      · exact ⟨hn, hw'⟩
      · exact absurd rfl hne
    · rintro k' n' w' (⟨heq, -⟩ | ⟨-, hm⟩) hne hw'
      · exact absurd heq hne
      · rw [horderly k' n' w' hm] at hw'
        cases hw'
    rintro (hfalse | ⟨k', n', w', ⟨heq, -⟩ | ⟨-, hm⟩, hne, hw'⟩)
    · cases hfalse
    · exact absurd heq hne
    · rw [horderly k' n' w' hm] at hw'
      cases hw'

theorem Tidy.ready_session (hs : Tidy s)
    (hkind : (s.holders h).kind = .session) (hstage : (s.holders h).stage = .working)
    (horderly : ∀ k n w, s.mine h k n w → w.unfinished = false) : Ready s h := by
  cases hs.works hstage with
  | oneShot hk _ | insertStream hk _ _ _ | queryStream hk _ _ _ =>
    exact absurd (hkind.symm.trans hk) nofun
  | session _ hw =>
    refine ⟨owns_of_eq hstage rfl, ⟨horderly, ?_⟩, hw.wire.imp_right And.left⟩
    rw [hw.plain.reader]
    nofun

theorem Tidy.reader (hs : Tidy s) {w : Wire}
    (hreading : (s.holders h).reader = .reading) (hstage : H.stage = (s.holders h).stage)
    (hconn : H.conn = (s.holders h).conn) (hkind : H.kind = (s.holders h).kind)
    (hcancelled : H.cancelled = (s.holders h).cancelled) (hmain : H.main = (s.holders h).main)
    (hfit : FitStream (s.wire (s.holders h).conn) (s.holders h) (.ended .ok) →
      FitStream w H (.ended .ok)) :
    Tidy ((s.setHolder h H).setWire (s.holders h).conn w) := by
  have hnot : ¬ Still (s.holders h) (s.mine h) := fun hstill => hstill.reader hreading
  have howns := hs.owns hnot
  have hplain : ¬ Plain (s.holders h) := fun hp =>
    absurd (hp.reader.symm.trans hreading) nofun
  have hsole : Sole ((s.setHolder h H).setWire (s.holders h).conn w) :=
    hs.sole.notes rfl rfl rfl hstage hconn
  refine hs.frame hsole rfl (fun _ _ => rfl)
    (.inr ⟨howns, fun c hc => update_of_ne hc _ _⟩) le_rfl
    (fun c hc => .inl hc) hs.closed (fun c hc => .inl hc)
    (hs.flags_kept hkind fun hc => hcancelled.trans hc) ?_
  unfold Fit
  have hwire : ((s.setHolder h H).setWire (s.holders h).conn w).wire H.conn = w := by
    rw [hconn]
    exact update_self _ _ _
  rw [hstage, hwire, hconn]
  refine FitStage.imp (hs.fit h) (fun hb => absurd hb.plain hplain) ?_
    (fun hstill => absurd hstill hnot) id
  intro hworks
  cases hworks with
  | oneShot _ hw | session _ hw | insertStream _ _ _ hw => exact absurd hw.plain hplain
  | queryStream hk worker hm hw =>
    have hworker : worker = .ended .ok := by
      cases hw with
      | starting hp _ _ _ => exact absurd hp hplain
      | reading _ _ | finished _ _ => rfl
    subst hworker
    exact .queryStream (hkind.trans hk) _ ⟨hmain ▸ hm.main, hmain ▸ hm.only⟩ (hfit hw)

theorem Tidy.holder (hs : Tidy s) {a : HolderAction}
    (horderly : Orderly s (.holder h a))
    (hstep : s.holderStep h (s.holders h) a = some s') : Tidy s' := by
  have hsole := (holder_moves hstep).sole hs.sole
  cases a with
  | submit k native =>
    obtain ⟨hcan, rfl⟩ := of_guard hstep
    exact hs.submit hcan.1 hcan.2.1 hcan.2.2.1 hcan.2.2.2
  | close k =>
    simp only [holderStep] at hstep
    split at hstep
    · next hkind =>
      obtain ⟨hstage, rfl⟩ := of_guard hstep
      exact hs.release (hs.ready_session hkind hstage horderly)
    · next hkind =>
      obtain ⟨hcan, rfl⟩ := of_guard hstep
      exact hs.closeInsert hkind hcan.1 hcan.2.1 hcan.2.2 horderly hsole
    · cases hstep
  | giveBack =>
    simp only [holderStep] at hstep
    split at hstep <;> cases hstep
    · next hstage =>
        exact hs.release (hs.ready_leaving hstage)
    · next hstage =>
        exact hs.destroy (.inr (owns_of_eq hstage rfl)) fun hgone => hgone
  | readEnd =>
    obtain ⟨hreading, rfl⟩ := of_guard hstep
    exact hs.reader hreading.1 rfl rfl rfl rfl rfl fun _ => .finished rfl rfl
  | readFake => exact absurd horderly id
  | readFail =>
    obtain ⟨hreading, rfl⟩ := of_guard hstep
    refine hs.reader hreading rfl rfl rfl rfl rfl ?_
    intro hw
    cases hw with
    | starting hp _ _ _ => cases hp.reader.symm.trans hreading
    | reading _ heos => exact .reading hreading heos
    | finished hover _ => cases hover.symm.trans hreading
  | forwarded =>
    obtain ⟨hcan, rfl⟩ := of_guard hstep
    have hplain : ¬ Plain (s.holders h) := fun hp =>
      absurd (hp.forwarding.symm.trans hcan.2.1) Bool.false_ne_true
    refine hs.of_holder hsole rfl rfl rfl le_rfl hs.fewer rfl id ?_
    -- Without a kill, and at the terminal packet: the reader is done with the connection.
    intro hclean
    simp only [Bool.or_eq_false_iff, Bool.not_eq_false'] at hclean
    cases hs.works hcan.1 with
    | oneShot _ hw | session _ hw | insertStream _ _ _ hw => exact absurd hw.plain hplain
    | queryStream _ worker hm hw =>
      cases hw with
      | starting hp _ _ _ => exact absurd hp hplain
      | reading _ heos => exact absurd (heos.symm.trans hclean.2) Bool.false_ne_true
      | finished hover hrest =>
        refine ⟨hrest, ?_, ?_⟩
        · intro k n w' hm'
          obtain ⟨-, -, rfl⟩ := hm.only k n w' hm'
          rfl
        show (s.holders h).reader ≠ .reading
        rw [hover]
        decide
  | abandon =>
    obtain ⟨hcan, rfl⟩ := of_guard hstep
    refine hs.of_holder hsole rfl rfl rfl le_rfl hs.fewer rfl id ?_
    refine Fit.started (hs.fit h) ?_ rfl rfl rfl rfl rfl
    exact fun hp => absurd (hp.forwarding.symm.trans hcan.1) Bool.false_ne_true
  | abandonKill =>
    obtain ⟨hcan, rfl⟩ := of_guard hstep
    refine hs.of_holder hsole rfl rfl rfl le_rfl hs.fewer rfl id ?_
    refine Fit.started (hs.fit h) ?_ rfl rfl rfl rfl rfl
    intro hp
    cases hp.abandon.symm.trans hcan

end World

end StClickHouse.Python
