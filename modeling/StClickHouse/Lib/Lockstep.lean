/-
  StClickHouse.Lib.Lockstep
  **ONE READER ON TWO STATES.**

  `Sim` lets one side fail alone and says nothing about the states after an error.  A
  reader that asks its state for nothing but what two states answer alike does more: it
  yields the same result on both, errors included, and leaves the states related whether
  it has failed or not.  A caller that goes on after an error needs that.
-/
import StClickHouse.Lib.Reader

namespace ByteReader

variable {ε σ τ α β γ : Type}

/-- **Lockstep**: from related states the same result, and related states. -/
def Lock (r : σ → τ → Prop) (x : Reader ε σ α) (y : Reader ε τ α) : Prop :=
  ∀ s t, r s t → (x s).1 = (y t).1 ∧ r (x s).2 (y t).2

/-- A reader of any stream in lockstep with itself. -/
abbrev Locks [ByteStream ε σ] [ByteStream ε τ] (r : σ → τ → Prop)
    (x : ∀ {ρ : Type} [ByteStream ε ρ], Reader ε ρ α) : Prop := Lock r (@x σ _) (@x τ _)

/-- Results in lockstep: the same error, or related values. -/
def SameEnd (R : α → β → Prop) : Except (Stop ε) α → Except (Stop ε) β → Prop
  | .ok a, .ok b => R a b
  | .error e, .error e' => e = e'
  | _, _ => False

/-- What lockstep relates. -/
def Logic.lock (r : σ → τ → Prop) : Logic ε σ τ where
  rel R x y := ∀ s t, r s t → SameEnd R (x s).1 (y t).1 ∧ r (x s).2 (y t).2
  pure h _ _ hst := ⟨h, hst⟩
  fail _ _ hst := ⟨rfl, hst⟩
  tooDeep _ _ hst := ⟨rfl, hst⟩
  bind := by
    intro α β α' β' R R' x y f g hx hf s t hst
    have h := hx s t hst
    rw [bind_apply, bind_apply]
    rcases hxs : x s with ⟨res, s'⟩
    rcases hyt : y t with ⟨res', t'⟩
    rw [hxs, hyt] at h
    cases res with
    | ok a => cases res' with
      | ok b => exact hf a b h.1 s' t' h.2
      | error e => exact h.1.elim
    | error e => cases res' with
      | ok b => exact h.1.elim
      | error e' => exact h

section Rules

variable {r : σ → τ → Prop} {x : Reader ε σ α} {y : Reader ε τ α}

theorem Lock.run (h : Lock r x y) {s s' : σ} {t : τ} {res : Except (Stop ε) α} (hst : r s t)
    (hx : x s = (res, s')) : ∃ t', y t = (res, t') ∧ r s' t' := by
  obtain ⟨hres, hstate⟩ := h s t hst
  rw [hx] at hres hstate
  exact ⟨(y t).2, Prod.ext hres.symm rfl, hstate⟩

theorem Lock.rel (h : Lock r x y) : (Logic.lock r).rel Eq x y := by
  intro s t hst
  obtain ⟨hres, hstate⟩ := h s t hst
  rw [hres]
  refine ⟨?_, hstate⟩
  cases (y t).1 <;> rfl

theorem Lock.of_rel (h : (Logic.lock r).rel Eq x y) : Lock r x y := by
  intro s t hst
  obtain ⟨hres, hstate⟩ := h s t hst
  refine ⟨?_, hstate⟩
  cases hx : (x s).1 <;> cases hy : (y t).1 <;> rw [hx, hy] at hres
  · exact congrArg Except.error hres
  · exact hres.elim
  · exact hres.elim
  · exact congrArg Except.ok hres

theorem Lock.rel_unit {x : Reader ε σ Unit} {y : Reader ε τ Unit} (h : Lock r x y) :
    (Logic.lock r).rel Any x y :=
  (Logic.lock r).mono h.rel fun _ _ _ => trivial

theorem Lock.of_unit {x : Reader ε σ Unit} {y : Reader ε τ Unit}
    (h : (Logic.lock r).rel Any x y) : Lock r x y :=
  .of_rel ((Logic.lock r).mono h fun _ _ _ => rfl)

theorem Lock.pure {a : α} :
    Lock r (Pure.pure a : Reader ε σ α) (Pure.pure a : Reader ε τ α) :=
  fun _ _ hst => ⟨rfl, hst⟩

theorem Lock.fail {e : ε} :
    Lock r (ByteReader.fail e : Reader ε σ α) (ByteReader.fail e : Reader ε τ α) :=
  fun _ _ hst => ⟨rfl, hst⟩

theorem Lock.tooDeep :
    Lock r (ByteReader.tooDeep : Reader ε σ α) (ByteReader.tooDeep : Reader ε τ α) :=
  fun _ _ hst => ⟨rfl, hst⟩

theorem Lock.bind {f : α → Reader ε σ β} {g : α → Reader ε τ β} (hx : Lock r x y)
    (hf : ∀ a, Lock r (f a) (g a)) : Lock r (x >>= f) (y >>= g) :=
  .of_rel ((Logic.lock r).both hx.rel fun a => (hf a).rel)

theorem Lock.liftExcept {res : Except ε α} :
    Lock r (ByteReader.liftExcept res : Reader ε σ α) (ByteReader.liftExcept res) :=
  .of_rel ((Logic.lock r).lift_same res)

theorem Lock.ite {p : Prop} [Decidable p] {x' : Reader ε σ α} {y' : Reader ε τ α}
    (hx : Lock r x y) (hx' : Lock r x' y') :
    Lock r (if p then x else x') (if p then y else y') :=
  .of_rel ((Logic.lock r).ite hx.rel hx'.rel)

/-! The loops. -/

theorem Lock.times {x : Reader ε σ Unit} {y : Reader ε τ Unit} (h : Lock r x y) (n : Nat) :
    Lock r (ByteReader.times n x) (ByteReader.times n y) :=
  .of_rel ((Logic.lock r).times_same h.rel n)

theorem Lock.collect {f : β → Reader ε σ α} {g : β → Reader ε τ α} (h : ∀ b, Lock r (f b) (g b))
    (bs : List β) : Lock r (ByteReader.collect f bs) (ByteReader.collect g bs) :=
  .of_rel ((Logic.lock r).collect_same (fun b => (h b).rel) bs)

theorem Lock.forEach {f : β → Reader ε σ Unit} {g : β → Reader ε τ Unit}
    (h : ∀ b, Lock r (f b) (g b)) (bs : List β) :
    Lock r (ByteReader.forEach f bs) (ByteReader.forEach g bs) :=
  .of_rel ((Logic.lock r).forEach_same (fun b => (h b).rel) bs)

theorem Lock.iterate {f : α → Reader ε σ α} {g : α → Reader ε τ α} (h : ∀ a, Lock r (f a) (g a)) :
    ∀ n a, Lock r (ByteReader.iterate f n a) (ByteReader.iterate g n a)
  | 0, _ => Lock.pure
  | n + 1, a => Lock.bind (h a) fun a => Lock.iterate h n a

end Rules

/-! A state and itself: what a reader in lockstep with itself keeps. -/

section Stays

/-- A state and itself, in a set. -/
def Stays (D : σ → Prop) (s s' : σ) : Prop := s = s' ∧ D s

variable {D : σ → Prop} {x : Reader ε σ α}

theorem stays_run (h : Lock (Stays D) x x) {s : σ} (hs : D s) : D (x s).2 :=
  (h s s ⟨rfl, hs⟩).2.2

theorem stays_lock (h : ∀ s, D s → D (x s).2) : Lock (Stays D) x x := by
  rintro s _ ⟨rfl, hs⟩
  exact ⟨rfl, rfl, h s hs⟩

end Stays

/-! Exact reads, and what is built from them alone. -/

variable [ByteStream ε σ] [ByteStream ε τ]

/-- The exact reads of two streams are in lockstep. -/
def ReadsAlike (ε : Type) {σ τ : Type} [ByteStream ε σ] [ByteStream ε τ] (r : σ → τ → Prop) :
    Prop :=
  ∀ n, Lock r (readExact n : Reader ε σ Bytes) (readExact n)

end ByteReader
