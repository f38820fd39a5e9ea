/-
  StClickHouse.Lib.Along
  **CONDITIONS ALONG THE RUN OF A READER.**

  A condition on an input can depend on what has been read of it: on a count, on the type
  that stands in a header.  Such a condition is stated along the run of the reader that
  comes to it, and says nothing where the reader does not get that far.

  Main results:
    * `After`, `EachAfter`  — what holds behind a reader, and at every turn of a loop
    * `FollowsIf`           — a second reader follows the first one if a condition holds,
                              and fails if it does not
    * `FollowsIf.bind`, `FollowsIf.forEach`, `FollowsIf.collect_times` — its rules
-/
import StClickHouse.Lib.Reader

namespace ByteReader

open List

/-! ## §1. What holds behind a reader. -/

section After

variable {ε σ α γ : Type}

/-- What holds where the reader has succeeded. -/
def After (x : Reader ε σ α) (s : σ) (Q : α → σ → Prop) : Prop :=
  match x s with
  | (.ok a, s') => Q a s'
  | (.error _, _) => True

/-- What holds at every turn of `for c in cs { f c }` that the loop comes to. -/
def EachAfter (f : γ → Reader ε σ α) (Q : γ → σ → Prop) : List γ → σ → Prop
  | [], _ => True
  | c :: cs, s => Q c s ∧ After (f c) s fun _ s' => EachAfter f Q cs s'

variable {x : Reader ε σ α} {s s' : σ} {a : α} {Q : α → σ → Prop}

theorem after_ok (h : x s = (.ok a, s')) : After x s Q ↔ Q a s' := by
  unfold After
  rw [h]

theorem After.of_ok (h : ∀ {a s'}, x s = (.ok a, s') → Q a s') : After x s Q := by
  unfold After
  split
  · next hx => exact h hx
  · trivial

theorem After.of_forall (h : ∀ a s', Q a s') : After x s Q := .of_ok fun _ => h _ _

theorem After.congr {Q' : α → σ → Prop} (h : ∀ {a s'}, x s = (.ok a, s') → (Q a s' ↔ Q' a s')) :
    After x s Q ↔ After x s Q' :=
  ⟨fun hQ => .of_ok fun hx => (h hx).mp ((after_ok hx).mp hQ),
    fun hQ => .of_ok fun hx => (h hx).mpr ((after_ok hx).mp hQ)⟩

/-- What holds at the turns may use what the loop keeps. -/
theorem EachAfter.congr {I : σ → Prop} {f : γ → Reader ε σ α} {P P' : γ → σ → Prop} {cs : List γ}
    (hkeep : ∀ c ∈ cs, ∀ {s a s'}, I s → f c s = (.ok a, s') → I s')
    (h : ∀ c ∈ cs, ∀ s, I s → (P c s ↔ P' c s)) {s : σ} (hs : I s) :
    EachAfter f P cs s ↔ EachAfter f P' cs s := by
  induction cs generalizing s with
  | nil => exact .rfl
  | cons c cs ih =>
    refine and_congr (h c mem_cons_self s hs) (After.congr fun hc => ?_)
    exact ih (fun d hd => hkeep d (mem_cons_of_mem c hd)) (fun d hd => h d (mem_cons_of_mem c hd))
      (hkeep c mem_cons_self hs hc)

end After

/-! ## §2. Following a reader under a condition. -/

section Follows

variable {ε ε' σ τ α α' β β' γ : Type}

/-- **Where `x` succeeds, `y` gets to the same place if `C` holds, and fails if it does
    not.**  `view` is what `y` sees of the state. -/
structure FollowsIf (C : Prop) (view : σ → τ) (R : α → β → Prop) (x : Reader ε σ α)
    (y : Reader ε' τ β) (s : σ) : Prop where
  follows : ∀ {a s'}, x s = (.ok a, s') → C → ∃ b, y (view s) = (.ok b, view s') ∧ R a b
  fails : ∀ {a s'}, x s = (.ok a, s') → ¬ C → ∃ e t, y (view s) = (.error e, t)

variable {C D : Prop} {view : σ → τ} {R : α → β → Prop} {R' : α' → β' → Prop}
  {x : Reader ε σ α} {y : Reader ε' τ β} {s : σ}

namespace FollowsIf

theorem congr (h : FollowsIf C view R x y s) (hCD : C ↔ D) : FollowsIf D view R x y s :=
  ⟨fun hx hD => h.follows hx (hCD.mpr hD), fun hx hD => h.fails hx (mt hCD.mp hD)⟩

/-- A reader that always follows. -/
theorem always (h : ∀ {a s'}, x s = (.ok a, s') → ∃ b, y (view s) = (.ok b, view s') ∧ R a b) :
    FollowsIf True view R x y s :=
  ⟨fun hx _ => h hx, fun _ hfalse => absurd trivial hfalse⟩

/-- A reader that never does. -/
theorem never (h : ∃ e t, y (view s) = (.error e, t)) : FollowsIf False view R x y s :=
  ⟨fun _ hfalse => hfalse.elim, fun _ _ => h⟩

/-- Where `x` fails there is nothing to follow. -/
theorem of_fails (h : ∀ a s', x s ≠ (.ok a, s')) : FollowsIf C view R x y s :=
  ⟨fun hx => absurd hx (h _ _), fun hx => absurd hx (h _ _)⟩

/-- One reader after the other: the second condition is looked at where the first reader
    has got to. -/
theorem bind {E : α → σ → Prop} {f : α → Reader ε σ α'} {g : β → Reader ε' τ β'}
    (hx : FollowsIf C view R x y s)
    (hf : ∀ {a b s'}, x s = (.ok a, s') → R a b → FollowsIf (E a s') view R' (f a) (g b) s') :
    FollowsIf (C ∧ After x s E) view R' (x >>= f) (y >>= g) s := by
  constructor
  · intro a' s' hrun hC
    obtain ⟨a, s₁, hfirst, hsecond⟩ := bind_eq_ok_iff.mp hrun
    obtain ⟨b, hy, hR⟩ := hx.follows hfirst hC.1
    rw [bind_ok hy]
    exact (hf hfirst hR).follows hsecond ((after_ok hfirst).mp hC.2)
  intro a' s' hrun hC
  obtain ⟨a, s₁, hfirst, hsecond⟩ := bind_eq_ok_iff.mp hrun
  rw [after_ok hfirst, not_and] at hC
  by_cases hfollows : C
  · obtain ⟨b, hy, hR⟩ := hx.follows hfirst hfollows
    rw [bind_ok hy]
    exact (hf hfirst hR).fails hsecond (hC hfollows)
  · obtain ⟨e, t, hy⟩ := hx.fails hfirst hfollows
    exact ⟨e, t, bind_error hy⟩

/-- The condition of a sequence whose first reader is always followed. -/
theorem after {E : α → σ → Prop} {f : α → Reader ε σ α'} {g : β → Reader ε' τ β'}
    (hx : FollowsIf True view R x y s)
    (hf : ∀ {a b s'}, x s = (.ok a, s') → R a b → FollowsIf (E a s') view R' (f a) (g b) s') :
    FollowsIf (After x s E) view R' (x >>= f) (y >>= g) s :=
  (hx.bind hf).congr ⟨And.right, And.intro trivial⟩

/-- What is made of the result does not matter. -/
theorem map_left {S : α' → β → Prop} {f : α → α'} (h : FollowsIf C view R x y s)
    (hS : ∀ a b, R a b → S (f a) b) :
    FollowsIf C view S (x >>= fun a => pure (f a)) y s := by
  rw [← bind_pure y]
  refine (h.bind (E := fun _ _ => True) fun {a b s'} _ hR => ?_).congr
    (and_iff_left (.of_forall fun _ _ => trivial))
  exact .always fun hpure => by cases hpure; exact ⟨b, rfl, hS a b hR⟩

theorem forEach {P : γ → σ → Prop} {f : γ → Reader ε σ Unit} {g : γ → Reader ε' τ Unit}
    {cs : List γ} (h : ∀ c ∈ cs, ∀ s, FollowsIf (P c s) view Any (f c) (g c) s) (s : σ) :
    FollowsIf (EachAfter f P cs s) view Any (ByteReader.forEach f cs) (ByteReader.forEach g cs)
      s := by
  induction cs generalizing s with
  | nil => exact .always fun hpure => by cases hpure; exact ⟨(), rfl, trivial⟩
  | cons c cs ih =>
    refine (h c mem_cons_self s).bind fun {_ _ s'} _ _ => ?_
    exact ih (fun d hd => h d (mem_cons_of_mem c hd)) s'

/-- A loop that keeps what it reads, and one that only counts. -/
theorem collect_times {P : σ → Prop} {x : Reader ε σ α} {y : Reader ε' τ Unit}
    (h : ∀ s, FollowsIf (P s) view Any x y s) (n : Nat) (s : σ) :
    FollowsIf (EachAfter (fun _ => x) (fun _ => P) (replicate n ()) s) view Any
      (ByteReader.collect (fun _ => x) (replicate n ())) (ByteReader.times n y) s := by
  induction n generalizing s with
  | zero => exact .always fun hpure => by cases hpure; exact ⟨(), rfl, trivial⟩
  | succ n ih =>
    refine (h s).bind fun {a _ s'} _ _ => ?_
    exact (ih s').map_left fun _ _ _ => trivial

end FollowsIf

end Follows

end ByteReader
