/-
  StClickHouse.Lib.Reader
  **READERS OF BYTE STREAMS AND THEIR SIMULATION.**

  A `Reader ε σ α` runs on a state `σ`, yields a value or stops with an error,
  and keeps the state it has reached in both cases, since a caller may go on
  after an error.  Recursive readers take the call depth they may use and stop
  with `Stop.depth` below it.
-/
import Mathlib

namespace ByteReader

open List

/-! ## §1. Readers. -/

abbrev Bytes := List UInt8

/-- Why a reader stopped without a result. -/
inductive Stop (ε : Type) where
  /-- The program returned an error. -/
  | error (e : ε)
  /-- The recursion went deeper than the depth the model was given. -/
  | depth
  deriving Repr, DecidableEq

/-- A program over a state: its result, and the state it reached. -/
def Reader (ε σ α : Type) : Type := σ → Except (Stop ε) α × σ

section Basic

variable {ε σ α β : Type}

/-- The state untouched, the given result. -/
def Reader.pure (a : α) : Reader ε σ α := fun s => (.ok a, s)

/-- Run `x`, then `f` on its result; stop where `x` stops. -/
def Reader.bind (x : Reader ε σ α) (f : α → Reader ε σ β) : Reader ε σ β := fun s =>
  match x s with
  | (.ok a, s') => f a s'
  | (.error e, s') => (.error e, s')

instance : Monad (Reader ε σ) where
  pure := Reader.pure
  bind := Reader.bind

/-- Stop with an error. -/
def fail (e : ε) : Reader ε σ α := fun s => (.error (.error e), s)

/-- Stop because the call depth is used up. -/
def tooDeep : Reader ε σ α := fun s => (.error .depth, s)

/-- A pure computation that may fail. -/
def liftExcept : Except ε α → Reader ε σ α
  | .ok a => pure a
  | .error e => fail e

/-- Run `x` and hand its error to the caller as a value. -/
def attempt (x : Reader ε σ α) : Reader ε σ (Except ε α) := fun s =>
  match x s with
  | (.ok a, s') => (.ok (.ok a), s')
  | (.error (.error e), s') => (.ok (.error e), s')
  | (.error .depth, s') => (.error .depth, s')

theorem bind_apply (x : Reader ε σ α) (f : α → Reader ε σ β) (s : σ) :
    (x >>= f) s = match x s with
      | (.ok a, s') => f a s'
      | (.error e, s') => (.error e, s') := rfl

variable {f : α → Reader ε σ β} {s s' : σ}

variable {x : Reader ε σ α}

theorem bind_ok {a : α} (h : x s = (.ok a, s')) : (x >>= f) s = f a s' := by
  rw [bind_apply, h]

theorem bind_error {e : Stop ε} (h : x s = (.error e, s')) : (x >>= f) s = (.error e, s') := by
  rw [bind_apply, h]

/-- A sequence succeeds exactly when its parts do, one after the other. -/
theorem bind_eq_ok_iff {b : β} :
    (x >>= f) s = (.ok b, s') ↔ ∃ a s₁, x s = (.ok a, s₁) ∧ f a s₁ = (.ok b, s') := by
  rw [bind_apply]
  constructor
  · intro h
    split at h
    · next a s₁ hx => exact ⟨a, s₁, hx, h⟩
    · cases h
  rintro ⟨a, s₁, hx, hf⟩
  rw [hx]
  exact hf

/-- A result that needs some depth, and what is done with it. -/
theorem ite_tooDeep_bind {p : Prop} [Decidable p] (a : α) (f : α → Reader ε σ β) :
    ((if p then pure a else tooDeep) >>= f) = if p then f a else tooDeep := by
  split <;> rfl

theorem liftExcept_eq_ok_iff {x : Except ε α} {a : α} :
    liftExcept x s = (.ok a, s') ↔ x = .ok a ∧ s = s' := by
  rcases x with e | b
  · constructor
    · intro h; cases h
    · rintro ⟨h, _⟩; cases h
  show (Except.ok b, s) = (.ok a, s') ↔ _
  rw [Prod.mk.injEq, Except.ok.injEq, Except.ok.injEq]

theorem bind_pure_right (x : Reader ε σ α) (s : σ) : Reader.bind x Reader.pure s = x s := by
  unfold Reader.bind Reader.pure
  cases x s with
  | mk r s' => cases r <;> rfl

instance : LawfulMonad (Reader ε σ) :=
  LawfulMonad.mk' (Reader ε σ)
    (fun x => funext (bind_pure_right x))
    (fun _ _ => rfl)
    (fun x f g => funext fun s => by
      show Reader.bind (Reader.bind x f) g s = Reader.bind x (fun a => Reader.bind (f a) g) s
      unfold Reader.bind
      cases x s with
      | mk r s' => cases r <;> rfl)

end Basic

/-! ## §2. Loops. -/

section Loops

variable {ε σ α β : Type}

/-- `for _ in 0..n { x }`. -/
def times : Nat → Reader ε σ Unit → Reader ε σ Unit
  | 0, _ => pure ()
  | n + 1, x => do x; times n x

/-- `for b in bs { f b }`, with the results in order. -/
def collect (f : β → Reader ε σ α) : List β → Reader ε σ (List α)
  | [] => pure []
  | b :: bs => do
    let a ← f b
    let rest ← collect f bs
    return a :: rest

/-- `for b in bs { f b }`, without results. -/
def forEach (f : β → Reader ε σ Unit) : List β → Reader ε σ Unit
  | [] => pure ()
  | b :: bs => do f b; forEach f bs

/-- `for _ in 0..n { acc = f acc }`. -/
def iterate (f : α → Reader ε σ α) : Nat → α → Reader ε σ α
  | 0, a => pure a
  | n + 1, a => do iterate f n (← f a)

theorem collect_map {γ : Type} (f : β → Reader ε σ γ) (g : α → β) (as : List α) :
    collect f (as.map g) = collect (fun a => f (g a)) as := by
  induction as with
  | nil => rfl
  | cons a as ih =>
    show (f (g a) >>= fun b => collect f (as.map g) >>= fun bs => pure (b :: bs)) = _
    rw [ih]
    rfl

theorem length_of_collect {f : β → Reader ε σ α} {bs : List β} {as : List α} {s s' : σ}
    (h : collect f bs s = (.ok as, s')) : as.length = bs.length := by
  induction bs generalizing s as with
  | nil =>
    cases h
    rfl
  | cons b bs ih =>
    obtain ⟨a, s₁, _, h⟩ := bind_eq_ok_iff.mp h
    obtain ⟨rest, s₂, hrest, h⟩ := bind_eq_ok_iff.mp h
    cases h
    exact congrArg (· + 1) (ih hrest)

theorem forEach_map (f : β → Reader ε σ Unit) (g : α → β) (as : List α) :
    forEach f (as.map g) = forEach (fun a => f (g a)) as := by
  induction as with
  | nil => rfl
  | cons a as ih =>
    show (f (g a) >>= fun _ => forEach f (as.map g)) = _
    rw [ih]
    rfl

theorem forEach_zipIdx {f : α → Reader ε σ Unit} {g : α × Nat → Reader ε σ Unit} :
    ∀ (as : List α) (k : Nat), (∀ a i, (a, i) ∈ as.zipIdx k → g (a, i) = f a) →
      forEach g (as.zipIdx k) = forEach f as := by
  intro as
  induction as with
  | nil => intro k _; rfl
  | cons a as ih =>
    intro k h
    rw [zipIdx_cons] at h ⊢
    show (g (a, k) >>= fun _ => forEach g (as.zipIdx (k + 1))) = f a >>= fun _ => forEach f as
    rw [h a k mem_cons_self, ih (k + 1) fun b i hb => h b i (mem_cons_of_mem _ hb)]

end Loops

/-! ## §3. Byte streams. -/

/-- A state bytes can be read from. -/
class ByteStream (ε σ : Type) where
  /-- Exactly `n` bytes, or an error. -/
  readExact : Nat → Reader ε σ Bytes

export ByteStream (readExact)

/-- What a stream promises: `n` bytes are `n` bytes, none are free, and a long
read is two short ones. -/
class LawfulByteStream (ε σ : Type) [ByteStream ε σ] : Prop where
  length_eq {n : Nat} {s s' : σ} {bs : Bytes} :
    readExact (ε := ε) n s = (.ok bs, s') → bs.length = n
  zero (s : σ) : readExact (ε := ε) 0 s = (.ok [], s)
  add_iff {m n : Nat} {s s' : σ} {bs : Bytes} :
    readExact (ε := ε) (m + n) s = (.ok bs, s') ↔
      ∃ s₁, readExact (ε := ε) m s = (.ok (bs.take m), s₁)
        ∧ readExact (ε := ε) n s₁ = (.ok (bs.drop m), s')

/-- The error of a read past the end. -/
class EndOfInput (ε : Type) where
  endOfInput : ε

export EndOfInput (endOfInput)

/-- The bytes still to come; a read past the end takes what is left. -/
instance {ε : Type} [EndOfInput ε] : ByteStream ε Bytes where
  readExact n := fun s =>
    if n ≤ s.length then (.ok (s.take n), s.drop n) else (.error (.error endOfInput), [])

theorem readExact_list {ε : Type} [EndOfInput ε] {n : Nat} {s : Bytes} (h : n ≤ s.length) :
    readExact (ε := ε) n s = (.ok (s.take n), s.drop n) :=
  if_pos h

theorem readExact_list_iff {ε : Type} [EndOfInput ε] {n : Nat} {s s' bs : Bytes} :
    readExact (ε := ε) n s = (.ok bs, s') ↔ s = bs ++ s' ∧ bs.length = n := by
  constructor
  · intro h
    by_cases hn : n ≤ s.length
    · rw [readExact_list hn] at h
      injection h with h1 h2
      injection h1 with h1
      subst h1; subst h2
      exact ⟨(take_append_drop n s).symm, length_take_of_le hn⟩
    have hfail : readExact (ε := ε) n s = (.error (.error endOfInput), []) := if_neg hn
    rw [hfail] at h
    cases h
  · rintro ⟨rfl, rfl⟩
    rw [readExact_list (by simp), take_left, drop_left]

instance {ε : Type} [EndOfInput ε] : LawfulByteStream ε Bytes where
  length_eq h := (readExact_list_iff.mp h).2
  zero s := by rw [readExact_list (Nat.zero_le _)]; rfl
  add_iff := by
    intro m n s s' bs
    simp only [readExact_list_iff]
    constructor
    · rintro ⟨rfl, hlen⟩
      refine ⟨bs.drop m ++ s', ⟨?_, ?_⟩, rfl, ?_⟩
      · rw [← append_assoc, take_append_drop]
      · rw [length_take]; omega
      · rw [length_drop]; omega
    rintro ⟨s₁, ⟨rfl, h1⟩, rfl, h2⟩
    refine ⟨by rw [← append_assoc, take_append_drop], ?_⟩
    have hsum := congrArg List.length (take_append_drop m bs)
    rw [length_append] at hsum
    omega

/-! ## §4. Reading in windows. -/

section Windows

variable {ε σ : Type} [ByteStream ε σ]

/-- Read `len` bytes in windows of at most `window`; `len` fuel is enough. -/
def discardWindows (window : Nat) : Nat → Nat → Reader ε σ Unit
  | 0, _ => pure ()
  | fuel + 1, len =>
    if len = 0 then pure ()
    else do
      let _ ← readExact (min len window)
      discardWindows window fuel (len - min len window)

variable [LawfulByteStream ε σ]

theorem readExact_split {m len : Nat} (h : m ≤ len) {s s' : σ} {bs : Bytes}
    (hread : readExact (ε := ε) len s = (.ok bs, s')) :
    ∃ s₁, readExact (ε := ε) m s = (.ok (bs.take m), s₁)
      ∧ readExact (ε := ε) (len - m) s₁ = (.ok (bs.drop m), s') := by
  have hlen : len = m + (len - m) := by omega
  rw [hlen] at hread
  exact LawfulByteStream.add_iff.mp hread

/-- The window loop reads what one read would, as long as the fuel lasts. -/
theorem discardWindows_ok_iff {window : Nat} (hw : 0 < window) :
    ∀ (fuel len : Nat), len ≤ fuel → ∀ {s s' : σ},
      discardWindows (ε := ε) window fuel len s = (.ok (), s') ↔
        ∃ bs, readExact (ε := ε) len s = (.ok bs, s') := by
  have hnone (s s' : σ) : (.ok (), s) = ((.ok (), s') : Except (Stop ε) Unit × σ) ↔
      ∃ bs, readExact (ε := ε) 0 s = (.ok bs, s') := by
    simp [LawfulByteStream.zero]
  intro fuel
  induction fuel with
  | zero =>
    intro len hle s s'
    obtain rfl : len = 0 := by omega
    exact hnone s s'
  | succ fuel ih =>
    intro len hle s s'
    unfold discardWindows
    by_cases hzero : len = 0
    · rw [if_pos hzero, hzero]
      exact hnone s s'
    rw [if_neg hzero, bind_eq_ok_iff]
    simp only [ih _ (show len - min len window ≤ fuel by omega)]
    constructor
    · intro ⟨first, s₁, hfirst, rest, hrest⟩
      refine ⟨first ++ rest, ?_⟩
      have hlen := LawfulByteStream.length_eq hfirst
      rw [← Nat.add_sub_of_le (Nat.min_le_left len window), LawfulByteStream.add_iff]
      exact ⟨s₁, by rw [take_left' hlen]; exact hfirst, by
        rw [drop_left' hlen]; exact hrest⟩
    intro ⟨bs, hread⟩
    obtain ⟨s₁, hfirst, hrest⟩ := readExact_split (Nat.min_le_left len window) hread
    exact ⟨_, s₁, hfirst, _, hrest⟩

end Windows

/-! ## §5. Relations of readers. -/

/-- Results that need not agree. -/
abbrev Any {α β : Type} (_ : α) (_ : β) : Prop := True

/-- A way to relate the readers of two states that a sequence of them respects. -/
structure Logic (ε σ τ : Type) where
  /-- Related readers, with related results. -/
  rel : ∀ {α β : Type}, (α → β → Prop) → Reader ε σ α → Reader ε τ β → Prop
  pure : ∀ {α β : Type} {R : α → β → Prop} {a : α} {b : β}, R a b →
    rel R (Pure.pure a) (Pure.pure b)
  bind : ∀ {α β α' β' : Type} {R : α → β → Prop} {R' : α' → β' → Prop} {x : Reader ε σ α}
    {y : Reader ε τ β} {f : α → Reader ε σ α'} {g : β → Reader ε τ β'}, rel R x y →
    (∀ a b, R a b → rel R' (f a) (g b)) → rel R' (x >>= f) (y >>= g)
  fail : ∀ {α β : Type} {R : α → β → Prop} {e : ε}, rel R (ByteReader.fail e) (ByteReader.fail e)
  tooDeep : ∀ {α β : Type} {R : α → β → Prop}, rel R ByteReader.tooDeep ByteReader.tooDeep

namespace Logic

variable {ε σ τ α β γ δ : Type} (L : Logic ε σ τ) {R : α → β → Prop} {S : γ → δ → Prop}
  {x : Reader ε σ α} {y : Reader ε τ β} {as : List γ}

theorem mono {S : α → β → Prop} (h : L.rel R x y) (hR : ∀ a b, R a b → S a b) : L.rel S x y := by
  rw [← bind_pure x, ← bind_pure y]
  exact L.bind h fun a b hab => L.pure (hR a b hab)

theorem both {y : Reader ε τ α} {f : α → Reader ε σ γ} {g : α → Reader ε τ δ}
    (hx : L.rel Eq x y) (hf : ∀ a, L.rel S (f a) (g a)) : L.rel S (x >>= f) (y >>= g) := by
  refine L.bind hx fun a b hab => ?_
  cases hab
  exact hf a

theorem lift {res : Except ε α} {f : α → Reader ε σ γ} {g : α → Reader ε τ δ}
    (h : ∀ a, L.rel S (f a) (g a)) : L.rel S (liftExcept res >>= f) (liftExcept res >>= g) := by
  cases res with
  | ok a => exact h a
  | error e => exact L.fail

theorem ite {p : Prop} [Decidable p] {x' : Reader ε σ α} {y' : Reader ε τ β}
    (hx : L.rel R x y) (hx' : L.rel R x' y') :
    L.rel R (if p then x else x') (if p then y else y') := by
  by_cases hp : p
  · rw [if_pos hp, if_pos hp]
    exact hx
  · rw [if_neg hp, if_neg hp]
    exact hx'

theorem times {x : Reader ε σ Unit} {y : Reader ε τ Unit} (h : L.rel Any x y) :
    ∀ n, L.rel Any (ByteReader.times n x) (ByteReader.times n y)
  | 0 => L.pure trivial
  | n + 1 => L.bind h fun _ _ _ => times h n

theorem forEach {f : γ → Reader ε σ Unit} {g : γ → Reader ε τ Unit}
    (h : ∀ a ∈ as, L.rel Any (f a) (g a)) :
    L.rel Any (ByteReader.forEach f as) (ByteReader.forEach g as) := by
  induction as with
  | nil => exact L.pure trivial
  | cons a as ih =>
    refine L.bind (h a mem_cons_self) fun _ _ _ => ?_
    exact ih fun b hb => h b (mem_cons_of_mem a hb)

theorem collect {Q : α → Prop} {f : γ → Reader ε σ α} {g : γ → Reader ε τ α}
    (h : ∀ a ∈ as, L.rel (fun x y => x = y ∧ Q x) (f a) (g a)) :
    L.rel (fun xs ys => xs = ys ∧ ∀ x ∈ xs, Q x) (ByteReader.collect f as)
      (ByteReader.collect g as) := by
  induction as with
  | nil => exact L.pure ⟨rfl, fun x hx => absurd hx not_mem_nil⟩
  | cons a as ih =>
    refine L.bind (h a mem_cons_self) fun x _ hx => ?_
    obtain ⟨rfl, hQ⟩ := hx
    refine L.bind (ih fun b hb => h b (mem_cons_of_mem a hb)) fun xs _ hxs => ?_
    obtain ⟨rfl, hQs⟩ := hxs
    exact L.pure ⟨rfl, forall_mem_cons.mpr ⟨hQ, hQs⟩⟩

theorem times_same {x : Reader ε σ Unit} {y : Reader ε τ Unit} (h : L.rel Eq x y) :
    ∀ n, L.rel Eq (ByteReader.times n x) (ByteReader.times n y)
  | 0 => L.pure rfl
  | n + 1 => L.both h fun _ => times_same h n

theorem forEach_same {f : γ → Reader ε σ Unit} {g : γ → Reader ε τ Unit}
    (h : ∀ a, L.rel Eq (f a) (g a)) :
    ∀ as, L.rel Eq (ByteReader.forEach f as) (ByteReader.forEach g as)
  | [] => L.pure rfl
  | a :: as => L.both (h a) fun _ => forEach_same h as

theorem lift_same (res : Except ε α) : L.rel Eq (liftExcept res) (liftExcept res) := by
  cases res with
  | ok a => exact L.pure rfl
  | error e => exact L.fail

theorem collect_same {f : γ → Reader ε σ α} {g : γ → Reader ε τ α}
    (h : ∀ a, L.rel Eq (f a) (g a)) (as : List γ) :
    L.rel Eq (ByteReader.collect f as) (ByteReader.collect g as) := by
  refine L.mono (L.collect (Q := fun _ => True) fun a _ => ?_) fun _ _ hR => hR.1
  exact L.mono (h a) fun _ _ heq => ⟨heq, trivial⟩

/-- What each of several relations relates. -/
def all {ι : Type} (L : ι → Logic ε σ τ) : Logic ε σ τ where
  rel R x y := ∀ i, (L i).rel R x y
  pure h i := (L i).pure h
  bind hx hf i := (L i).bind (hx i) fun a b hab => hf a b hab i
  fail i := (L i).fail
  tooDeep i := (L i).tooDeep

end Logic

/-! ## §6. Simulation. -/

/-- How two readers correspond: which states belong together, and which
errors one side may report where the other goes on. -/
structure Corr (ε ε' σ τ : Type) where
  /-- Related states. -/
  state : σ → τ → Prop
  /-- Errors of the left side alone. -/
  left : Stop ε → Prop
  /-- Errors of the right side alone. -/
  right : Stop ε' → Prop

/-- Outcomes in correspondence. -/
def SimOut {ε ε' σ τ α β : Type} (c : Corr ε ε' σ τ) (R : α → β → Prop) :
    Except (Stop ε) α × σ → Except (Stop ε') β × τ → Prop
  | (.ok a, s), (.ok b, t) => c.state s t ∧ R a b
  | (.ok _, _), (.error e, _) => c.right e
  | (.error e, _), (.ok _, _) => c.left e
  | (.error _, _), (.error _, _) => True

/-- **Simulation**: from related states, related outcomes. -/
def Sim {ε ε' σ τ α β : Type} (c : Corr ε ε' σ τ) (R : α → β → Prop)
    (x : Reader ε σ α) (y : Reader ε' τ β) : Prop :=
  ∀ s t, c.state s t → SimOut c R (x s) (y t)

section Sim

variable {ε ε' σ τ α α' β β' : Type} {c : Corr ε ε' σ τ} {R : α → β → Prop}
  {R' : α' → β' → Prop}

theorem Sim.pure {a : α} {b : β} (h : R a b) :
    Sim c R (Pure.pure a : Reader ε σ α) (Pure.pure b : Reader ε' τ β) :=
  fun _ _ hst => ⟨hst, h⟩

variable {x : Reader ε σ α} {y : Reader ε' τ β} {e : ε} {as : List α'}

variable {f : α → Reader ε σ α'}

theorem Sim.bind {g : β → Reader ε' τ β'} (hx : Sim c R x y)
    (hf : ∀ a b, R a b → Sim c R' (f a) (g b)) :
    Sim c R' (x >>= f) (y >>= g) := by
  intro s t hst
  have h := hx s t hst
  rw [bind_apply, bind_apply]
  rcases hxs : x s with ⟨r, s'⟩
  rcases hyt : y t with ⟨q, t'⟩
  rw [hxs, hyt] at h
  cases r with
  | ok a =>
    cases q with
    | ok b => exact hf a b h.2 s' t' h.1
    | error e =>
      -- the right side has failed; the left one may still do either
      show SimOut c R' (f a s') (.error e, t')
      cases hfa : f a s' with
      | mk r' s'' => cases r' with
        | ok a' => exact h
        | error e' => trivial
  | error e =>
    rcases q with e' | b
    · trivial
    show SimOut c R' (.error e, s') (g b t')
    cases hgb : g b t' with
    | mk q' t'' => cases q' with
      | ok b' => exact h
      | error e' => trivial

theorem bind_both {y : Reader ε' τ α} {g : α → Reader ε' τ β'} (hx : Sim c Eq x y)
    (hf : ∀ a, Sim c R' (f a) (g a)) :
    Sim c R' (x >>= f) (y >>= g) := by
  refine .bind hx fun a b hab => ?_
  cases hab
  exact hf a

theorem Sim.mono {S : α → β → Prop} (h : Sim c R x y)
    (hR : ∀ a b, R a b → S a b) : Sim c S x y := by
  intro s t hst
  have hxy := h s t hst
  rcases hxs : x s with ⟨r, s'⟩
  rcases hyt : y t with ⟨q, t'⟩
  rw [hxs, hyt] at hxy
  cases r <;> cases q
  · trivial
  · exact hxy
  · exact hxy
  · exact ⟨hxy.1, hR _ _ hxy.2⟩

theorem Sim.fail_fail {e' : ε'} :
    Sim c R (fail e : Reader ε σ α) (fail e' : Reader ε' τ β) :=
  fun _ _ _ => trivial

theorem Sim.tooDeep_tooDeep : Sim c R (tooDeep : Reader ε σ α) (tooDeep : Reader ε' τ β) :=
  fun _ _ _ => trivial

/-- The left side may stop alone with an error the correspondence allows. -/
theorem Sim.fail_left (h : c.left (.error e)) :
    Sim c R (fail e : Reader ε σ α) y := by
  intro s t _
  cases y t with
  | mk q t' => cases q with
    | ok b => exact h
    | error e' => trivial

/-- The right side may stop alone with an error the correspondence allows. -/
theorem Sim.fail_right {e : ε'} (h : c.right (.error e)) :
    Sim c R x (fail e : Reader ε' τ β) := by
  intro s t _
  cases x s with
  | mk r s' => cases r with
    | ok a => exact h
    | error e' => trivial

theorem Sim.ite {p : Prop} [Decidable p] {x' : Reader ε σ α} {y' : Reader ε' τ β}
    (hx : p → Sim c R x y) (hx' : ¬ p → Sim c R x' y') :
    Sim c R (if p then x else x') (if p then y else y') := by
  by_cases hp : p
  · rw [if_pos hp, if_pos hp]
    exact hx hp
  · rw [if_neg hp, if_neg hp]
    exact hx' hp

/-- What a correspondence relates. -/
def Corr.logic {ε : Type} (c : Corr ε ε σ τ) : Logic ε σ τ where
  rel := Sim c
  pure := Sim.pure
  bind := Sim.bind
  fail := Sim.fail_fail
  tooDeep := Sim.tooDeep_tooDeep

/-- The left side may use up its depth where the right one goes on. -/
theorem Sim.tooDeep_left (h : c.left .depth) :
    Sim c R (tooDeep : Reader ε σ α) y := by
  intro s t _
  cases y t with
  | mk q t' => cases q with
    | ok b => exact h
    | error e' => trivial

theorem Sim.liftExcept_left {x : Except ε α} {S : α' → β → Prop}
    (hok : ∀ a, x = .ok a → Sim c S (f a) y) (herr : ∀ e, x = .error e → c.left (.error e)) :
    Sim c S (liftExcept x >>= f) y := by
  cases x with
  | ok a => exact hok a rfl
  | error e => exact .fail_left (herr e rfl)

theorem Sim.liftExcept_both {ε : Type} {c : Corr ε ε σ τ} {x : Except ε α}
    {f : α → Reader ε σ α'} {g : α → Reader ε τ β'}
    (hok : ∀ a, x = .ok a → Sim c R' (f a) (g a)) :
    Sim c R' (liftExcept x >>= f) (liftExcept x >>= g) := by
  cases x with
  | ok a => exact hok a rfl
  | error e => exact .fail_fail

theorem Sim.liftExcept_same {ε : Type} {c : Corr ε ε σ τ} (x : Except ε α) :
    Sim c Eq (liftExcept x : Reader ε σ α) (liftExcept x : Reader ε τ α) := by
  cases x with
  | ok a => exact .pure rfl
  | error e => exact .fail_fail

theorem Sim.map_left {S : α' → β → Prop} {f : α → α'}
    (h : Sim c R x y) (hS : ∀ a b, R a b → S (f a) b) :
    Sim c S (x >>= fun a => Pure.pure (f a)) y := by
  have hbind : Sim c S (x >>= fun a => Pure.pure (f a)) (y >>= Pure.pure) :=
    .bind h (fun a b hab => .pure (hS a b hab))
  rw [bind_pure] at hbind
  exact hbind

theorem Sim.map_right {S : α → β' → Prop} {g : β → β'}
    (h : Sim c R x y) (hS : ∀ a b, R a b → S a (g b)) :
    Sim c S x (y >>= fun b => Pure.pure (g b)) := by
  have hbind : Sim c S (x >>= Pure.pure) (y >>= fun b => Pure.pure (g b)) :=
    .bind h (fun a b hab => .pure (hS a b hab))
  rw [bind_pure] at hbind
  exact hbind

theorem Sim.collect_forEach {f : α' → Reader ε σ α} {g : α' → Reader ε' τ Unit}
    (h : ∀ a ∈ as, Sim c Any (f a) (g a)) :
    Sim c Any (ByteReader.collect f as) (ByteReader.forEach g as) := by
  induction as with
  | nil => exact .pure trivial
  | cons a as ih =>
    refine .bind (h a mem_cons_self) fun _ _ _ => ?_
    exact .map_left (ih fun b hb => h b (mem_cons_of_mem a hb)) (fun _ _ _ => trivial)

theorem Sim.refl {c : Corr ε ε σ σ} (hc : c.state = Eq) (x : Reader ε σ α) :
    Sim c Eq x x := by
  intro s t hst
  rw [hc] at hst
  cases hst
  cases hx : x s with
  | mk r s' => cases r with
    | ok a =>
      refine ⟨?_, rfl⟩
      rw [hc]
    | error e => trivial

theorem Sim.fail_bind_fail {e' : ε'} {y : Reader ε' τ β'} :
    Sim c R (fail e : Reader ε σ α) (y >>= fun _ => (fail e' : Reader ε' τ β)) := by
  intro s t _
  rw [bind_apply]
  cases y t with
  | mk q t' => cases q <;> trivial

end Sim

/-! ## §7. Shadows. -/

/-- The right side goes wherever the left one gets to: it may accept more, but
stops alone only with an error of `late`. -/
def shadow {ε ε' σ : Type} (late : Stop ε' → Prop) : Corr ε ε' σ σ where
  state := Eq
  left := fun _ => True
  right := late

section Shadow

variable {ε ε' σ α β : Type} {late : Stop ε' → Prop} {R : α → β → Prop}

theorem Sim.shadow_ok {x : Reader ε σ α} {y : Reader ε' σ β} (h : Sim (shadow late) R x y)
    {s s' : σ} {a : α} (hx : x s = (.ok a, s')) :
    (∃ b, y s = (.ok b, s') ∧ R a b) ∨ ∃ e t, y s = (.error e, t) ∧ late e := by
  have hout := h s s rfl
  rw [hx] at hout
  rcases hy : y s with ⟨q, t⟩
  rw [hy] at hout
  rcases q with e | b
  · exact .inr ⟨e, t, rfl, hout⟩
  obtain ⟨hst, hR⟩ := hout
  cases hst
  exact .inl ⟨b, rfl, hR⟩

theorem Sim.same {late : Stop ε → Prop} (x : Reader ε σ α) :
    Sim (shadow late) Eq x x := by
  intro s t hst
  cases hst
  cases x s with
  | mk r s' => cases r with
    | ok a => exact ⟨rfl, rfl⟩
    | error e => trivial

theorem Sim.of_shadow_ok {x : Reader ε σ α} {y : Reader ε' σ β}
    (h : ∀ s a s', x s = (.ok a, s') → ∃ b, y s = (.ok b, s') ∧ R a b) :
    Sim (shadow late) R x y := by
  intro s t hst
  cases hst
  rcases hx : x s with ⟨r, s'⟩
  rcases r with e | a
  · cases y s with
    | mk q t' => cases q <;> trivial
  obtain ⟨b, hy, hR⟩ := h s a s' hx
  rw [hy]
  exact ⟨rfl, hR⟩

end Shadow

/-! ## §8. Loops that stop from inside: `continue`, `return` and `?`. -/

/-- The end of one turn. -/
inductive Turn (H R : Type) where
  | more (h : H)
  | done (r : R)
  deriving Repr, DecidableEq

section Loop

variable {ε σ H R : Type}

/-- The loop, with the number of turns it may take. -/
def loop (turn : H → Reader ε σ (Turn H R)) : Nat → H → Reader ε σ R
  | 0, _ => tooDeep
  | fuel + 1, h => do
    match ← turn h with
    | .more h => loop turn fuel h
    | .done r => return r

/-- Some turns that go on. -/
inductive Turns (turn : H → Reader ε σ (Turn H R)) : H → σ → H → σ → Prop
  | refl (h : H) (s : σ) : Turns turn h s h s
  | more {h h₁ h₂ : H} {s s₁ s₂ : σ} : turn h s = (.ok (.more h₁), s₁) →
      Turns turn h₁ s₁ h₂ s₂ → Turns turn h s h₂ s₂

/-- The last turn of a loop, and what it leaves. -/
inductive LastTurn (turn : H → Reader ε σ (Turn H R)) (h : H) (s : σ) :
    Except (Stop ε) R → σ → Prop
  | done {r : R} {s' : σ} : turn h s = (.ok (.done r), s') → LastTurn turn h s (.ok r) s'
  | stopped {e : Stop ε} {s' : σ} : turn h s = (.error e, s') → LastTurn turn h s (.error e) s'

variable {turn : H → Reader ε σ (Turn H R)}

variable {fuel : Nat} {h : H} {s : σ}

theorem loop_more {h₁ : H} {s₁ : σ} (hturn : turn h s = (.ok (.more h₁), s₁)) :
    loop turn (fuel + 1) h s = loop turn fuel h₁ s₁ := by
  rw [loop, bind_ok hturn]

theorem loop_lastTurn {s' : σ} {res : Except (Stop ε) R} (hlast : LastTurn turn h s res s') :
    loop turn (fuel + 1) h s = (res, s') := by
  cases hlast with
  | done hturn =>
    rw [loop, bind_ok hturn]
    rfl
  | stopped hturn => rw [loop, bind_apply, hturn]

theorem turn_cases (turn : H → Reader ε σ (Turn H R)) (h : H) (s : σ) :
    (∃ h₁ s₁, turn h s = (.ok (.more h₁), s₁)) ∨ ∃ res s', LastTurn turn h s res s' := by
  rcases hturn : turn h s with ⟨res, s'⟩
  cases res with
  | error e => exact .inr ⟨_, _, .stopped hturn⟩
  | ok t => cases t with
    | more h₁ => exact .inl ⟨h₁, s', rfl⟩
    | done r => exact .inr ⟨_, _, .done hturn⟩

/-- **How a loop ends**: at a last turn, or out of fuel. -/
theorem loop_cases {s' : σ} {res : Except (Stop ε) R} :
    loop turn fuel h s = (res, s') →
      (∃ h₁ s₁, Turns turn h s h₁ s₁ ∧ LastTurn turn h₁ s₁ res s') ∨ res = .error .depth := by
  induction fuel generalizing h s s' res with
  | zero =>
    intro hloop
    cases hloop
    exact .inr rfl
  | succ fuel ih =>
    intro hloop
    obtain ⟨h₁, s₁, hturn⟩ | ⟨res₁, s₁, hlast⟩ := turn_cases turn h s
    · rw [loop_more hturn] at hloop
      obtain ⟨h₂, s₂, hturns, hlast⟩ | hdepth := ih hloop
      · exact .inl ⟨h₂, s₂, .more hturn hturns, hlast⟩
      · exact .inr hdepth
    rw [loop_lastTurn hlast] at hloop
    cases hloop
    exact .inl ⟨h, s, .refl h s, hlast⟩

theorem loop_ok {s' : σ} {r : R} (hloop : loop turn fuel h s = (.ok r, s')) :
    ∃ h₁ s₁, Turns turn h s h₁ s₁ ∧ turn h₁ s₁ = (.ok (.done r), s') := by
  obtain ⟨h₁, s₁, hturns, hlast⟩ | hdepth := loop_cases hloop
  · cases hlast with
    | done hturn => exact ⟨h₁, s₁, hturns, hturn⟩
  · cases hdepth

end Loop

/-! ## §9. What a reader can return. -/

section Results

variable {ε σ α β γ : Type}

/-- Whatever the reader returns satisfies the condition. -/
def Gives (P : α → Prop) (x : Reader ε σ α) : Prop := ∀ s a s', x s = (.ok a, s') → P a

theorem Gives.pure {P : α → Prop} {a : α} (h : P a) : Gives P (pure a : Reader ε σ α) := by
  intro s b s' hrun
  cases hrun
  exact h

variable {x : Reader ε σ α}

theorem Gives.bind {P : β → Prop} {f : α → Reader ε σ β} (h : ∀ a, Gives P (f a)) :
    Gives P (x >>= f) := by
  intro s b s' hrun
  obtain ⟨a, s₁, _, hf⟩ := bind_eq_ok_iff.mp hrun
  exact h a s₁ b s' hf

theorem Gives.ite {P : α → Prop} {c : Prop} [Decidable c] {y : Reader ε σ α} (hx : Gives P x)
    (hy : Gives P y) : Gives P (if c then x else y) := by
  split
  · exact hx
  · exact hy

theorem Gives.collect {P : β → Prop} {f : α → Reader ε σ β} (h : ∀ a, Gives P (f a)) (as : List α) :
    Gives (fun bs => ∀ b ∈ bs, P b) (ByteReader.collect f as) := by
  induction as with
  | nil => exact .pure nofun
  | cons a as ih =>
    intro s bs s' hrun
    obtain ⟨b, s₁, hb, hrest⟩ := bind_eq_ok_iff.mp hrun
    obtain ⟨cs, s₂, hcs, hreturn⟩ := bind_eq_ok_iff.mp hrest
    cases hreturn
    intro c hc
    rcases mem_cons.mp hc with rfl | hc
    · exact h a s c s₁ hb
    · exact ih s₁ cs _ hcs c hc

/-- The reader with its result changed. -/
def mapResult (f : α → β) (x : Reader ε σ α) : Reader ε σ β := fun s => ((x s).1.map f, (x s).2)

theorem mapResult_pure (f : α → β) (a : α) :
    mapResult f (Pure.pure a : Reader ε σ α) = Pure.pure (f a) := rfl

theorem mapResult_fail (f : α → β) (e : ε) :
    mapResult f (fail e : Reader ε σ α) = fail e := rfl

theorem mapResult_bind (f : β → γ) (x : Reader ε σ α) (g : α → Reader ε σ β) :
    mapResult f (x >>= g) = x >>= fun a => mapResult f (g a) := by
  funext s
  rw [bind_apply]
  unfold mapResult
  rw [bind_apply]
  cases x s with
  | mk res s' => cases res <;> rfl

theorem bind_mapResult (f : α → β) (x : Reader ε σ α) (g : β → Reader ε σ γ) :
    mapResult f x >>= g = x >>= fun a => g (f a) := by
  funext s
  rw [bind_apply, bind_apply]
  unfold mapResult
  cases x s with
  | mk res s' => cases res <;> rfl

theorem mapResult_ite {c : Prop} [Decidable c] (f : α → β) (x y : Reader ε σ α) :
    mapResult f (if c then x else y) = if c then mapResult f x else mapResult f y := by
  split <;> rfl

theorem mapResult_ok {f : α → β} {s s' : σ} {a : α} (h : x s = (.ok a, s')) :
    mapResult f x s = (.ok (f a), s') := by
  unfold mapResult
  rw [h]
  rfl

end Results

/-! ## §10. Reading back what was written, one writer at a time. -/

section Until

variable {ε σ α : Type}

/-- Items up to a marker, with the number of items and markers that may be read. -/
def readUntil (item : Reader ε σ (Option α)) : Nat → Reader ε σ (List α)
  | 0 => tooDeep
  | fuel + 1 => do
    match ← item with
    | none => return []
    | some a => do
      let rest ← readUntil item fuel
      return a :: rest

end Until

variable {ε α β : Type}

/-- The reader takes these bytes off the front of any buffer. -/
def Parses (x : Reader ε Bytes α) (bs : Bytes) (a : α) : Prop :=
  ∀ rest, x (bs ++ rest) = (.ok a, rest)

namespace Parses

theorem pure (a : α) : Parses (pure a : Reader ε Bytes α) [] a := fun _ => rfl

theorem bind {x : Reader ε Bytes α} {f : α → Reader ε Bytes β}
    {bs cs : Bytes} {a : α} {b : β} (hx : Parses x bs a) (hf : Parses (f a) cs b) :
    Parses (x >>= f) (bs ++ cs) b := by
  intro rest
  rw [append_assoc, bind_ok (hx _)]
  exact hf rest

theorem done {x : Reader ε Bytes α} {f : α → Reader ε Bytes β}
    {bs : Bytes} {a : α} {b : β} (hx : Parses x bs a) (hf : Parses (f a) [] b) :
    Parses (x >>= f) bs b := by
  have h := hx.bind hf
  rwa [append_nil] at h

theorem exact [EndOfInput ε] (bs : Bytes) {n : Nat} (hn : bs.length = n) :
    Parses (readExact (ε := ε) n) bs bs :=
  fun _ => readExact_list_iff.mpr ⟨rfl, hn⟩

theorem readUntil {item : Reader ε Bytes (Option β)} {write : α → Bytes}
    {view : α → β} {mark : Bytes} (hmark : Parses item mark none) {as : List α} {fuel : Nat} :
    as.length < fuel →
      (∀ a ∈ as, Parses item (write a) (some (view a))) →
      Parses (ByteReader.readUntil item fuel) (as.flatMap write ++ mark) (as.map view) := by
  induction as generalizing fuel with
  | nil =>
    intro hfuel _
    cases fuel with
    | zero => exact absurd hfuel (Nat.not_lt_zero _)
    | succ fuel => exact hmark.done (.pure _)
  | cons a as ih =>
    intro hfuel hitems
    rcases fuel with _ | fuel
    · exact absurd hfuel (Nat.not_lt_zero _)
    have hrest := @ih fuel (by simpa using hfuel)
      (fun b hb => hitems b (mem_cons_of_mem _ hb))
    rw [flatMap_cons, append_assoc]
    exact (hitems a mem_cons_self).bind (hrest.done (.pure _))

theorem collect {x : Reader ε Bytes β} {write : α → Bytes} {view : α → β}
    {as : List α} :
    (∀ a ∈ as, Parses x (write a) (view a)) →
      Parses (ByteReader.collect (fun _ => x) (List.replicate as.length ())) (as.flatMap write)
        (as.map view) := by
  induction as with
  | nil =>
    intro _
    exact .pure _
  | cons a as ih =>
    intro hitems
    have hrest := ih fun b hb => hitems b (mem_cons_of_mem _ hb)
    exact (hitems a mem_cons_self).bind (hrest.done (.pure _))

end Parses

/-- The reader stops with an error where only these bytes are left. -/
def Fails (x : Reader ε Bytes α) (bs : Bytes) : Prop :=
  ∃ e rest, x bs = (.error e, rest)

namespace Fails

variable {x : Reader ε Bytes α} {bs : Bytes}

theorem first {f : α → Reader ε Bytes β} (hx : Fails x bs) : Fails (x >>= f) bs := by
  obtain ⟨e, rest, h⟩ := hx
  exact ⟨e, rest, bind_error h⟩

theorem after {f : α → Reader ε Bytes β} {cs : Bytes} {a : α} (hx : Parses x bs a)
    (hf : Fails (f a) cs) :
    Fails (x >>= f) (bs ++ cs) := by
  obtain ⟨e, rest, h⟩ := hf
  refine ⟨e, rest, ?_⟩
  rw [bind_ok (hx cs)]
  exact h

theorem not_parses {a : α} (h : Fails x bs) :
    ¬ Parses x bs a := by
  intro hparses
  obtain ⟨e, rest, h⟩ := h
  have hall := hparses []
  rw [append_nil, h] at hall
  cases hall

end Fails

end ByteReader
