/-
  StClickHouse.Lib.Runs
  **RUNS OF A STEP FUNCTION.**

  A system is a function that gives the state after an action, or nothing where
  the action is not enabled.  A run is a list of actions taken one after the
  other, each under a condition on the state it is taken in.
-/
import Mathlib

namespace StClickHouse

open List

variable {S A : Type}

section Guards

variable {p : Prop} [Decidable p] {s s' : S} {x : Option S}

/-- A guarded action that was taken: its guard held. -/
theorem of_guard_then (h : (if p then x else none) = some s') : p ∧ x = some s' :=
  Option.ite_none_right_eq_some.mp h

theorem of_guard (h : (if p then some s else none) = some s') : p ∧ s = s' :=
  (of_guard_then h).imp_right Option.some.inj

/-- An action that was not refused. -/
theorem of_check (h : (if p then none else x) = some s') : ¬ p ∧ x = some s' :=
  Option.ite_none_left_eq_some.mp h

end Guards

/-- The state after a list of actions, if each is enabled. -/
def exec (step : S → A → Option S) : S → List A → Option S
  | s, [] => some s
  | s, a :: as =>
    match step s a with
    | some s' => exec step s' as
    | none => none

/-- A run from one state to another whose steps all meet the condition. -/
inductive Run (step : S → A → Option S) (ok : S → A → Prop) : S → List A → S → Prop
  | nil (s : S) : Run step ok s [] s
  | cons {s s₁ s₂ : S} {a : A} {as : List A} :
      ok s a → step s a = some s₁ → Run step ok s₁ as s₂ → Run step ok s (a :: as) s₂

variable {step : S → A → Option S} {ok : S → A → Prop}

variable {s s' : S} {as : List A}

/-- **The invariant rule.** -/
theorem Run.invariant {I : S → Prop} (hstep : ∀ s a s', I s → ok s a → step s a = some s' → I s')
    (hrun : Run step ok s as s') : I s → I s' := by
  induction hrun with
  | nil s => exact id
  | cons hok hs _ ih =>
    intro hI
    exact ih (hstep _ _ _ hI hok hs)

theorem Run.weaken {ok' : S → A → Prop} (h : ∀ s a, ok s a → ok' s a) (hrun : Run step ok s as s') :
    Run step ok' s as s' := by
  induction hrun with
  | nil s => exact .nil s
  | cons hok hs _ ih => exact .cons (h _ _ hok) hs ih

/-- An executed list of actions is a run, if each action meets the condition in all states. -/
theorem Run.of_exec_ok :
    (∀ a ∈ as, ∀ s, ok s a) →
    exec step s as = some s' → Run step ok s as s' := by
  induction as generalizing s s' with
  | nil =>
    intro _ h
    cases h
    exact .nil s
  | cons a as ih =>
    intro hok h
    unfold exec at h
    rcases hs : step s a with _ | s₁
    · rw [hs] at h
      cases h
    rw [hs] at h
    exact .cons (hok a mem_cons_self s) hs
      (ih (fun b hb => hok b (mem_cons_of_mem a hb)) h)

theorem Run.of_exec (h : exec step s as = some s') :
    Run step (fun _ _ => True) s as s' :=
  .of_exec_ok (fun _ _ _ => trivial) h

/-- The step function that takes only the steps that meet the condition. -/
def guarded (step : S → A → Option S) (ok : S → A → Prop) [∀ s a, Decidable (ok s a)] (s : S)
    (a : A) : Option S :=
  if ok s a then step s a else none

/-- A list of actions that is executed under the condition is a run. -/
theorem Run.of_guarded [∀ s a, Decidable (ok s a)] :
    exec (guarded step ok) s as = some s' → Run step ok s as s' := by
  induction as generalizing s s' with
  | nil =>
    intro h
    cases h
    exact .nil s
  | cons a as ih =>
    intro h
    unfold exec guarded at h
    by_cases hok : ok s a
    · simp only [hok, if_true] at h
      rcases hs : step s a with _ | s₁
      · rw [hs] at h
        cases h
      rw [hs] at h
      exact .cons hok hs (ih h)
    · simp only [hok, if_false] at h
      cases h

/-- The moments of a run: after any number of its actions, it has been a run. -/
theorem Run.take (hrun : Run step ok s as s') (k : Nat) :
    ∃ s₁, exec step s (as.take k) = some s₁ ∧ Run step ok s (as.take k) s₁ := by
  induction hrun generalizing k with
  | nil s =>
    rw [take_nil]
    exact ⟨s, rfl, .nil s⟩
  | @cons s s₁ s₂ a as hok hs _ ih =>
    rcases k with _ | k
    · exact ⟨s, rfl, .nil s⟩
    obtain ⟨r, hexec, hrun⟩ := ih k
    refine ⟨r, ?_, .cons hok hs hrun⟩
    rw [take_succ_cons, exec, hs]
    exact hexec

end StClickHouse
