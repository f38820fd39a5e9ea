/-
  StClickHouse.Lib.Leases
  **LEASES: WHAT IS LENT BELONGS TO ITS HOLDER ALONE.**

  A pool hands items to holders.  An item is available, or lent to a holder, or no
  longer known to the pool; apart from that, a holder has an item from when it was lent
  until the holder has given it back.  Leases are exclusive when what a holder has is
  neither available nor lent to anyone else.
-/
import Mathlib

namespace Leasing

open List Function

variable {C H : Type}

/-- The books of a pool, and what each holder has. -/
structure Leases (C H : Type) where
  available : List C
  lent : List (C × H)
  has : H → Option C

structure Exclusive (l : Leases C H) : Prop where
  once : l.available.Nodup
  apart : ∀ c ∈ l.available, ∀ h, (c, h) ∉ l.lent
  alone : ∀ h c, l.has h = some c → c ∉ l.available ∧ ∀ h', (c, h') ∈ l.lent → h' = h
  single : ∀ h h' c, l.has h = some c → l.has h' = some c → h = h'

/-- Nobody has heard of the item. -/
structure Fresh (l : Leases C H) (c : C) : Prop where
  available : c ∉ l.available
  lent : ∀ h, (c, h) ∉ l.lent
  has : ∀ h, l.has h ≠ some c

namespace Exclusive

variable {l : Leases C H}

theorem shrink (hl : Exclusive l) {l' : Leases C H} (havailable : l'.available.Sublist l.available)
    (hlent : ∀ p ∈ l'.lent, p ∈ l.lent) (hhas : ∀ h c, l'.has h = some c → l.has h = some c) :
    Exclusive l' where
  once := hl.once.sublist havailable
  apart := by
    intro c hc h hmem
    exact hl.apart c (havailable.subset hc) h (hlent _ hmem)
  alone := by
    intro h c hc
    obtain ⟨hnot, hmine⟩ := hl.alone h c (hhas h c hc)
    exact ⟨fun hmem => hnot (havailable.subset hmem), fun h' hmem => hmine h' (hlent _ hmem)⟩
  single := by
    intro h h' c hc hc'
    exact hl.single h h' c (hhas h c hc) (hhas h' c hc')

/-- An available item that is taken out is as good as new. -/
theorem taken (hl : Exclusive l) {c : C} {rest : List C} (hc : l.available = c :: rest) :
    Fresh ⟨rest, l.lent, l.has⟩ c := by
  have hmem : c ∈ l.available := hc ▸ mem_cons_self
  have honce := hl.once
  rw [hc, nodup_cons] at honce
  exact ⟨honce.1, hl.apart c hmem, fun h' hhas => (hl.alone h' c hhas).1 hmem⟩

variable [DecidableEq H]

theorem grant (hl : Exclusive l) {h : H} {c : C} (hc : Fresh l c) :
    Exclusive ⟨l.available, (c, h) :: l.lent, update l.has h (some c)⟩ := by
  refine ⟨hl.once, ?_, ?_, ?_⟩
  · intro x hx h' hlent
    obtain heq | hlent := mem_cons.mp hlent
    · exact hc.available ((Prod.mk.inj heq).1 ▸ hx)
    · exact hl.apart x hx h' hlent
  · intro h' x hx
    by_cases hh : h' = h
    · subst hh
      simp only [update_self, Option.some.injEq] at hx
      subst hx
      refine ⟨hc.available, ?_⟩
      intro h'' hlent
      obtain heq | hlent := mem_cons.mp hlent
      · exact (Prod.mk.inj heq).2
      · exact absurd hlent (hc.lent h'')
    · simp only [update_of_ne hh] at hx
      obtain ⟨hnot, hmine⟩ := hl.alone h' x hx
      refine ⟨hnot, ?_⟩
      intro h'' hlent
      obtain heq | hlent := mem_cons.mp hlent
      · exact absurd ((Prod.mk.inj heq).1 ▸ hx) (hc.has h')
      · exact hmine h'' hlent
  · intro h₁ h₂ x hx₁ hx₂
    by_cases hh₁ : h₁ = h <;> by_cases hh₂ : h₂ = h
    · rw [hh₁, hh₂]
    · subst hh₁
      simp only [update_self, Option.some.injEq, update_of_ne hh₂] at hx₁ hx₂
      exact absurd (hx₁ ▸ hx₂) (hc.has h₂)
    · subst hh₂
      simp only [update_self, Option.some.injEq, update_of_ne hh₁] at hx₁ hx₂
      exact absurd (hx₂ ▸ hx₁) (hc.has h₁)
    · simp only [update_of_ne hh₁, update_of_ne hh₂] at hx₁ hx₂
      exact hl.single h₁ h₂ x hx₁ hx₂

theorem recycle [DecidableEq C] (hl : Exclusive l) {h : H} {c : C} (hc : l.has h = some c) :
    Exclusive ⟨l.available ++ [c], l.lent.filter (fun p => p.1 ≠ c),
      update l.has h none⟩ := by
  obtain ⟨hnot, hmine⟩ := hl.alone h c hc
  refine ⟨?_, ?_, ?_, ?_⟩
  · exact nodup_append.mpr ⟨hl.once, nodup_singleton c,
      fun x hx y hy hxy => hnot (mem_singleton.mp hy ▸ hxy ▸ hx)⟩
  · intro x hx h' hlent
    obtain ⟨hlent, hne⟩ := mem_filter.mp hlent
    obtain hx | hx := mem_append.mp hx
    · exact hl.apart x hx h' hlent
    · simp [mem_singleton.mp hx] at hne
  · intro h' x hx
    by_cases hh : h' = h
    · subst hh
      simp only [update_self, reduceCtorEq] at hx
    simp only [update_of_ne hh] at hx
    obtain ⟨hnot', hmine'⟩ := hl.alone h' x hx
    refine ⟨?_, fun h'' hlent => hmine' h'' (mem_filter.mp hlent).1⟩
    intro hmem
    obtain hmem | hmem := mem_append.mp hmem
    · exact hnot' hmem
    · rw [mem_singleton.mp hmem] at hx
      exact hh (hl.single h' h c hx hc)
  · intro h₁ h₂ x hx₁ hx₂
    by_cases hh₁ : h₁ = h
    · subst hh₁
      simp only [update_self, reduceCtorEq] at hx₁
    by_cases hh₂ : h₂ = h
    · subst hh₂
      simp only [update_self, reduceCtorEq] at hx₂
    · simp only [update_of_ne hh₁, update_of_ne hh₂] at hx₁ hx₂
      exact hl.single h₁ h₂ x hx₁ hx₂

end Exclusive

end Leasing
