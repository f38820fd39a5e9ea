/-
  StClickHouse.Python.Slots
  **THE SLOTS OF `ConnectionPool`.**

  `_pool.py` under any number of threads.  Every step is one block that holds the pool's
  lock; factories and pings run between them and may end in any way at any time.  A thread
  is a call of `acquire` and what its caller does with the client: it may release it, or
  discard it, as often as it likes.

      accounts_balance — the slots are the available and the lent ones, within the bounds
      lent_once        — a client has one holder
      closed_for_good  — a closed pool lends nothing
-/
import StClickHouse.Lib.Runs

namespace StClickHouse.Python

open List Function

/-! ## §1. The pool. -/

/-- Where a thread stands: before `_reserve` has let it in; in `_grow` with capacity booked;
    in `_hand_out` with a slot; with a client; with one it has given back; without one. -/
inductive Thread where
  | idle
  | growing
  | checking (pc : Nat)
  | holds (c : Nat)
  | gave (c : Nat)
  | failed
deriving DecidableEq, Repr

/-- `_lent` is a set: a list without duplicates. -/
structure Slots where
  all : List Nat
  available : List Nat
  lent : List Nat
  creating : Nat
  closed : Bool
  /-- `pc.client`. -/
  client : Nat → Nat
  nextSlot : Nat
  nextClient : Nat
  thread : Nat → Thread

inductive SlotAction where
  | reserve (t : Nat)
  | book (t : Nat)
  /-- The pool is closed, or the deadline of `_reserve` has passed. -/
  | giveUp (t : Nat)
  | grow (t : Nat)
  | growFail (t : Nat)
  /-- The slot was used lately, or its client answers a ping. -/
  | handOut (t : Nat)
  /-- The ping has failed and there is a new client. -/
  | replace (t : Nat)
  /-- The ping has failed and there is no new client. -/
  | drop (t : Nat)
  | release (t c : Nat) (destroy : Bool)
  /-- `_reap_once`, where these slots have been idle for too long. -/
  | reap (stale : List Nat)
  | close
deriving DecidableEq, Repr

variable {s : Slots} {a : SlotAction}

namespace Slots

/-- A pool with `min` slots. -/
def start (min : Nat) : Slots where
  all := List.range min
  available := List.range min
  lent := []
  creating := 0
  closed := false
  client := id
  nextSlot := min
  nextClient := min
  thread := fun _ => .idle

def setThread (s : Slots) (t : Nat) (th : Thread) : Slots :=
  { s with thread := Function.update s.thread t th }

/-- The slot that the thread has from `_reserve`. -/
def reserved (s : Slots) (t : Nat) : Option Nat :=
  match s.thread t with
  | .checking pc => some pc
  | _ => none

/-- `release(client, destroy)`. -/
def giveBack (s : Slots) (c : Nat) (destroy : Bool) : Slots :=
  if s.closed then s
  else
    match s.all.find? (fun pc => s.client pc = c) with
    | none => s
    | some pc =>
      if destroy then
        { s with
          lent := s.lent.erase pc
          available := s.available.erase pc
          all := s.all.erase pc }
      else if pc ∈ s.lent then
        { s with lent := s.lent.erase pc, available := s.available ++ [pc] }
      else s

/-- The slots that `_reap_once` takes: idle ones, down to the minimum. -/
def reaped (s : Slots) (min : Nat) (stale : List Nat) : List Nat :=
  (s.available.filter (· ∈ stale)).take (s.available.length - min)

/-- The second loop of `_reap_once`; `remove` raises for a slot that is not there. -/
def unshelve (s : Slots) : List Nat → Slots
  | [] => s
  | pc :: rest =>
    if pc ∈ s.all then
      unshelve { s with available := s.available.erase pc, all := s.all.erase pc } rest
    else { s with available := s.available.erase pc }

/-- One step. -/
def step (min max : Nat) (s : Slots) : SlotAction → Option Slots
  | .reserve t =>
    match s.available with
    | pc :: rest =>
      if s.thread t = .idle ∧ !s.closed then
        some ({ s with available := rest, lent := s.lent.insert pc }.setThread t (.checking pc))
      else none
    | [] => none
  | .book t =>
    if s.thread t = .idle ∧ !s.closed ∧ s.available = [] ∧ s.all.length + s.creating < max then
      some ({ s with creating := s.creating + 1 }.setThread t .growing)
    else none
  | .giveUp t =>
    if s.thread t = .idle ∧ (s.closed ∨ s.available = [] ∧ max ≤ s.all.length + s.creating) then
      some (s.setThread t .failed)
    else none
  | .grow t =>
    if s.thread t = .growing then
      if s.closed then
        some ({ s with
          creating := s.creating - 1
          nextClient := s.nextClient + 1 }.setThread t .failed)
      else
        some ({ s with
          creating := s.creating - 1
          all := s.all ++ [s.nextSlot]
          lent := s.lent.insert s.nextSlot
          client := Function.update s.client s.nextSlot s.nextClient
          nextSlot := s.nextSlot + 1
          nextClient := s.nextClient + 1 }.setThread t (.holds s.nextClient))
    else none
  | .growFail t =>
    if s.thread t = .growing then
      some ({ s with creating := s.creating - 1 }.setThread t .failed)
    else none
  | .handOut t =>
    (s.reserved t).map fun pc =>
      if s.closed ∨ pc ∉ s.lent then s.setThread t .failed
      else s.setThread t (.holds (s.client pc))
  | .replace t =>
    (s.reserved t).map fun pc =>
      if s.closed ∨ pc ∉ s.lent then
        { s with nextClient := s.nextClient + 1 }.setThread t .failed
      else
        { s with
          client := Function.update s.client pc s.nextClient
          nextClient := s.nextClient + 1 }.setThread t (.holds s.nextClient)
  | .drop t =>
    (s.reserved t).map fun pc =>
      { s with lent := s.lent.erase pc, all := s.all.erase pc }.setThread t .failed
  | .release t c destroy =>
    let s' := s.giveBack c destroy
    some (if s.thread t = .holds c then s'.setThread t (.gave c) else s')
  | .reap stale => some (if s.closed then s else s.unshelve (s.reaped min stale))
  | .close => some { s with closed := true, all := [], available := [], lent := [] }

/-- What only takes slots away, or moves them between the available and the lent ones. -/
structure Fewer (s s' : Slots) : Prop where
  all : s'.all ⊆ s.all
  lent : s'.lent.Sublist s.lent
  thread : s'.thread = s.thread
  client : s'.client = s.client
  nextClient : s'.nextClient = s.nextClient
  nextSlot : s'.nextSlot = s.nextSlot

theorem giveBack_fewer (s : Slots) (c : Nat) (destroy : Bool) : Fewer s (s.giveBack c destroy) := by
  have hself : Fewer s s := ⟨List.Subset.refl _, .refl _, rfl, rfl, rfl, rfl⟩
  unfold giveBack
  split
  · exact hself
  split
  · exact hself
  split
  · exact ⟨erase_subset, erase_sublist, rfl, rfl, rfl, rfl⟩
  split
  · exact ⟨List.Subset.refl _, erase_sublist, rfl, rfl, rfl, rfl⟩
  · exact hself

theorem unshelve_fewer : ∀ (pcs : List Nat) (s : Slots),
    Fewer s (s.unshelve pcs) ∧ (s.unshelve pcs).available ⊆ s.available := by
  intro pcs
  induction pcs with
  | nil => exact fun s => ⟨⟨List.Subset.refl _, .refl _, rfl, rfl, rfl, rfl⟩, List.Subset.refl _⟩
  | cons pc rest ih =>
    intro s
    unfold unshelve
    split
    · obtain ⟨h, hav⟩ := ih { s with available := s.available.erase pc, all := s.all.erase pc }
      exact ⟨⟨fun _ hq => erase_subset (h.all hq), h.lent, h.thread, h.client, h.nextClient,
        h.nextSlot⟩, fun _ hq => erase_subset (hav hq)⟩
    · exact ⟨⟨List.Subset.refl _, .refl _, rfl, rfl, rfl, rfl⟩, erase_subset⟩

/-! ## §2. Slots and clients are told apart. -/

/-- Slots and clients are numbered, and no two slots have one client. -/
structure Distinct (s : Slots) : Prop where
  fresh : ∀ pc ∈ s.all, pc < s.nextSlot
  known : ∀ pc ∈ s.all, s.client pc < s.nextClient
  apart : ∀ pc ∈ s.all, ∀ qc ∈ s.all, s.client pc = s.client qc → pc = qc
  lent : s.lent.Nodup

theorem Distinct.start (min : Nat) : (Slots.start min).Distinct where
  fresh := fun _ => mem_range.mp
  known := fun _ => mem_range.mp
  apart := fun _ _ _ _ => id
  lent := nodup_nil

theorem Distinct.fewer {s' : Slots} (h : s.Distinct) (hall : s'.all ⊆ s.all)
    (hslot : s'.nextSlot = s.nextSlot) (hclient : s'.client = s.client)
    (hnext : s.nextClient ≤ s'.nextClient) (hlent : s'.lent.Nodup) : s'.Distinct where
  fresh := fun pc hpc => hslot ▸ h.fresh pc (hall hpc)
  known := fun pc hpc => hclient ▸ Nat.lt_of_lt_of_le (h.known pc (hall hpc)) hnext
  apart := fun pc hpc qc hqc => hclient ▸ h.apart pc (hall hpc) qc (hall hqc)
  lent := hlent

theorem Distinct.step {min max : Nat} {s' : Slots} (h : s.Distinct)
    (hstep : s.step min max a = some s') : s'.Distinct := by
  -- Only `_grow` makes a slot, and only it and a replacement give a slot a client: a new one.
  have hsame : ∀ {r : Slots}, r.all = s.all → r.nextSlot = s.nextSlot → r.client = s.client →
      s.nextClient ≤ r.nextClient → r.lent = s.lent → r.Distinct :=
    fun hall hslot hclient hnext hlent =>
      h.fewer (hall ▸ List.Subset.refl _) hslot hclient hnext (hlent ▸ h.lent)
  cases a with
  | reserve t =>
    unfold Slots.step at hstep
    dsimp only at hstep
    split at hstep
    · obtain ⟨-, rfl⟩ := of_guard hstep
      exact h.fewer (List.Subset.refl _) rfl rfl le_rfl (List.Nodup.insert h.lent)
    · cases hstep
  | book t | giveUp t | growFail t =>
    obtain ⟨-, rfl⟩ := of_guard hstep
    exact hsame rfl rfl rfl le_rfl rfl
  | grow t =>
    obtain ⟨-, hgrow⟩ := of_guard_then hstep
    split at hgrow <;> cases hgrow
    · exact hsame rfl rfl rfl (Nat.le_succ _) rfl
    have hnew : ∀ pc ∈ s.all, s.client pc ≠ s.nextClient :=
      fun pc hpc => Nat.ne_of_lt (h.known pc hpc)
    have := h.fresh
    have := h.known
    have := h.apart
    refine ⟨?_, ?_, ?_, List.Nodup.insert h.lent⟩ <;>
      simp only [setThread, mem_append, mem_singleton, Function.update_apply] <;>
      grind
  | handOut t =>
    obtain ⟨pc, -, rfl⟩ := Option.map_eq_some_iff.mp hstep
    split <;> exact hsame rfl rfl rfl le_rfl rfl
  | replace t =>
    obtain ⟨pc, -, rfl⟩ := Option.map_eq_some_iff.mp hstep
    split
    · exact hsame rfl rfl rfl (Nat.le_succ _) rfl
    have := h.known
    have := h.apart
    refine ⟨h.fresh, ?_, ?_, h.lent⟩ <;>
      simp only [setThread, Function.update_apply] <;> grind
  | drop t =>
    obtain ⟨pc, -, rfl⟩ := Option.map_eq_some_iff.mp hstep
    exact h.fewer erase_subset rfl rfl le_rfl (h.lent.erase _)
  | release t c destroy =>
    have hf := s.giveBack_fewer c destroy
    cases hstep
    split <;> exact h.fewer hf.all hf.nextSlot hf.client (Nat.le_of_eq hf.nextClient.symm)
      (h.lent.sublist hf.lent)
  | reap stale =>
    cases hstep
    split
    · exact h
    have hf := (unshelve_fewer (s.reaped min stale) s).1
    exact h.fewer hf.all hf.nextSlot hf.client (Nat.le_of_eq hf.nextClient.symm)
      (h.lent.sublist hf.lent)
  | close =>
    cases hstep
    exact h.fewer (nil_subset _) rfl rfl le_rfl nodup_nil

/-! ## §3. The accounts. -/

/-- So many threads are in `_grow`. -/
def Pending (thread : Nat → Thread) (n : Nat) : Prop :=
  ∃ ts : List Nat, ts.Nodup ∧ ts.length = n ∧ ∀ t, t ∈ ts ↔ thread t = .growing

section Pending

variable {thread : Nat → Thread} {n t : Nat}

theorem Pending.book (h : Pending thread n) (ht : thread t ≠ .growing) :
    Pending (Function.update thread t .growing) (n + 1) := by
  obtain ⟨ts, hnodup, hlen, hmem⟩ := h
  refine ⟨t :: ts, nodup_cons.mpr ⟨fun h => ht ((hmem t).mp h), hnodup⟩, by simp [hlen], ?_⟩
  intro u
  by_cases hu : u = t <;> simp [hu, hmem]

theorem Pending.settle {th : Thread} (h : Pending thread n) (ht : thread t = .growing)
    (hth : th ≠ .growing) : 0 < n ∧ Pending (Function.update thread t th) (n - 1) := by
  obtain ⟨ts, hnodup, hlen, hmem⟩ := h
  have hin : t ∈ ts := (hmem t).mpr ht
  refine ⟨hlen ▸ length_pos_of_mem hin, ts.erase t, hnodup.erase t, ?_, ?_⟩
  · rw [length_erase_of_mem hin, hlen]
  intro u
  rw [hnodup.mem_erase_iff]
  by_cases hu : u = t <;> simp [hu, hmem, hth]

theorem Pending.move {th : Thread} (h : Pending thread n) (ht : thread t ≠ .growing)
    (hth : th ≠ .growing) : Pending (Function.update thread t th) n := by
  obtain ⟨ts, hnodup, hlen, hmem⟩ := h
  refine ⟨ts, hnodup, hlen, ?_⟩
  intro u
  by_cases hu : u = t <;> simp [hu, hmem, ht, hth]

end Pending

/-- The accounts of the pool. -/
structure Books (max : Nat) (s : Slots) : Prop where
  split : (s.available ++ s.lent).Perm s.all
  nodup : s.all.Nodup
  bound : s.all.length + s.creating ≤ max
  closed : s.closed = true → s.all = []
  pending : Pending s.thread s.creating

section Books

variable {min max : Nat} {s s' : Slots}

theorem Books.start (h : min ≤ max) : Books max (Slots.start min) where
  split := by simp [Slots.start]
  nodup := nodup_range
  bound := by simpa [Slots.start] using h
  closed := nofun
  pending := ⟨[], nodup_nil, rfl, by simp [Slots.start]⟩

theorem Books.available_subset (h : Books max s) : s.available ⊆ s.all :=
  fun _ hpc => h.split.subset (mem_append_left _ hpc)

theorem Books.lent_subset (h : Books max s) : s.lent ⊆ s.all :=
  fun _ hpc => h.split.subset (mem_append_right _ hpc)

theorem Books.disjoint (h : Books max s) : List.Disjoint s.available s.lent :=
  disjoint_of_nodup_append (h.split.nodup_iff.mpr h.nodup)

/-- A slot goes, wherever it is. -/
theorem Books.remove (h : Books max s) (pc : Nat) : Books max
    { s with
      available := s.available.erase pc
      lent := s.lent.erase pc
      all := s.all.erase pc } where
  split := by
    have heach : (s.available ++ s.lent).erase pc = s.available.erase pc ++ s.lent.erase pc := by
      by_cases hpc : pc ∈ s.available
      · rw [erase_append_left _ hpc, erase_of_not_mem (h.disjoint hpc)]
      · rw [erase_append_right _ hpc, erase_of_not_mem hpc]
    exact heach ▸ h.split.erase pc
  nodup := h.nodup.erase pc
  bound := Nat.le_trans (Nat.add_le_add_right length_erase_le _) h.bound
  closed := fun hc => by simp [h.closed hc]
  pending := h.pending

theorem Books.unshelve (pcs : List Nat) :
    Books max s → pcs.Nodup →
    pcs ⊆ s.available → Books max (s.unshelve pcs) ∧ (s.unshelve pcs).lent = s.lent ∧
      (s.unshelve pcs).available.length + pcs.length = s.available.length := by
  induction pcs generalizing s with
  | nil =>
    intro h _ _
    exact ⟨h, rfl, rfl⟩
  | cons pc rest ih =>
    intro h hnodup hsub
    have hpc : pc ∈ s.available := hsub mem_cons_self
    have hrest : rest ⊆ s.available.erase pc := by
      intro qc hqc
      have hne : qc ≠ pc := fun heq => (nodup_cons.mp hnodup).1 (heq ▸ hqc)
      exact (mem_erase_of_ne hne).mpr (hsub (mem_cons_of_mem pc hqc))
    have hmid := h.remove pc
    rw [erase_of_not_mem (h.disjoint hpc)] at hmid
    obtain ⟨hbooks, hlent, hlen⟩ := ih hmid (nodup_cons.mp hnodup).2 hrest
    have hone := length_erase_of_mem hpc
    have hpos := length_pos_of_mem hpc
    rw [Slots.unshelve, if_pos (h.available_subset hpc)]
    refine ⟨hbooks, hlent, ?_⟩
    simp only [length_cons] at hlen ⊢
    omega

theorem Books.reap (h : Books max s) (stale : List Nat) :
    Books max (s.unshelve (s.reaped min stale)) ∧
      (s.unshelve (s.reaped min stale)).lent = s.lent ∧
      ((s.unshelve (s.reaped min stale)).available = s.available ∨
        min ≤ (s.unshelve (s.reaped min stale)).available.length) := by
  have hsub : (s.reaped min stale).Sublist s.available :=
    (take_sublist _ _).trans filter_sublist
  have hnodup : s.available.Nodup := (h.split.nodup_iff.mpr h.nodup).of_append_left
  obtain ⟨hbooks, hlent, hlen⟩ := h.unshelve _ (hnodup.sublist hsub) hsub.subset
  refine ⟨hbooks, hlent, ?_⟩
  have htake : (s.reaped min stale).length ≤ s.available.length - min :=
    length_take_le _ _
  rcases Nat.lt_or_ge min s.available.length with hlt | hge
  · exact .inr (by omega)
  · have hnone : s.reaped min stale = [] := eq_nil_of_length_eq_zero (by omega)
    exact .inl (by rw [hnone, Slots.unshelve])

theorem Books.giveBack (h : Books max s) (c : Nat) (destroy : Bool) :
    Books max (s.giveBack c destroy) := by
  unfold Slots.giveBack
  split
  · exact h
  · next hopen =>
    split
    · exact h
    · next pc _ =>
      split
      · exact h.remove pc
      split
      · next hlent =>
        refine ⟨?_, h.nodup, h.bound, h.closed, h.pending⟩
        -- The slot moves from the lent ones to the end of the available ones.
        rw [append_assoc]
        exact ((perm_cons_erase hlent).symm.append_left _).trans h.split
      · exact h

theorem thread_of_reserved {pc t : Nat} (h : s.reserved t = some pc) : s.thread t = .checking pc := by
  unfold reserved at h
  split at h <;> cases h
  assumption

/-- No acquire drops a slot that a surplus release has made available meanwhile. -/
def DropsLent (s : Slots) : SlotAction → Prop
  | .drop t => ∀ pc ∈ s.available, s.thread t ≠ .checking pc
  | _ => True

theorem Books.step (h : Books max s) (hd : s.Distinct) (hok : s.DropsLent a)
    (hstep : s.step min max a = some s') : Books max s' := by
  -- What only moves a thread outside `_grow`, or counts clients, is not in the accounts.
  have hmove : ∀ {t th} (client : Nat → Nat) (n : Nat), s.thread t ≠ .growing → th ≠ .growing →
      Books max ({ s with client := client, nextClient := n }.setThread t th) :=
    fun _ _ ht hth => ⟨h.split, h.nodup, h.bound, h.closed, h.pending.move ht hth⟩
  cases a with
  | reserve t =>
    unfold Slots.step at hstep
    dsimp only at hstep
    split at hstep
    · next pc rest hav =>
      obtain ⟨⟨hidle, -⟩, rfl⟩ := of_guard hstep
      have hnot : pc ∉ s.lent := fun hpc => h.disjoint (hav ▸ mem_cons_self) hpc
      refine ⟨?_, h.nodup, h.bound, h.closed, h.pending.move (by simp [hidle]) nofun⟩
      have hsplit := h.split
      rw [hav] at hsplit
      simp only [setThread, insert_of_not_mem hnot]
      exact perm_middle.trans hsplit
    · cases hstep
  | book t =>
    obtain ⟨⟨hidle, hopen, -, hroom⟩, rfl⟩ := of_guard hstep
    refine ⟨h.split, h.nodup, ?_, h.closed, h.pending.book (by simp [hidle])⟩
    simp only [setThread]
    omega
  | giveUp t =>
    obtain ⟨⟨hidle, -⟩, rfl⟩ := of_guard hstep
    exact hmove s.client s.nextClient (by simp [hidle]) nofun
  | grow t =>
    obtain ⟨hgrow, hcommit⟩ := of_guard_then hstep
    have hbound := h.bound
    split at hcommit <;> cases hcommit
    · obtain ⟨hpos, hpending⟩ := @Pending.settle _ _ _ .failed h.pending hgrow nofun
      refine ⟨h.split, h.nodup, ?_, h.closed, hpending⟩
      simp only [setThread]
      omega
    · next hopen =>
      obtain ⟨hpos, hpending⟩ := @Pending.settle _ _ _ (.holds s.nextClient) h.pending hgrow nofun
      have hnew : s.nextSlot ∉ s.all := fun hin => Nat.lt_irrefl _ (hd.fresh _ hin)
      refine ⟨?_, ?_, ?_, fun hc => absurd hc hopen, hpending⟩
      · simp only [setThread, insert_of_not_mem (fun hin => hnew (h.lent_subset hin))]
        exact perm_middle.trans
          ((h.split.cons _).trans (perm_append_singleton _ _).symm)
      · exact h.nodup.append (nodup_singleton _) (by simpa using hnew)
      · simp only [setThread, length_append, length_singleton]
        omega
  | growFail t =>
    obtain ⟨hgrow, rfl⟩ := of_guard hstep
    obtain ⟨hpos, hpending⟩ := @Pending.settle _ _ _ .failed h.pending hgrow nofun
    have hbound := h.bound
    refine ⟨h.split, h.nodup, ?_, h.closed, hpending⟩
    simp only [setThread]
    omega
  | handOut t =>
    obtain ⟨pc, hpc, rfl⟩ := Option.map_eq_some_iff.mp hstep
    split <;> exact hmove s.client s.nextClient (by simp [thread_of_reserved hpc]) nofun
  | replace t =>
    obtain ⟨pc, hpc, rfl⟩ := Option.map_eq_some_iff.mp hstep
    split <;> exact hmove _ _ (by simp [thread_of_reserved hpc]) nofun
  | drop t =>
    obtain ⟨pc, hpc, rfl⟩ := Option.map_eq_some_iff.mp hstep
    have hcheck := thread_of_reserved hpc
    have hr := h.remove pc
    rw [erase_of_not_mem (fun hin => hok pc hin hcheck)] at hr
    exact ⟨hr.split, hr.nodup, hr.bound, hr.closed, h.pending.move (by simp [hcheck]) nofun⟩
  | release t c destroy =>
    have hr := h.giveBack c destroy
    cases hstep
    split
    · next hholds =>
      refine ⟨hr.split, hr.nodup, hr.bound, hr.closed, hr.pending.move ?_ nofun⟩
      simp [(s.giveBack_fewer c destroy).thread, hholds]
    · exact hr
  | reap stale =>
    cases hstep
    split
    · exact h
    · exact (h.reap stale).1
  | close =>
    cases hstep
    have hbound := h.bound
    exact ⟨.nil, nodup_nil, by simp only [length_nil]; omega, fun _ => rfl, h.pending⟩

end Books

end Slots

open Slots

theorem Slots.kept {min max : Nat} (hmin : min ≤ max) {as : List SlotAction}
    (hrun : Run (Slots.step min max) DropsLent (Slots.start min) as s) :
    s.Distinct ∧ Books max s :=
  hrun.invariant (I := fun s => s.Distinct ∧ Books max s)
    (fun _ _ _ h hok hs => ⟨h.1.step hs, h.2.step h.1 hok hs⟩)
    ⟨Distinct.start min, Books.start hmin⟩

/-- **The accounts balance** in every run in which no acquire drops a slot that a surplus
    release has made available: the slots are the available and the lent ones, each once;
    with the pending creations they stay below the maximum; a closed pool has none; nothing
    is pending without a thread in `_grow`; and a reaper step takes no lent slot and leaves
    the minimum. -/
theorem accounts_balance {min max : Nat} (hmin : min ≤ max) {as : List SlotAction} {s : Slots}
    (hrun : Run (Slots.step min max) DropsLent (Slots.start min) as s) :
    (List.Disjoint s.available s.lent ∧ (∀ pc, pc ∈ s.all ↔ pc ∈ s.available ∨ pc ∈ s.lent) ∧
        s.all.Nodup ∧ s.all.length = s.available.length + s.lent.length) ∧
      s.all.length + s.creating ≤ max ∧
      (s.closed = true → s.all = [] ∧ s.available = [] ∧ s.lent = []) ∧
      ((∀ t, s.thread t ≠ .growing) → s.creating = 0) ∧
      ∀ stale s', s.step min max (.reap stale) = some s' →
        s'.lent = s.lent ∧ (∀ pc ∈ s.lent, pc ∈ s'.all) ∧
          (s'.available = s.available ∨ min ≤ s'.available.length) := by
  obtain ⟨hd, h⟩ := Slots.kept hmin hrun
  refine ⟨⟨h.disjoint, ?_, h.nodup, ?_⟩, h.bound, ?_, ?_, ?_⟩
  · intro pc
    rw [← h.split.mem_iff, mem_append]
  · rw [← h.split.length_eq, length_append]
  · intro hc
    have hall := h.closed hc
    exact ⟨hall, append_eq_nil_iff.mp (hall ▸ h.split).eq_nil⟩
  · intro hnone
    obtain ⟨ts, -, hlen, hmem⟩ := h.pending
    cases ts with
    | nil => exact hlen.symm
    | cons t _ => exact absurd ((hmem t).mp mem_cons_self) (hnone t)
  intro stale s' hstep
  have hs' := h.step hd (a := .reap stale) trivial hstep
  have hlent : s'.lent = s.lent ∧ (s'.available = s.available ∨ min ≤ s'.available.length) := by
    cases hstep
    split
    · exact ⟨rfl, .inl rfl⟩
    · exact (h.reap stale).2
  exact ⟨hlent.1, fun pc hpc => hs'.lent_subset (hlent.1 ▸ hpc), hlent.2⟩

instance (s : Slots) (a : SlotAction) : Decidable (s.DropsLent a) := by
  unfold DropsLent
  split <;> infer_instance

/-- A failed health check, a release that comes twice, and a reaper step. -/
def twiceRun : List SlotAction :=
  [.book 0, .grow 0, .release 0 0 false, .reserve 1, .drop 1, .book 2, .grow 2,
    .release 2 1 false, .release 2 1 false, .reap [1]]

theorem accounts_balance_twice : ∃ s, Run (Slots.step 0 2) DropsLent (Slots.start 0) twiceRun s ∧
    s.nextSlot = 2 ∧ s.all.length + s.creating ≤ 2 := by
  obtain ⟨s, hs, hslot⟩ := Option.map_eq_some_iff.mp
    (show (exec (guarded (Slots.step 0 2) DropsLent) (Slots.start 0) twiceRun).map Slots.nextSlot =
      some 2 by decide +kernel)
  exact ⟨s, .of_guarded hs, hslot, (accounts_balance (by decide) (.of_guarded hs)).2.1⟩

/-- **A slot is lost from the accounts.**  A release that comes twice makes a slot available
    that another acquire is checking; that acquire gives the slot up, and the pool keeps
    available what is none of its slots. -/
theorem accounts_surplus :
    (exec (Slots.step 0 1) (Slots.start 0) [.book 0, .grow 0, .release 0 0 false, .reserve 1,
      .release 0 0 false, .drop 1]).map (fun s => (s.all, s.available)) = some ([], [0]) := by
  decide +kernel

/-! ## §4. Holders. -/

/-- The thread has the client, or is checking it. -/
def Thread.uses (client : Nat → Nat) (c : Nat) : Thread → Prop
  | .holds d => d = c
  | .checking pc => client pc = c
  | _ => False

namespace Slots

def uses (s : Slots) (t c : Nat) : Prop := (s.thread t).uses s.client c

/-- A client has one user, or it rests with its slot. -/
structure Exclusive (s : Slots) : Prop where
  single : ∀ t u c, s.uses t c → s.uses u c → t = u
  rest : ∀ pc ∈ s.available, ∀ t, ¬ s.uses t (s.client pc)
  known : ∀ t c, s.uses t c → c < s.nextClient
  reserved : ∀ t pc, s.thread t = .checking pc → pc < s.nextSlot

section Exclusive

variable {min max t c : Nat} {s r s' : Slots} {th : Thread}

/-- A thread stops using clients, or goes on with its own. -/
theorem Exclusive.move (h : s.Exclusive) (hthread : r.thread = update s.thread t th)
    (hth : ∀ c, th.uses s.client c → s.uses t c)
    (hcheck : ∀ pc, th = .checking pc → s.thread t = .checking pc)
    (hav : r.available ⊆ s.available) (hclient : r.client = s.client)
    (hnext : s.nextClient ≤ r.nextClient) (hslot : r.nextSlot = s.nextSlot) : r.Exclusive := by
  have huses : ∀ u c, r.uses u c → s.uses u c := by
    intro u c hu
    rw [uses, hthread, hclient, update_apply] at hu
    split at hu
    · next heq => exact heq ▸ hth c hu
    · exact hu
  refine ⟨fun u v c hu hv => h.single u v c (huses u c hu) (huses v c hv), ?_, ?_, ?_⟩
  · intro pc hpc u hu
    exact h.rest pc (hav hpc) u (hclient ▸ huses u _ hu)
  · exact fun u c hu => Nat.lt_of_lt_of_le (h.known u c (huses u c hu)) hnext
  intro u pc hu
  rw [hthread, update_apply] at hu
  split at hu
  · exact hslot ▸ h.reserved t pc (hcheck pc hu)
  · exact hslot ▸ h.reserved u pc hu

/-- A thread starts using a client that nobody else uses. -/
theorem Exclusive.take (h : s.Exclusive) (hthread : r.thread = update s.thread t th)
    (hth : ∀ d, th.uses r.client d → d = c)
    (hrest : ∀ u d, u ≠ t → (s.thread u).uses r.client d → s.uses u d)
    (hfree : ∀ u, u ≠ t → ¬ s.uses u c)
    (hav : ∀ pc ∈ r.available, pc ∈ s.available ∧ r.client pc = s.client pc ∧ s.client pc ≠ c)
    (hc : c < r.nextClient) (hnext : s.nextClient ≤ r.nextClient)
    (hcheck : ∀ pc, th = .checking pc → pc < s.nextSlot) (hslot : s.nextSlot ≤ r.nextSlot) :
    r.Exclusive := by
  have hown : ∀ d, r.uses t d → d = c := by
    intro d hd
    rw [uses, hthread, update_self] at hd
    exact hth d hd
  have hothers : ∀ u d, u ≠ t → r.uses u d → s.uses u d := by
    intro u d hut hd
    rw [uses, hthread, update_of_ne hut] at hd
    exact hrest u d hut hd
  refine ⟨?_, ?_, ?_, ?_⟩
  · intro u v d hu hv
    have := h.single u v d
    grind
  · intro pc hpc u hu
    obtain ⟨hin, hsame, hne⟩ := hav pc hpc
    rw [hsame] at hu
    by_cases hut : u = t
    · exact hne (hown _ (hut ▸ hu))
    · exact h.rest pc hin u (hothers u _ hut hu)
  · intro u d hu
    by_cases hut : u = t
    · exact hown d (hut ▸ hu) ▸ hc
    · exact Nat.lt_of_lt_of_le (h.known u d (hothers u d hut hu)) hnext
  intro u pc hu
  rw [hthread, update_apply] at hu
  split at hu
  · exact Nat.lt_of_lt_of_le (hcheck pc hu) hslot
  · exact Nat.lt_of_lt_of_le (h.reserved u pc hu) hslot

/-- `release` touches only slots of the client. -/
theorem giveBack_others {destroy : Bool} {pc : Nat} (hpc : s.client pc ≠ c) :
    (pc ∈ (s.giveBack c destroy).lent ↔ pc ∈ s.lent) ∧
      (pc ∈ (s.giveBack c destroy).available ↔ pc ∈ s.available) ∧
      (pc ∈ (s.giveBack c destroy).all ↔ pc ∈ s.all) := by
  unfold giveBack
  split
  · simp
  split
  · simp
  · next qc hfind =>
    have hqc : pc ≠ qc := by
      rintro rfl
      exact hpc (by simpa using List.find?_some hfind)
    split
    · simp [mem_erase_of_ne hqc]
    · split <;> simp [mem_erase_of_ne hqc, hqc]

/-- Holders give back what they have, and again only what nobody has taken since. -/
def Apart (s : Slots) : SlotAction → Prop
  | .release t c _ => s.thread t = .holds c ∨ s.thread t = .gave c ∧ ∀ u, ¬ s.uses u c
  | _ => True

theorem Exclusive.release {destroy : Bool} (h : s.Exclusive)
    (hok : s.Apart (.release t c destroy))
    (hstep : s.step min max (.release t c destroy) = some s') : s'.Exclusive := by
  obtain ⟨-, -, hthread, hclient, hnext, hslot⟩ := s.giveBack_fewer c destroy
  -- Afterwards nobody uses the client.
  have huses : s'.client = s.client ∧ s'.nextClient = s.nextClient ∧ s'.nextSlot = s.nextSlot ∧
      s'.available = (s.giveBack c destroy).available ∧
      (∀ u d, s'.uses u d → s.uses u d ∧ d ≠ c) ∧
      ∀ u pc, s'.thread u = .checking pc → s.thread u = .checking pc := by
    cases hstep
    split
    · next hholds =>
      refine ⟨hclient, hnext, hslot, rfl, ?_, ?_⟩
      · intro u d hu
        simp only [uses, setThread, hthread, hclient, update_apply] at hu
        split at hu
        · exact absurd hu id
        · next hut =>
          refine ⟨hu, ?_⟩
          rintro rfl
          exact hut (h.single u t d hu (by simp [uses, hholds, Thread.uses]))
      · intro u pc hu
        simp only [setThread, hthread, update_apply] at hu
        split at hu
        · cases hu
        · exact hu
    · next hholds =>
      refine ⟨hclient, hnext, hslot, rfl, ?_, fun u pc hu => hthread ▸ hu⟩
      intro u d hu
      rw [uses, hthread, hclient] at hu
      refine ⟨hu, ?_⟩
      rintro rfl
      exact (hok.resolve_left hholds).2 u hu
  obtain ⟨hclient, hnext, hslot, hav, huses, hcheck⟩ := huses
  refine ⟨fun u v d hu hv => h.single u v d (huses u d hu).1 (huses v d hv).1, ?_,
    fun u d hu => hnext ▸ h.known u d (huses u d hu).1,
    fun u pc hu => hslot ▸ h.reserved u pc (hcheck u pc hu)⟩
  intro pc hpc u hu
  rw [hclient] at hu
  rw [hav, (giveBack_others (huses u _ hu).2).2.1] at hpc
  exact h.rest pc hpc u (huses u _ hu).1

theorem Exclusive.start (min : Nat) : (Slots.start min).Exclusive where
  single := nofun
  rest := fun _ _ _ => id
  known := nofun
  reserved := nofun

theorem Exclusive.step (h : s.Exclusive) (hd : s.Distinct) (hb : Books max s) (hok : s.Apart a)
    (hstep : s.step min max a = some s') : s'.Exclusive := by
  have hknown : ∀ pc ∈ s.available, s.client pc < s.nextClient :=
    fun pc hpc => hd.known pc (hb.available_subset hpc)
  have hnew : ∀ u, ¬ s.uses u s.nextClient := fun u hu => Nat.lt_irrefl _ (h.known u _ hu)
  cases a with
  | reserve t =>
    unfold Slots.step at hstep
    dsimp only at hstep
    split at hstep
    · next pc rest hav =>
      obtain ⟨-, rfl⟩ := of_guard hstep
      have hin : pc ∈ s.available := hav ▸ mem_cons_self
      have hall := hb.available_subset hin
      have hnodup := (hb.split.nodup_iff.mpr hb.nodup).of_append_left
      rw [hav] at hnodup
      refine h.take (t := t) rfl (fun d hu => hu.symm) (fun _ _ _ hu => hu)
        (fun u _ => h.rest pc hin u) ?_ (hd.known pc hall) le_rfl ?_ le_rfl
      · intro qc hqc
        have hqin : qc ∈ s.available := hav ▸ mem_cons_of_mem pc hqc
        refine ⟨hqin, rfl, fun heq => ?_⟩
        have hsame := hd.apart qc (hb.available_subset hqin) pc hall heq
        exact (nodup_cons.mp hnodup).1 (hsame ▸ hqc)
      · rintro _ ⟨⟩
        exact hd.fresh pc hall
    · cases hstep
  | book t | giveUp t | growFail t =>
    obtain ⟨-, rfl⟩ := of_guard hstep
    exact h.move rfl nofun nofun (List.Subset.refl _) rfl le_rfl rfl
  | grow t =>
    obtain ⟨-, hgrow⟩ := of_guard_then hstep
    split at hgrow <;> cases hgrow
    · exact h.move rfl nofun nofun (List.Subset.refl _) rfl (Nat.le_succ _) rfl
    refine h.take (t := t) rfl (fun d hu => hu.symm) ?_ (fun u _ => hnew u) ?_
      (Nat.lt_succ_self _) (Nat.le_succ _) nofun (Nat.le_succ _)
    · intro u d hut hu
      have hres := h.reserved u
      simp only [setThread] at hu
      unfold uses
      cases hth : s.thread u <;> simp_all [Thread.uses, update_apply]
      grind
    intro pc hpc
    have := hknown pc hpc
    have := hd.fresh pc (hb.available_subset hpc)
    refine ⟨hpc, update_of_ne ?_ _ _, ?_⟩ <;> omega
  | handOut t =>
    obtain ⟨pc, hpc, rfl⟩ := Option.map_eq_some_iff.mp hstep
    have hcheck := thread_of_reserved hpc
    split
    · exact h.move rfl nofun nofun (List.Subset.refl _) rfl le_rfl rfl
    refine h.move rfl ?_ nofun (List.Subset.refl _) rfl le_rfl rfl
    intro c hc
    simpa [uses, hcheck, Thread.uses] using hc
  | replace t =>
    obtain ⟨pc, hpc, rfl⟩ := Option.map_eq_some_iff.mp hstep
    have hcheck := thread_of_reserved hpc
    have huse : s.uses t (s.client pc) := by simp [uses, hcheck, Thread.uses]
    split
    · exact h.move rfl nofun nofun (List.Subset.refl _) rfl (Nat.le_succ _) rfl
    refine h.take (t := t) rfl (fun d hu => hu.symm) ?_ (fun u _ => hnew u) ?_
      (Nat.lt_succ_self _) (Nat.le_succ _) nofun le_rfl
    · intro u d hut hu
      have hother : s.thread u ≠ .checking pc := fun hu =>
        hut (h.single u t _ (by simp [uses, hu, Thread.uses]) huse)
      simp only [setThread] at hu
      unfold uses
      cases hth : s.thread u <;> simp_all [Thread.uses]
    intro qc hqc
    have hne : qc ≠ pc := fun heq => h.rest qc hqc t (heq ▸ huse)
    exact ⟨hqc, update_of_ne hne _ _, Nat.ne_of_lt (hknown qc hqc)⟩
  | drop t =>
    obtain ⟨pc, -, rfl⟩ := Option.map_eq_some_iff.mp hstep
    exact h.move rfl nofun nofun (List.Subset.refl _) rfl le_rfl rfl
  | release t c destroy => exact h.release hok hstep
  | reap stale =>
    cases hstep
    split
    · exact h
    obtain ⟨hf, hav⟩ := unshelve_fewer (s.reaped min stale) s
    exact h.move (t := 0) (hf.thread.trans (update_eq_self 0 s.thread).symm)
      (fun _ => id) (fun _ => id) hav hf.client (Nat.le_of_eq hf.nextClient.symm) hf.nextSlot
  | close =>
    cases hstep
    exact h.move (t := 0) (update_eq_self 0 s.thread).symm (fun _ => id) (fun _ => id)
      (nil_subset _) rfl le_rfl rfl

/-- Who gives back again only what nobody has taken, leaves no slot both lent and dropped. -/
theorem Exclusive.dropsLent (h : s.Exclusive) : s.DropsLent a := by
  cases a with
  | drop t =>
    intro pc hpc hcheck
    exact h.rest pc hpc t (by simp [uses, hcheck, Thread.uses])
  | _ => trivial

end Exclusive

end Slots

/-- **One holder for a client**, in every run in which holders give back what they have, as
    often as they like while nobody else has taken it; and a surplus release leaves all slots
    as they are whose clients others have or are checking. -/
theorem lent_once {min max : Nat} (hmin : min ≤ max) {as : List SlotAction} {s : Slots}
    (hrun : Run (Slots.step min max) Apart (Slots.start min) as s) :
    (∀ t u c, s.thread t = .holds c → s.thread u = .holds c → t = u) ∧
      ∀ t c destroy s', s.thread t = .gave c → s.Apart (.release t c destroy) →
        s.step min max (.release t c destroy) = some s' →
        ∀ u pc, s.uses u (s.client pc) → (pc ∈ s'.lent ↔ pc ∈ s.lent) ∧
          (pc ∈ s'.available ↔ pc ∈ s.available) ∧ (pc ∈ s'.all ↔ pc ∈ s.all) := by
  obtain ⟨-, -, h⟩ := hrun.invariant (I := fun s => s.Distinct ∧ Books max s ∧ s.Exclusive)
    (fun _ _ _ h hok hs => ⟨h.1.step hs, h.2.1.step h.1 h.2.2.dropsLent hs,
      h.2.2.step h.1 h.2.1 hok hs⟩)
    ⟨Distinct.start min, Books.start hmin, Exclusive.start min⟩
  constructor
  · intro t u c ht hu
    exact h.single t u c (by simp [uses, ht, Thread.uses]) (by simp [uses, hu, Thread.uses])
  intro t c destroy s' hgave hok hstep u pc hu
  have hfree : ∀ u, ¬ s.uses u c := by
    rcases hok with hholds | ⟨-, hfree⟩
    · rw [hgave] at hholds
      cases hholds
    · exact hfree
  have hne : s.client pc ≠ c := fun heq => hfree u (heq ▸ hu)
  simp only [Slots.step, hgave, reduceCtorEq, if_false, Option.some.injEq] at hstep
  exact hstep ▸ giveBack_others hne

/-- A client that is given back twice, and then taken by another thread. -/
theorem lent_once_twice : ∃ s, Run (Slots.step 1 1) Apart (Slots.start 1)
      [.reserve 0, .handOut 0, .release 0 0 false, .release 0 0 false, .reserve 1, .handOut 1] s ∧
    s.thread 1 = .holds 0 ∧ ∀ u, s.thread u = .holds 0 → u = 1 := by
  have hrun : Run (Slots.step 1 1) Apart (Slots.start 1)
      [.reserve 0, .handOut 0, .release 0 0 false, .release 0 0 false, .reserve 1, .handOut 1] _ :=
    .cons trivial rfl (.cons trivial rfl (.cons (.inl rfl) rfl (.cons (.inr ⟨rfl, by
      intro u
      rcases u with _ | u <;> exact id⟩) rfl (.cons trivial rfl (.cons trivial rfl (.nil _))))))
  exact ⟨_, hrun, rfl, fun u hu => (lent_once (by decide) hrun).1 u 1 0 hu rfl⟩

/-- **One client is lent twice.**  A thread gives back again what another has taken since, and
    a third thread gets it too. -/
theorem lent_twice :
    (exec (Slots.step 1 1) (Slots.start 1) [.reserve 0, .handOut 0, .release 0 0 false, .reserve 1,
      .handOut 1, .release 0 0 false, .reserve 2, .handOut 2]).map
      (fun s => (s.thread 1, s.thread 2)) = some (.holds 0, .holds 0) := by
  decide +kernel

/-! ## §5. A closed pool. -/

/-- The pool is closed and has no slots; who holds a client held it when the threads stood so. -/
def Shut (thread : Nat → Thread) (s : Slots) : Prop :=
  s.closed = true ∧ s.all = [] ∧ s.available = [] ∧ s.lent = [] ∧
    ∀ t c, s.thread t = .holds c → thread t = .holds c

theorem Shut.step {thread : Nat → Thread} {min max : Nat} {s' : Slots} (h : Shut thread s)
    (hstep : s.step min max a = some s') : Shut thread s' := by
  obtain ⟨hclosed, hall, hav, hlent, hheld⟩ := h
  have hset : ∀ (r : Slots) t th u, (r.setThread t th).thread u = if u = t then th else r.thread u :=
    fun _ _ _ _ => update_apply ..
  -- nobody is let in: a thread fails or gives back, and that is all
  cases a with
  | close =>
    cases hstep
    exact ⟨rfl, rfl, rfl, rfl, hheld⟩
  | _ =>
    simp [Slots.step, giveBack, hclosed, hall, hav, hlent] at hstep <;> grind [Shut, setThread]

/-- **A closed pool stays closed.**  Whatever follows `close`, releases, health checks and
    factory calls in flight included, no slot comes back, and no acquire, pending or later,
    gets a client. -/
theorem closed_for_good (min max : Nat) (as : List SlotAction) (s s' : Slots)
    (hrun : Run (Slots.step min max) (fun _ _ => True) s (.close :: as) s') :
    Shut s.thread s' := by
  rcases hrun with _ | ⟨-, hclose, hrest⟩
  cases hclose
  exact hrest.invariant (fun _ _ _ h _ => h.step) (⟨rfl, rfl, rfl, rfl, fun _ _ => id⟩ : Shut _ _)

/-- A health check comes too late. -/
theorem closed_for_good_late : ∃ s, exec (Slots.step 1 1) (.start 1) [.reserve 0] = some s ∧
    ∃ s', exec (Slots.step 1 1) s [.close, .handOut 0] = some s' ∧ Shut s.thread s' :=
  ⟨_, rfl, _, rfl, closed_for_good 1 1 [.handOut 0] _ _ (.of_exec rfl)⟩

end StClickHouse.Python
