/-
  StClickHouse.Pool.Addresses
  **THE ADDRESS WALK OF THE POOL.**

  `SimplePool::connect_round_robin` takes the length of the address list once and
  walks that many positions, with an await in each; `SimplePool::refresh_dns`
  replaces the list while other acquires walk (`pool.rs`).  The acquires run
  concurrently, so each lock, counter and await of the source is one step here,
  and a run is any interleaving of the steps of any number of acquires.

      connecting_safe — every connect attempt is on an address of a current or
                        earlier list, and no acquire indexes outside the list as
                        long as a refresh does not shorten it below a walk in
                        progress
      shrinkingRun_panics — a refresh that does
-/
import StClickHouse.Lib.Runs
import StClickHouse.Wire.Limits

namespace StClickHouse

open List

/-! ## §1. The pool's addresses. -/

/-- Where one acquire stands in `connect_round_robin`. -/
inductive Walk (A : Type) where
  /-- Not connecting. -/
  | idle
  /-- `connect_round_robin` has been called. -/
  | entered
  /-- The list is not empty; `refresh_dns` is next. -/
  | checked
  /-- `refresh_dns` has found the last refresh old enough. -/
  | due
  /-- Awaiting the lookup. -/
  | refreshing
  /-- Back from `refresh_dns`. -/
  | refreshed
  /-- The length `n` has been taken. -/
  | counted (n : Nat)
  /-- At position `i` of the walk of `n` positions from `start`. -/
  | walking (n start i : Nat) (lastErr : Option Error)
  /-- An address has been read from the list. -/
  | picked (n start i : Nat) (lastErr : Option Error) (addr : A)
  /-- Awaiting `connect_raw`. -/
  | connecting (n start i : Nat) (lastErr : Option Error) (addr : A)
  | connected (addr : A)
  | failed (e : Error)
  /-- An index outside the list, or a remainder by zero. -/
  | panicked
  deriving DecidableEq

/-- The part of `SimplePool` that connecting reads and writes, the walks of the
acquires in progress, and two records kept for the statements: the lists that
have been replaced and the addresses on which a connect was attempted. -/
structure AddrPool (A : Type) where
  addrs : List A
  currentAddr : Nat
  deadAddrs : A → Option Nat
  failureCounts : A → Nat
  dnsHostname : Bool
  dnsLastRefresh : Nat
  zeroConnectTimeout : Bool
  /-- Seconds. -/
  now : Nat
  walks : Nat → Walk A
  replaced : List (List A)
  attempts : List A

/-- Seconds between DNS refreshes. -/
def dnsInterval : Nat := 300

/-- `dead_addr_cooldown`, in seconds. -/
def deadAddrCooldown : Nat := 30

/-- Cooldown after the `count`-th failure in a row: doubled each time, capped. -/
def cooldown (count : Nat) : Nat :=
  min (deadAddrCooldown * if count > 1 then 2 ^ min (count - 1) 10 else 1) 300

namespace AddrPool

variable {A : Type} [DecidableEq A] (p : AddrPool A)

/-- The pool with the walk of acquire `t` at `w`. -/
def move (t : Nat) (w : Walk A) : AddrPool A :=
  { p with walks := fun u => if u = t then w else p.walks u }

/-- A step of one acquire, of the environment it awaits, or of the clock. -/
inductive Action (A : Type) where
  | tick (seconds : Nat)
  /-- A new acquire, or a reconnect. -/
  | enter (t : Nat)
  /-- `addrs.read().is_empty()` and the timeout check. -/
  | check (t : Nat)
  /-- `refresh_dns`: the hostname and the age of the last refresh. -/
  | probeDns (t : Nat)
  /-- `refresh_dns`: the time stamp. -/
  | stampDns (t : Nat)
  /-- The lookup answers; no list stands for an error. -/
  | lookup (t : Nat) (found : Option (List A))
  /-- `self.addrs.read().len()`. -/
  | count (t : Nat)
  /-- `current_addr.fetch_add(1) % n`, and expired dead entries go. -/
  | advance (t : Nat)
  /-- `addrs[idx]`. -/
  | pick (t : Nat)
  /-- Is the address marked dead? -/
  | probeDead (t : Nat)
  /-- `connect_raw` returns; an error is given. -/
  | outcome (t : Nat) (err : Option Error)

/-- `refresh_dns` writes a list that is not empty, and forgets what it knew about
addresses that are gone. -/
def replace (found : List A) : AddrPool A :=
  { p with
    addrs := found
    replaced := p.addrs :: p.replaced
    deadAddrs := fun a => if a ∈ found then p.deadAddrs a else none
    failureCounts := fun a => if a ∈ found then p.failureCounts a else 0 }

/-- Bookkeeping after a failed connect: circuit breaker and dead mark. -/
def markFailed (addr : A) : AddrPool A :=
  let count := min (p.failureCounts addr + 1) (2 ^ 32 - 1)
  { p with
    failureCounts := fun a => if a = addr then count else p.failureCounts a
    deadAddrs := fun a => if a = addr then some (p.now + cooldown count) else p.deadAddrs a }

/-- Bookkeeping after a connect. -/
def markConnected (addr : A) : AddrPool A :=
  { p with
    failureCounts := fun a => if a = addr then 0 else p.failureCounts a
    deadAddrs := fun a => if a = addr then none else p.deadAddrs a }

/-- Expired dead entries go. -/
def pruneDead : AddrPool A :=
  { p with deadAddrs := fun a => (p.deadAddrs a).filter (· > p.now) }

/-- One step. -/
def step : Action A → Option (AddrPool A)
  | .tick seconds => some { p with now := p.now + seconds }
  | .enter t =>
    match p.walks t with
    | .idle | .connected _ | .failed _ => some (p.move t .entered)
    | _ => none
  | .check t =>
    match p.walks t with
    | .entered =>
      if p.addrs = [] then some (p.move t (.failed (.config "no addresses configured")))
      else if p.zeroConnectTimeout then
        some (p.move t (.failed (.config ("connect_timeout must be greater than zero; "
          ++ "Duration::ZERO would remove the connect deadline"))))
      else some (p.move t .checked)
    | _ => none
  | .probeDns t =>
    match p.walks t with
    | .checked =>
      if p.dnsHostname ∧ p.dnsLastRefresh + dnsInterval ≤ p.now then some (p.move t .due)
      else some (p.move t .refreshed)
    | _ => none
  | .stampDns t =>
    match p.walks t with
    | .due => some ({ p with dnsLastRefresh := p.now }.move t .refreshing)
    | _ => none
  | .lookup t found =>
    match p.walks t, found with
    | .refreshing, some (a :: as) => some ((p.replace (a :: as)).move t .refreshed)
    | .refreshing, _ => some (p.move t .refreshed)
    | _, _ => none
  | .count t =>
    match p.walks t with
    | .refreshed => some (p.move t (.counted p.addrs.length))
    | _ => none
  | .advance t =>
    match p.walks t with
    | .counted n =>
      if n = 0 then some (p.move t .panicked)
      else some ({ p.pruneDead with currentAddr := (p.currentAddr + 1) % usizeBound }.move t
        (.walking n (p.currentAddr % n) 0 none))
    | _ => none
  | .pick t =>
    match p.walks t with
    | .walking n start i lastErr =>
      if i < n then
        match p.addrs[(start + i) % n]? with
        | some addr => some (p.move t (.picked n start i lastErr addr))
        | none => some (p.move t .panicked)
      else some (p.move t (.failed (lastErr.getD (.text "all addresses failed"))))
    | _ => none
  | .probeDead t =>
    match p.walks t with
    | .picked n start i lastErr addr =>
      if (p.deadAddrs addr).isSome then some (p.move t (.walking n start (i + 1) lastErr))
      else some ({ p with attempts := addr :: p.attempts }.move t
        (.connecting n start i lastErr addr))
    | _ => none
  | .outcome t err =>
    match p.walks t, err with
    | .connecting _ _ _ _ addr, none => some ((p.markConnected addr).move t (.connected addr))
    | .connecting n start i _ addr, some e =>
      some ((p.markFailed addr).move t (.walking n start (i + 1) (some e)))
    | _, _ => none

/-- A pool before its first acquire. -/
def new (addrs : List A) (dnsHostname zeroConnectTimeout : Bool) : AddrPool A where
  addrs := addrs
  currentAddr := 0
  deadAddrs := fun _ => none
  failureCounts := fun _ => 0
  dnsHostname := dnsHostname
  dnsLastRefresh := 0
  zeroConnectTimeout := zeroConnectTimeout
  now := 0
  walks := fun _ => .idle
  replaced := []
  attempts := []

/-! ## §2. Every attempt is on a listed address. -/

/-- The address is in the current list or in one that was replaced. -/
def Listed (addr : A) : Prop := ∃ l ∈ p.addrs :: p.replaced, addr ∈ l

/-- The address an acquire holds, if any. -/
def Holds (w : Walk A) (addr : A) : Prop :=
  match w with
  | .picked _ _ _ _ a | .connecting _ _ _ _ a => a = addr
  | _ => False

/-- What has been attempted, and what an acquire is about to attempt, is listed. -/
def AttemptsListed : Prop :=
  (∀ addr ∈ p.attempts, p.Listed addr) ∧ ∀ t addr, Holds (p.walks t) addr → p.Listed addr

variable {p : AddrPool A} {t : Nat} {w : Walk A}

omit [DecidableEq A] in
theorem move_listed (h : p.AttemptsListed) (hw : ∀ addr, Holds w addr → p.Listed addr) :
    (p.move t w).AttemptsListed := by
  refine ⟨h.1, fun u addr hu => ?_⟩
  by_cases hut : u = t
  · rw [show (p.move t w).walks u = w from if_pos hut] at hu
    exact hw addr hu
  · rw [show (p.move t w).walks u = p.walks u from if_neg hut] at hu
    exact h.2 u addr hu

theorem replace_listed {found : List A} (h : p.AttemptsListed) :
    (p.replace found).AttemptsListed := by
  have hkeep : ∀ addr, p.Listed addr → (p.replace found).Listed addr := by
    intro addr hl
    obtain ⟨l, hmem, haddr⟩ := hl
    exact ⟨l, mem_cons_of_mem found hmem, haddr⟩
  exact ⟨fun addr ha => hkeep addr (h.1 addr ha), fun t addr ht => hkeep addr (h.2 t addr ht)⟩

/-- **One step keeps the record.**  Only `pick` reads an address, and it reads it
from the current list. -/
theorem step_listed {p' : AddrPool A} {a : Action A} (h : p.AttemptsListed)
    (hs : step p a = some p') : p'.AttemptsListed := by
  have hplain : ∀ {t : Nat} {w : Walk A}, (∀ addr, ¬ Holds w addr) →
      (p.move t w).AttemptsListed := fun hw => move_listed h fun addr hh => absurd hh (hw addr)
  cases a <;> simp only [step] at hs
  case tick seconds =>
    cases hs
    exact h
  case enter t | check t | probeDns t | count t =>
    repeat' split at hs
    all_goals first
      | (cases hs; exact hplain fun _ => id)
      | cases hs
  case stampDns t =>
    split at hs <;> cases hs
    exact move_listed (p := { p with dnsLastRefresh := p.now }) h fun _ hh => absurd hh id
  case lookup t found =>
    split at hs <;> cases hs
    · exact move_listed (replace_listed h) fun _ hh => absurd hh id
    · exact hplain fun _ => id
  case advance t =>
    split at hs
    · split at hs <;> cases hs
      · exact hplain fun _ => id
      apply move_listed
      · exact h
      · exact fun _ hh => absurd hh id
    · cases hs
  case pick t =>
    split at hs
    · split at hs
      · split at hs <;> cases hs
        · next addr haddr =>
            -- the address has just been read from the list
            apply move_listed h
            intro b hb
            have heq : addr = b := hb
            rw [← heq]
            exact ⟨p.addrs, mem_cons_self, mem_of_getElem? haddr⟩
        · exact hplain fun _ => id
      · cases hs; exact hplain fun _ => id
    · cases hs
  case probeDead t =>
    split at hs
    · next n start i lastErr addr hw =>
      have hheld : p.Listed addr := h.2 t addr (by rw [hw]; exact rfl)
      split at hs <;> cases hs
      · exact hplain fun _ => id
      apply move_listed
      · refine ⟨?_, h.2⟩
        intro b hb
        cases hb with
        | head => exact hheld
        | tail _ hb => exact h.1 b hb
      intro b hb
      have heq : addr = b := hb
      rw [← heq]
      exact hheld
    · cases hs
  case outcome t err =>
    split at hs <;> cases hs
    · exact move_listed (p := p.markConnected _) h fun _ hh => absurd hh id
    · exact move_listed (p := p.markFailed _) h fun _ hh => absurd hh id

omit [DecidableEq A] in
theorem new_listed (addrs : List A) (dnsHostname zeroConnectTimeout : Bool) :
    (new addrs dnsHostname zeroConnectTimeout).AttemptsListed :=
  ⟨fun _ ha => absurd ha not_mem_nil, fun _ _ hh => absurd hh id⟩

/-! ## §3. No walk leaves the list. -/

/-- The length an acquire has taken and will still index by. -/
def taken : Walk A → Nat
  | .counted n | .walking n .. | .picked n .. | .connecting n .. => n
  | _ => 0

/-- **The condition on a refresh.**  The new list is at least as long as every
length that an acquire has taken. -/
def KeepsWalks (p : AddrPool A) : Action A → Prop
  | .lookup _ (some (a :: as)) => ∀ u, taken (p.walks u) ≤ (a :: as).length
  | _ => True

/-- Past the check the list is not empty, and a taken length is a positive one that
the list still has. -/
def Fits (len : Nat) : Walk A → Prop
  | .checked | .due | .refreshing | .refreshed => 0 < len
  | .counted n | .walking n .. | .picked n .. | .connecting n .. => 0 < n ∧ n ≤ len
  | .panicked => False
  | .idle | .entered | .connected _ | .failed _ => True

def WalksFit (p : AddrPool A) : Prop := ∀ t, Fits p.addrs.length (p.walks t)

omit [DecidableEq A] in
theorem move_fits (h : p.WalksFit) (hw : Fits p.addrs.length w) : (p.move t w).WalksFit := by
  intro u
  by_cases hut : u = t
  · rw [show (p.move t w).walks u = w from if_pos hut]
    exact hw
  · rw [show (p.move t w).walks u = p.walks u from if_neg hut]
    exact h u

omit [DecidableEq A] in
theorem WalksFit.at (h : p.WalksFit) (hw : p.walks t = w) : Fits p.addrs.length w := hw ▸ h t

omit [DecidableEq A] in
/-- An acquire goes on to a step that needs no more than the one it is at. -/
theorem WalksFit.next {w' : Walk A} (h : p.WalksFit) (hw : p.walks t = w)
    (hnext : Fits p.addrs.length w → Fits p.addrs.length w') :
    (p.move t w').WalksFit := move_fits h (hnext (h.at hw))

omit [DecidableEq A] in
/-- A walk fits another list that is long enough for the length it has taken. -/
theorem fits_of_taken_le {len len' : Nat} (h : Fits len w) (hlen : 0 < len')
    (htaken : taken w ≤ len') : Fits len' w := by
  cases w with
  | idle | entered | connected _ | failed _ => trivial
  | checked | due | refreshing | refreshed => exact hlen
  | counted n | walking n _ _ _ | picked n _ _ _ _ | connecting n _ _ _ _ =>
    exact ⟨h.1, htaken⟩
  | panicked => exact h

/-- **One step keeps the walks inside the list.** -/
theorem step_fits {p' : AddrPool A} {a : Action A} (h : p.WalksFit) (hok : KeepsWalks p a)
    (hs : step p a = some p') : p'.WalksFit := by
  cases a <;> simp only [step] at hs
  case tick seconds =>
    cases hs
    exact h
  case enter t =>
    split at hs
    all_goals first
      | (cases hs; exact move_fits h trivial)
      | cases hs
  case check t =>
    split at hs
    · split at hs
      · cases hs; exact move_fits h trivial
      · next hne =>
        split at hs <;> cases hs
        · exact move_fits h trivial
        · exact move_fits h (length_pos_iff.mpr hne)
    · cases hs
  case probeDns t =>
    split at hs
    · next hw =>
      split at hs <;> cases hs <;> exact h.next hw id
    · cases hs
  case stampDns t =>
    split at hs <;> cases hs
    next hw =>
      exact WalksFit.next (p := { p with dnsLastRefresh := p.now }) h hw id
  case lookup t found =>
    split at hs <;> cases hs
    · -- the list is replaced under the walks of the other acquires
      apply move_fits
      · intro u
        exact fits_of_taken_le (h u) (Nat.succ_pos _) (hok u)
      · exact Nat.succ_pos _
    · next hw _ =>
        exact h.next hw id
  case count t =>
    split at hs <;> cases hs
    next hw =>
      exact h.next hw fun hlen => ⟨hlen, le_rfl⟩
  case advance t =>
    split at hs
    · next n hw =>
      have hn := h.at hw
      rw [if_neg (show ¬ n = 0 from fun h0 => Nat.lt_irrefl 0 (h0 ▸ hn.1))] at hs
      cases hs
      exact WalksFit.next (p := { p.pruneDead with currentAddr := _ }) h hw id
    · cases hs
  case pick t =>
    split at hs
    · next n start i lastErr hw =>
      have hn := h.at hw
      have hidx : (start + i) % n < p.addrs.length :=
        Nat.lt_of_lt_of_le (Nat.mod_lt _ hn.1) hn.2
      split at hs
      · rw [List.getElem?_eq_getElem hidx] at hs
        cases hs
        exact move_fits h hn
      · cases hs; exact move_fits h trivial
    · cases hs
  case probeDead t =>
    split at hs
    · next addr hw =>
      split at hs <;> cases hs
      · exact h.next hw id
      · exact WalksFit.next (p := { p with attempts := addr :: p.attempts }) h hw id
    · cases hs
  case outcome t err =>
    split at hs <;> cases hs
    · exact move_fits (p := p.markConnected _) h trivial
    · next hw =>
        exact WalksFit.next (p := p.markFailed _) h hw id

omit [DecidableEq A] in
theorem new_fits (addrs : List A) (dnsHostname zeroConnectTimeout : Bool) :
    (new addrs dnsHostname zeroConnectTimeout).WalksFit := fun _ => trivial

/-! ## §4. Whole runs. -/

/-- **Connecting under changes of the address list.**  In every run of a new pool
every attempt is on an address of a current or earlier list; and no acquire
indexes outside the list in a run whose refreshes keep the lengths that are in
use. -/
theorem connecting_safe (addrs : List A) (dnsHostname zeroConnectTimeout : Bool)
    {as : List (Action A)} {p : AddrPool A} :
    (Run step (fun _ _ => True) (new addrs dnsHostname zeroConnectTimeout) as p →
      ∀ addr ∈ p.attempts, ∃ l ∈ p.addrs :: p.replaced, addr ∈ l) ∧
    (Run step KeepsWalks (new addrs dnsHostname zeroConnectTimeout) as p →
      ∀ t, p.walks t ≠ .panicked) := by
  constructor
  · intro hrun
    have hlisted : p.AttemptsListed := hrun.invariant (fun _ _ _ hI _ hs => step_listed hI hs)
      (new_listed addrs dnsHostname zeroConnectTimeout)
    exact hlisted.1
  intro hrun t hpanic
  have hfits : p.WalksFit := hrun.invariant (fun _ _ _ hI hok hs => step_fits hI hok hs)
    (new_fits addrs dnsHostname zeroConnectTimeout)
  have hbad : Fits p.addrs.length (p.walks t) := hfits t
  rw [hpanic] at hbad
  exact hbad

/-- One acquire has taken the length 2 and failed on the first address when
another acquire's refresh leaves one address. -/
def shrinkingRun : List (Action Nat) :=
  [.tick 299, .enter 0, .check 0, .probeDns 0, .count 0, .advance 0, .pick 0, .probeDead 0,
    .tick 1, .enter 1, .check 1, .probeDns 1, .stampDns 1, .lookup 1 (some [7]),
    .outcome 0 (some (.connectionClosed "reset")), .pick 0]

/-- The first acquire then indexes outside the list. -/
theorem shrinkingRun_panics :
    ∃ p, Run step (fun _ _ => True) (new [1, 2] true false) shrinkingRun p ∧
      p.walks 0 = .panicked := by
  have hexec : ∃ p, exec step (new [1, 2] true false) shrinkingRun = some p ∧
      p.walks 0 = .panicked := ⟨_, rfl, rfl⟩
  obtain ⟨p, hp, hpanic⟩ := hexec
  exact ⟨p, .of_exec hp, hpanic⟩

/-- The same acquires with a refresh to two addresses. -/
def steadyRun : List (Action Nat) :=
  [.tick 299, .enter 0, .check 0, .probeDns 0, .count 0, .advance 0, .pick 0, .probeDead 0,
    .tick 1, .enter 1, .check 1, .probeDns 1, .stampDns 1, .lookup 1 (some [7, 8]),
    .outcome 0 (some (.connectionClosed "reset")), .pick 0]

theorem steadyRun_keepsWalks :
    ∃ p, Run step KeepsWalks (new [1, 2] true false) steadyRun p ∧ p.attempts = [1] := by
  refine ⟨_, .cons trivial rfl <| .cons trivial rfl <| .cons trivial rfl <| .cons trivial rfl <|
    .cons trivial rfl <| .cons trivial rfl <| .cons trivial rfl <| .cons trivial rfl <|
    .cons trivial rfl <| .cons trivial rfl <| .cons trivial rfl <| .cons trivial rfl <|
    .cons trivial rfl <| .cons ?_ rfl <| .cons trivial rfl <| .cons trivial rfl <| .nil _, rfl⟩
  intro u
  match u with
  | 0 => exact Nat.le_refl 2
  | 1 | _ + 2 => exact Nat.zero_le 2

/-- The walk goes on there. -/
theorem connecting_safe_steadyRun :
    ∃ p, Run step KeepsWalks (new [1, 2] true false) steadyRun p ∧
      (∃ l ∈ p.addrs :: p.replaced, 1 ∈ l) ∧ p.walks 0 ≠ .panicked := by
  obtain ⟨p, hrun, hattempts⟩ := steadyRun_keepsWalks
  refine ⟨p, hrun, ?_, (connecting_safe [1, 2] true false).2 hrun 0⟩
  apply (connecting_safe [1, 2] true false).1 (hrun.weaken fun _ _ _ => trivial)
  rw [hattempts]
  exact mem_cons_self

end AddrPool

end StClickHouse
