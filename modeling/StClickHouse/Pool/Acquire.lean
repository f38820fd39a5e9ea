/-
  StClickHouse.Pool.Acquire
  **ACQUIRING A SLOT, AND LETTING GO OF IT HALFWAY.**

  `SimplePool::get` (`pool.rs`): a sweep over the slots, the wait for one, and what is
  done with the connection found there: connected, pinged or replaced.  Each await is a
  state in which the caller may drop the future; the slot then keeps what it holds.

      get_cleanly — as long as no future is dropped between a liveness ping and the
                    answer to it, a slot nobody holds is empty or at rest
      droppedPing_owed — one that is
-/
import StClickHouse.Lib.Runs
import StClickHouse.Wire.Limits

namespace StClickHouse

/-! ## §1. Connections and slots. -/

/-- A connection, as the pool sees it: `Connection` of `pool.rs`, and what has been
asked of it.  Times are in milliseconds. -/
structure Conn where
  createdAt : Nat
  lastUsedAt : Nat
  configGeneration : Nat
  responseInFlight : Bool
  useChunkedSend : Bool
  /-- What has been written of a packet that is not yet complete. -/
  unfinished : List UInt8
  /-- Replies asked for that have not been read. -/
  owed : Nat
  deriving Repr, DecidableEq

/-- At rest: the outbound stream ends at a packet boundary, and no reply is
outstanding. -/
def Conn.AtRest (c : Conn) : Prop := c.unfinished = [] ∧ c.owed = 0

instance (c : Conn) : Decidable c.AtRest := inferInstanceAs (Decidable (_ ∧ _))

/-- The Ping of `is_connection_alive` on the wire (`write_packet`). -/
def Conn.pingBytes (c : Conn) : List UInt8 :=
  if c.useChunkedSend then [1, 0, 0, 0] ++ [4] ++ [0, 0, 0, 0] else [4]

/-- Why a connection is replaced. -/
inductive Cause where
  /-- `connection_expired` or `connection_config_stale`. -/
  | old
  /-- `is_connection_alive` answered no. -/
  | notAlive
  deriving DecidableEq

/-- Where an acquire stands in `get`; all but the first and the last two are awaits. -/
inductive Acquire where
  | idle
  /-- All slots are busy: waiting for the assigned one. -/
  | waiting (slot : Nat)
  /-- Connecting an empty slot. -/
  | connecting (slot : Nat)
  /-- Writing the Ping; the bytes still to be written. -/
  | pinging (slot : Nat) (rest : List UInt8)
  /-- Flushing it. -/
  | flushing (slot : Nat)
  /-- Waiting a second at most for the Pong. -/
  | ponging (slot : Nat)
  /-- Reconnecting a slot that still holds its old connection. -/
  | replacing (slot : Nat) (cause : Cause)
  /-- The guard has been returned. -/
  | holding (slot : Nat)
  | failed (e : Error)
  deriving DecidableEq

/-- The slot whose lock the acquire has. -/
def Acquire.slot : Acquire → Option Nat
  | .idle | .waiting _ | .failed _ => none
  | .connecting i | .pinging i _ | .flushing i | .ponging i | .replacing i _ | .holding i => some i

/-- A liveness ping is on its way, or has failed on a connection that is still in the
slot. -/
def Acquire.pinged : Acquire → Bool
  | .pinging _ _ | .flushing _ | .ponging _ | .replacing _ .notAlive => true
  | _ => false

/-- The part of `SimplePool` that acquiring reads and writes, and the acquires in
progress. -/
structure SlotPool where
  /-- `slots.len()`. -/
  count : Nat
  slots : Nat → Option Conn
  /-- Who has the lock of a slot. -/
  owner : Nat → Option Nat
  nextIdx : Nat
  /-- `Duration::ZERO` stands for no limit. -/
  ttl : Nat
  pingIdleThreshold : Nat
  configGeneration : Nat
  now : Nat
  acquires : Nat → Acquire

namespace SlotPool

/-! ## §2. The steps of `get`. -/

variable (p : SlotPool)

/-- `connection_expired`. -/
def connectionExpired (c : Conn) : Bool :=
  p.ttl != 0 && p.now - c.createdAt ≥ p.ttl

/-- `connection_config_stale`. -/
def connectionConfigStale (c : Conn) : Bool :=
  c.configGeneration != p.configGeneration

/-- `should_liveness_ping`. -/
def shouldLivenessPing (idle threshold : Nat) : Bool := idle ≥ threshold

/-- The first free slot from `idx` on, once around. -/
def sweep (idx : Nat) : Option Nat :=
  ((List.range p.count).map fun i => (idx + i) % p.count).find? fun i => (p.owner i).isNone

/-- The pool with acquire `t` at `a`. -/
def move (t : Nat) (a : Acquire) : SlotPool :=
  { p with acquires := fun u => if u = t then a else p.acquires u }

/-- The pool with another content in slot `i`. -/
def put (i : Nat) (c : Option Conn) : SlotPool :=
  { p with slots := fun j => if j = i then c else p.slots j }

/-- The pool with another owner of slot `i`. -/
def own (i : Nat) (t : Option Nat) : SlotPool :=
  { p with owner := fun j => if j = i then t else p.owner j }

/-- What `get` does with the slot it has locked, up to its next await. -/
def examine (t i : Nat) : SlotPool :=
  match p.slots i with
  | none => p.move t (.connecting i)
  | some c =>
    if p.connectionExpired c || p.connectionConfigStale c then p.move t (.replacing i .old)
    else if shouldLivenessPing (p.now - c.lastUsedAt) p.pingIdleThreshold then
      p.move t (.pinging i c.pingBytes)
    else p.move t (.holding i)

/-- The sweep from the assigned slot: the first free one, or the wait for the assigned. -/
def assign (t idx : Nat) : SlotPool :=
  match p.sweep idx with
  | some i => (p.own i (some t)).examine t i
  | none => p.move t (.waiting idx)

/-- A step of an acquire, of what it awaits, of a guard's holder, or of the clock. -/
inductive Action where
  | tick (ms : Nat)
  /-- `bump_config_generation`. -/
  | bump
  /-- `get` is called: the sweep. -/
  | enter (t : Nat)
  /-- The awaited lock is granted. -/
  | granted (t : Nat)
  /-- `acquire_timeout` runs out. -/
  | timedOut (t : Nat)
  /-- `connect_round_robin` returns; an error is given. -/
  | connected (t : Nat) (err : Option Error) (chunked : Bool)
  /-- Some bytes of the Ping are written. -/
  | wrote (t n : Nat)
  /-- The write or the flush fails. -/
  | unwritable (t : Nat)
  | flushed (t : Nat)
  /-- The byte that answers the Ping. -/
  | answered (t : Nat) (pkt : UInt8)
  /-- The read fails, or a second has passed. -/
  | unanswered (t : Nat)
  /-- The caller drops the future at an await of `get`. -/
  | drop (t : Nat)
  /-- The holder of the guard uses the connection, or takes it out. -/
  | use (t : Nat) (c : Option Conn)
  /-- `PoolGuard::drop`. -/
  | release (t : Nat)

/-- What a connect that has returned puts in the slot. -/
def fresh (chunked : Bool) : Conn where
  createdAt := p.now
  lastUsedAt := p.now
  configGeneration := p.configGeneration
  responseInFlight := false
  useChunkedSend := chunked
  unfinished := []
  owed := 0

/-- `PoolGuard::drop`: a marked connection goes, another one is now idle. -/
def releaseConn (c : Conn) : Option Conn :=
  if c.responseInFlight then none else some { c with lastUsedAt := p.now }

/-- One step. -/
def step : Action → Option SlotPool
  | .tick ms => some { p with now := p.now + ms }
  | .bump => some { p with configGeneration := p.configGeneration + 1 }
  | .enter t =>
    match p.acquires t with
    | .idle | .failed _ =>
      if p.count = 0 then none
      else some (({ p with nextIdx := p.nextIdx + 1 } : SlotPool).assign t (p.nextIdx % p.count))
    | _ => none
  | .granted t =>
    match p.acquires t with
    | .waiting i => if p.owner i = none then some ((p.own i (some t)).examine t i) else none
    | _ => none
  | .timedOut t =>
    match p.acquires t with
    | .waiting _ => some (p.move t (.failed (.poolTimeout "no connection slot available")))
    | _ => none
  | .connected t err chunked =>
    match p.acquires t with
    | .connecting i =>
      -- a first connection goes through the checks, a second one does not
      match err with
      | none => some ((p.put i (some (p.fresh chunked))).examine t i)
      | some e => some ((p.own i none).move t (.failed e))
    | .replacing i _ =>
      match err with
      | none => some ((p.put i (some (p.fresh chunked))).move t (.holding i))
      | some e => some (((p.put i none).own i none).move t (.failed e))
    | _ => none
  | .wrote t n =>
    match p.acquires t with
    | .pinging i rest =>
      match p.slots i with
      | some c =>
        if n = 0 ∨ rest.length < n then none
        else if rest.drop n = [] then
          some ((p.put i (some { c with unfinished := [], owed := c.owed + 1 })).move t
            (.flushing i))
        else
          some ((p.put i (some { c with unfinished := c.unfinished ++ rest.take n })).move t
            (.pinging i (rest.drop n)))
      | none => none
    | _ => none
  | .unwritable t =>
    match p.acquires t with
    | .pinging i _ | .flushing i => some (p.move t (.replacing i .notAlive))
    | _ => none
  | .flushed t =>
    match p.acquires t with
    | .flushing i => some (p.move t (.ponging i))
    | _ => none
  | .answered t pkt =>
    match p.acquires t with
    | .ponging i =>
      match p.slots i with
      | some c =>
        if pkt = 4 then
          some ((p.put i (some { c with owed := c.owed - 1 })).move t (.holding i))
        else some (p.move t (.replacing i .notAlive))
      | none => none
    | _ => none
  | .unanswered t =>
    match p.acquires t with
    | .ponging i => some (p.move t (.replacing i .notAlive))
    | _ => none
  | .drop t =>
    match p.acquires t with
    | .waiting _ => some (p.move t .idle)
    | .connecting i | .pinging i _ | .flushing i | .ponging i | .replacing i _ =>
      some ((p.own i none).move t .idle)
    | _ => none
  | .use t c =>
    match p.acquires t with
    | .holding i => some (p.put i c)
    | _ => none
  | .release t =>
    match p.acquires t with
    | .holding i =>
      some (((p.put i ((p.slots i).bind p.releaseConn)).own i none).move t .idle)
    | _ => none

/-- A pool in which no acquire is in progress. -/
def Initial : Prop :=
  (∀ t, p.acquires t = .idle) ∧ (∀ i, p.owner i = none) ∧ ∀ i c, p.slots i = some c → c.AtRest

/-- **The condition on a step.**  The future is not dropped while a liveness ping is on
its way or the connection it failed on is being replaced; and the holder of a guard
lets go of an unmarked connection only at rest. -/
def Careful : Action → Prop
  | .drop t => (p.acquires t).pinged = false
  | .release t => ∀ i c, p.acquires t = .holding i → p.slots i = some c →
      c.responseInFlight = true ∨ c.AtRest
  | _ => True

/-! ## §3. What every step keeps. -/

/-- The connection of the slot is in the hands of the acquire. -/
def inHand : Acquire → Bool
  | .holding _ => true
  | a => a.pinged

/-- Locks are where the acquires are, and a connection that is not in an acquire's
hands is at rest. -/
structure Sound (p : SlotPool) : Prop where
  owned : ∀ t i, (p.acquires t).slot = some i ↔ p.owner i = some t
  atRest : ∀ i c, p.slots i = some c →
    (∀ t, p.owner i = some t → inHand (p.acquires t) = false) → c.AtRest

variable {p : SlotPool}

theorem Initial.sound (h : Initial p) : Sound p := by
  obtain ⟨hidle, hfree, hrest⟩ := h
  constructor
  · intro t i
    rw [hidle, hfree]
    exact ⟨nofun, nofun⟩
  · intro i c hc _
    exact hrest i c hc

/-- **The frame rule**: acquire `t` changes its own place, the slot it has or takes, and
nothing else. -/
theorem Sound.update {p' : SlotPool} {t i : Nat} (h : Sound p)
    (hslots : ∀ j, j ≠ i → p'.slots j = p.slots j) (howner : ∀ j, j ≠ i → p'.owner j = p.owner j)
    (hothers : ∀ u, u ≠ t → p'.acquires u = p.acquires u)
    (hmine : p.owner i = none ∨ p.owner i = some t)
    (hhere : ∀ j, (p.acquires t).slot = some j → j = i)
    (hlock : (p'.acquires t).slot = some i ∧ p'.owner i = some t ∨ (p'.acquires t).slot = none ∧ p'.owner i = none)
    (hrest : ∀ c, p'.slots i = some c → inHand (p'.acquires t) = false → c.AtRest) :
    Sound p' := by
  have hnot : ∀ u, u ≠ t → p.owner i ≠ some u := by
    intro u hu hown
    obtain hnone | hsome := hmine
    · rw [hnone] at hown
      cases hown
    rw [hsome] at hown
    cases hown
    exact hu rfl
  constructor
  · intro u j
    by_cases hu : u = t
    · subst hu
      by_cases hj : j = i
      · subst hj
        obtain ⟨hslot, hown⟩ | ⟨hslot, hown⟩ := hlock <;> simp [hslot, hown]
      rw [howner j hj, ← h.owned u j]
      constructor
      · intro hslot
        obtain ⟨hslot', _⟩ | ⟨hslot', _⟩ := hlock
        · rw [hslot'] at hslot
          cases hslot
          exact absurd rfl hj
        · rw [hslot'] at hslot
          cases hslot
      · intro hslot
        exact absurd (hhere j hslot) hj
    · rw [hothers u hu, h.owned u j]
      by_cases hj : j = i
      · subst hj
        obtain ⟨_, hown⟩ | ⟨_, hown⟩ := hlock
        · rw [hown]
          exact ⟨fun hsome => absurd hsome (hnot u hu), fun hsome => by
            cases hsome
            exact absurd rfl hu⟩
        · rw [hown]
          exact ⟨fun hsome => absurd hsome (hnot u hu), nofun⟩
      · rw [howner j hj]
  · intro j c hc hidle
    by_cases hj : j = i
    · subst hj
      obtain ⟨_, hown⟩ | ⟨hslot, _⟩ := hlock
      · exact hrest c hc (hidle t hown)
      refine hrest c hc ?_
      -- an acquire without a slot has no connection in hand
      cases hat : p'.acquires t <;> rw [hat] at hslot <;> first | rfl | cases hslot
    rw [hslots j hj] at hc
    refine h.atRest j c hc ?_
    intro u hown
    have hu : u ≠ t := by
      rintro rfl
      exact hj (hhere j ((h.owned u j).mpr hown))
    rw [← hothers u hu]
    exact hidle u ((howner j hj).trans hown)

variable {c : Option Conn}

/-- The pool after acquire `t` has put `c` in slot `i`, set its lock, and moved on. -/
theorem Sound.place {t i : Nat} {a : Acquire} {o : Option Nat} (h : Sound p)
    (hmine : p.owner i = none ∨ p.owner i = some t)
    (hhere : ∀ j, (p.acquires t).slot = some j → j = i)
    (hlock : a.slot = some i ∧ o = some t ∨ a.slot = none ∧ o = none)
    (hrest : ∀ c', c = some c' → inHand a = false → c'.AtRest) :
    Sound (((p.put i c).own i o).move t a) := by
  refine h.update (t := t) (i := i) ?_ ?_ ?_ hmine hhere ?_ ?_
  · intro j hj
    exact if_neg hj
  · intro j hj
    exact if_neg hj
  · intro u hu
    exact if_neg hu
  · simpa [move, own, put] using hlock
  · simpa [move, own, put] using hrest

theorem put_self (p : SlotPool) (i : Nat) : p.put i (p.slots i) = p := by
  have hslots : (fun j => if j = i then p.slots i else p.slots j) = p.slots :=
    funext fun j => ite_eq_right_iff.mpr fun h => by rw [h]
  rw [put, hslots]

theorem own_self (p : SlotPool) (i : Nat) : p.own i (p.owner i) = p := by
  have howner : (fun j => if j = i then p.owner i else p.owner j) = p.owner :=
    funext fun j => ite_eq_right_iff.mpr fun h => by rw [h]
  rw [own, howner]

section

variable {p : SlotPool} {t i : Nat}

variable {a : Acquire}

/-- The acquire at slot `i` puts something there and moves on, with the lock. -/
theorem Sound.put_move (h : Sound p) (hat : (p.acquires t).slot = some i) (ha : a.slot = some i)
    (hrest : ∀ c', c = some c' → inHand a = false → c'.AtRest) : Sound ((p.put i c).move t a) := by
  have hown : p.owner i = some t := (h.owned t i).mp hat
  have hplace := h.place (a := a) (c := c) (o := some t) (.inr hown)
    (fun j hj => by rw [hat] at hj; cases hj; rfl) (.inl ⟨ha, rfl⟩) hrest
  rwa [← hown, show (p.put i c).own i (p.owner i) = p.put i c from own_self (p.put i c) i] at hplace

theorem Sound.moves (h : Sound p) (hat : (p.acquires t).slot = some i) (ha : a.slot = some i)
    (hrest : ∀ c, p.slots i = some c → inHand a = false → c.AtRest) : Sound (p.move t a) := by
  have hput := h.put_move hat (c := p.slots i) ha hrest
  rwa [put_self] at hput

theorem Sound.leaves (h : Sound p) (hat : (p.acquires t).slot = some i) (ha : a.slot = none)
    (hrest : ∀ c', c = some c' → c'.AtRest) :
    Sound (((p.put i c).own i none).move t a) :=
  h.place (.inr ((h.owned t i).mp hat)) (fun j hj => by rw [hat] at hj; cases hj; rfl)
    (.inr ⟨ha, rfl⟩) fun c' hc _ => hrest c' hc

theorem Sound.waits (h : Sound p) (hat : (p.acquires t).slot = none)
    (ha : a.slot = none) : Sound (p.move t a) := by
  constructor
  · intro u j
    by_cases hu : u = t
    · subst hu
      have hnone := h.owned u j
      rw [hat] at hnone
      simpa [move, ha] using hnone
    · simpa [move, hu] using h.owned u j
  · intro j c hc hidle
    refine h.atRest j c hc ?_
    intro u hown
    have hu : u ≠ t := by
      rintro rfl
      have hslot := (h.owned u j).mpr hown
      rw [hat] at hslot
      cases hslot
    have hother := hidle u hown
    rwa [show (p.move t a).acquires u = p.acquires u from if_neg hu] at hother

theorem Sound.resting (h : Sound p) (hat : (p.acquires t).slot = some i)
    (hhand : inHand (p.acquires t) = false) {c : Conn} (hc : p.slots i = some c) : c.AtRest := by
  refine h.atRest i c hc ?_
  intro u hown
  rw [(h.owned t i).mp hat] at hown
  cases hown
  exact hhand

theorem examine_moves (p : SlotPool) (t i : Nat) :
    ∃ a : Acquire, a.slot = some i ∧ p.examine t i = p.move t a := by
  unfold examine
  repeat' split
  all_goals exact ⟨_, rfl, rfl⟩

theorem Sound.examines (h : Sound p) (hat : (p.acquires t).slot = none) (hfree : p.owner i = none) :
    Sound ((p.own i (some t)).examine t i) := by
  obtain ⟨a, ha, hmoves⟩ := examine_moves (p.own i (some t)) t i
  have hplace := h.place (a := a) (c := p.slots i) (o := some t) (t := t) (.inl hfree)
    (fun j hj => by rw [hat] at hj; cases hj) (.inl ⟨ha, rfl⟩)
    fun c hc _ => h.atRest i c hc fun u hown => by rw [hfree] at hown; cases hown
  rwa [put_self, ← hmoves] at hplace

theorem Sound.examines_fresh (h : Sound p) (hat : (p.acquires t).slot = some i) (chunked : Bool) :
    Sound ((p.put i (some (p.fresh chunked))).examine t i) := by
  obtain ⟨a, ha, hmoves⟩ := examine_moves (p.put i (some (p.fresh chunked))) t i
  rw [hmoves]
  refine h.put_move hat ha fun c hc _ => ?_
  cases hc
  exact ⟨rfl, rfl⟩

end

theorem sweep_free {idx i : Nat} (h : p.sweep idx = some i) : p.owner i = none := by
  have hfree := List.find?_some h
  simpa using hfree

theorem Sound.assigns {t idx : Nat} (h : Sound p) (hat : (p.acquires t).slot = none) :
    Sound (p.assign t idx) := by
  unfold assign
  split
  · next i hsweep => exact h.examines hat (sweep_free hsweep)
  · exact h.waits hat rfl

/-- **One step keeps the pool sound.** -/
theorem step_sound {p' : SlotPool} {act : Action} (h : Sound p) (hcareful : Careful p act)
    (hstep : p.step act = some p') : Sound p' := by
  cases act with
  | tick ms | bump =>
    cases hstep
    exact ⟨h.owned, h.atRest⟩
  | enter t =>
    have henters : (p.acquires t).slot = none →
        Sound (({ p with nextIdx := p.nextIdx + 1 } : SlotPool).assign t (p.nextIdx % p.count)) :=
      fun hat => .assigns ⟨h.owned, h.atRest⟩ hat
    rw [step] at hstep
    split at hstep
    all_goals first
      | cases hstep
      | next hat =>
        split at hstep <;> cases hstep
        exact henters (by rw [hat]; rfl)
  | granted t =>
    rw [step] at hstep
    split at hstep
    · next i hat =>
      obtain ⟨hfree, rfl⟩ := of_guard hstep
      exact h.examines (by rw [hat]; rfl) hfree
    · cases hstep
  | timedOut t =>
    rw [step] at hstep
    split at hstep <;> cases hstep
    next i hat =>
      exact h.waits (by rw [hat]; rfl) rfl
  | connected t err chunked =>
    rw [step] at hstep
    split at hstep
    · next i hat =>
      have hslot : (p.acquires t).slot = some i := by rw [hat]; rfl
      split at hstep <;> cases hstep
      · exact h.examines_fresh hslot chunked
      · next e =>
          have hleaves := h.leaves (a := .failed e) hslot rfl fun c hc =>
            h.resting hslot (by rw [hat]; rfl) hc
          rwa [put_self] at hleaves
    · next i _ hat =>
      have hslot : (p.acquires t).slot = some i := by rw [hat]; rfl
      split at hstep <;> cases hstep
      · exact h.put_move hslot rfl nofun
      · exact h.leaves hslot rfl nofun
    · cases hstep
  | wrote t n =>
    rw [step] at hstep
    split at hstep
    · next i rest hat =>
      have hslot : (p.acquires t).slot = some i := by rw [hat]; rfl
      split at hstep
      · obtain ⟨_, hstep⟩ := of_check hstep
        split at hstep <;> cases hstep <;> exact h.put_move hslot rfl nofun
      · cases hstep
    · cases hstep
  | unwritable t =>
    rw [step] at hstep
    split at hstep <;> cases hstep
    all_goals next hat => exact h.moves (by rw [hat]; rfl) rfl nofun
  | flushed t | unanswered t =>
    rw [step] at hstep
    split at hstep <;> cases hstep
    next i hat =>
      exact h.moves (by rw [hat]; rfl) rfl nofun
  | answered t pkt =>
    rw [step] at hstep
    split at hstep
    · next i hat =>
      have hslot : (p.acquires t).slot = some i := by rw [hat]; rfl
      split at hstep
      · split at hstep <;> cases hstep
        · exact h.put_move hslot rfl nofun
        · exact h.moves hslot rfl nofun
      · cases hstep
    · cases hstep
  | drop t =>
    have hlets : ∀ i, (p.acquires t).slot = some i → inHand (p.acquires t) = false →
        Sound ((p.own i none).move t .idle) := by
      intro i hslot hhand
      have hleaves := h.leaves (a := .idle) hslot rfl fun c hc => h.resting hslot hhand hc
      rwa [put_self] at hleaves
    have hpinged : (p.acquires t).pinged = false := hcareful
    rw [step] at hstep
    split at hstep
    · next hat =>
      cases hstep
      exact h.waits (by rw [hat]; rfl) rfl
    all_goals first
      | (cases hstep; done)
      | next hat =>
        cases hstep
        exact hlets _ (by rw [hat]; rfl) (by rw [hat] at hpinged ⊢; exact hpinged)
  | use t c =>
    rw [step] at hstep
    split at hstep <;> cases hstep
    next i hat =>
      refine ⟨fun u j => ?_, fun j c' hc hidle => ?_⟩
      · exact h.owned u j
      by_cases hj : j = i
      · subst hj
        have hhand := hidle t ((h.owned t j).mp (by rw [hat]; rfl))
        rw [show (p.put j c).acquires t = .holding j from hat] at hhand
        cases hhand
      · rw [show (p.put i c).slots j = p.slots j from if_neg hj] at hc
        exact h.atRest j c' hc hidle
  | release t =>
    rw [step] at hstep
    split at hstep <;> cases hstep
    next i hat =>
      refine h.leaves (by rw [hat]; rfl) rfl ?_
      intro c hc
      obtain ⟨c₀, hslot, hkept⟩ := Option.bind_eq_some_iff.mp hc
      unfold releaseConn at hkept
      split at hkept <;> cases hkept
      next hmark =>
        obtain hmarked | hrest := hcareful i c₀ hat hslot
        · exact absurd hmarked hmark
        · exact hrest

/-- **What acquires leave in the slots.**  After any run of careful steps, drops at the
awaits of `get` among them, a slot nobody holds is empty or has a connection at rest. -/
theorem get_cleanly {p p' : SlotPool} {acts : List Action} (hinit : Initial p)
    (hrun : Run step Careful p acts p') {i : Nat} {c : Conn} (hfree : p'.owner i = none)
    (hc : p'.slots i = some c) : c.AtRest := by
  have hsound : Sound p' := hrun.invariant (I := Sound)
    (fun _ _ _ h hcareful hstep => step_sound h hcareful hstep) hinit.sound
  refine hsound.atRest i c hc ?_
  intro t hown
  rw [hfree] at hown
  cases hown

/-- A connection that was last used ten seconds ago, in a pool that pings after five. -/
def idleConn : Conn := ⟨0, 0, 0, false, false, [], 0⟩

/-- A pool of one slot with that connection. -/
def idlePool : SlotPool where
  count := 1
  slots i := if i = 0 then some idleConn else none
  owner _ := none
  nextIdx := 0
  ttl := 0
  pingIdleThreshold := 5000
  configGeneration := 0
  now := 10000
  acquires _ := .idle

theorem idlePool_initial : Initial idlePool := by
  refine ⟨fun _ => rfl, fun _ => rfl, ?_⟩
  intro i c hc
  unfold idlePool at hc
  dsimp only at hc
  split at hc <;> cases hc
  exact ⟨rfl, rfl⟩

/-- The future is dropped after the Ping has been written: the slot keeps a connection
that owes a Pong.  The next acquire takes that Pong for the answer to its own Ping, and
hands out the connection with a Pong still to come. -/
theorem droppedPing_owed :
    (∃ p, exec step idlePool [.enter 0, .wrote 0 1, .flushed 0, .drop 0] = some p ∧
      p.owner 0 = none ∧ p.slots 0 = some { idleConn with owed := 1 } ∧
      ¬ Conn.AtRest { idleConn with owed := 1 }) ∧
    ∃ p, exec step idlePool [.enter 0, .wrote 0 1, .flushed 0, .drop 0, .enter 1, .wrote 1 1,
        .flushed 1, .answered 1 4] = some p ∧
      p.acquires 1 = .holding 0 ∧ p.slots 0 = some { idleConn with owed := 1 } :=
  ⟨⟨_, rfl, rfl, rfl, by decide⟩, _, rfl, rfl, rfl⟩

/-- A ping that is answered, a query, and a drop at the wait for the lock. -/
theorem get_cleanly_idlePool :
    ∃ p c, Run step Careful idlePool [.enter 0, .wrote 0 1, .flushed 0, .answered 0 4, .enter 1,
        .drop 1, .release 0] p ∧ p.owner 0 = none ∧ p.slots 0 = some c ∧ c.AtRest := by
  have hrun : ∃ p, Run step Careful idlePool [.enter 0, .wrote 0 1, .flushed 0, .answered 0 4,
        .enter 1, .drop 1, .release 0] p ∧ p.owner 0 = none ∧
      p.slots 0 = some { idleConn with lastUsedAt := 10000 } := by
    refine ⟨_, .cons trivial rfl (.cons trivial rfl (.cons trivial rfl (.cons trivial rfl
      (.cons trivial rfl (.cons rfl rfl (.cons ?_ rfl (.nil _))))))), rfl, rfl⟩
    intro i c hat hc
    cases hat
    cases hc
    exact .inr ⟨rfl, rfl⟩
  obtain ⟨p, hrun, hfree, hc⟩ := hrun
  exact ⟨p, _, hrun, hfree, hc, get_cleanly idlePool_initial hrun hfree hc⟩

end SlotPool

end StClickHouse
