/-
  StClickHouse.Lib.Socket
  **A SOCKET UNDER AN ARBITRARY SCHEDULE.**

  A socket holds the bytes the peer sends and a schedule that says what each read of it
  does: hand over some of the bytes, fail, report the end, or have nothing yet.  Past the
  end of the schedule everything has arrived.  `fill` is the loop that reads on until a
  buffer is full; it can be left at any read and resumed.
-/
import Mathlib

namespace StClickHouse

open List

/-! ## §1. The socket. -/

/-- What one read of the socket does. -/
inductive Arrival (ε : Type) where
  /-- Nothing has arrived yet. -/
  | pending
  /-- The read fails. -/
  | fault (e : ε)
  /-- The read reports the end of the stream. -/
  | eof
  /-- At most `n + 1` bytes have arrived. -/
  | ready (n : Nat)
  deriving Repr, DecidableEq

/-- The bytes still to come, and the schedule of the reads. -/
structure Socket (ε : Type) where
  wire : List UInt8
  schedule : List (Arrival ε)
  deriving Repr, DecidableEq

/-- The outcome of a read. -/
inductive Polled (ε : Type) where
  | pending
  | fault (e : ε)
  /-- The bytes handed over; none of them is the end of the stream. -/
  | bytes (bs : List UInt8)
  deriving Repr, DecidableEq

/-- The bytes a read has handed over. -/
def Polled.got {ε : Type} : Polled ε → List UInt8
  | .bytes bs => bs
  | _ => []

variable {ε : Type}

namespace Socket

/-- Nothing is left of the schedule: all input has arrived. -/
def Settled (s : Socket ε) : Prop := s.schedule = []

instance (s : Socket ε) : Decidable s.Settled :=
  match h : s.schedule with
  | [] => isTrue h
  | _ :: _ => isFalse (by unfold Settled; rw [h]; simp)

/-- One read into a buffer with the given room. -/
def read (room : Nat) (s : Socket ε) : Polled ε × Socket ε :=
  match s.schedule with
  | [] => (.bytes (s.wire.take room), { s with wire := s.wire.drop room })
  | .pending :: rest => (.pending, { s with schedule := rest })
  | .fault e :: rest => (.fault e, { s with schedule := rest })
  | .eof :: rest => (.bytes [], { s with schedule := rest })
  | .ready n :: rest =>
    (.bytes (s.wire.take (min room (n + 1))),
      { wire := s.wire.drop (min room (n + 1)), schedule := rest })

/-- A read hands over what it takes off the wire, and no more than there is room for. -/
theorem read_conserves (room : Nat) (s : Socket ε) :
    (s.read room).1.got ++ (s.read room).2.wire = s.wire ∧
      (s.read room).1.got.length ≤ room := by
  unfold read
  split
  · exact ⟨take_append_drop _ _, length_take_le _ _⟩
  · exact ⟨rfl, Nat.zero_le _⟩
  · exact ⟨rfl, Nat.zero_le _⟩
  · exact ⟨rfl, Nat.zero_le _⟩
  · refine ⟨take_append_drop _ _, ?_⟩
    exact Nat.le_trans (length_take_le _ _) (Nat.min_le_left _ _)

/-- Once everything has arrived a read hands over all there is room for. -/
theorem read_settled {s : Socket ε} (h : s.Settled) (room : Nat) :
    s.read room = (.bytes (s.wire.take room), ⟨s.wire.drop room, []⟩) := by
  cases s with
  | mk wire schedule =>
    cases h
    rfl

end Socket

/-! ## §2. Buffers that are written piece by piece. -/

/-- The buffer with the bytes written over it from a position on. -/
def overwrite (buf : List UInt8) (pos : Nat) (bs : List UInt8) : List UInt8 :=
  buf.take pos ++ bs ++ buf.drop (pos + bs.length)

@[simp] theorem overwrite_nil (buf : List UInt8) (pos : Nat) : overwrite buf pos [] = buf := by
  unfold overwrite
  simp

theorem overwrite_length {buf bs : List UInt8} {pos : Nat} (h : pos + bs.length ≤ buf.length) :
    (overwrite buf pos bs).length = buf.length := by
  unfold overwrite
  simp only [length_append, length_take, length_drop]
  omega

/-- What stands before the end of the write: the old head and the bytes written. -/
theorem take_overwrite {buf bs : List UInt8} {pos : Nat} (h : pos ≤ buf.length) :
    (overwrite buf pos bs).take (pos + bs.length) = buf.take pos ++ bs := by
  apply take_left'
  rw [length_append, length_take, Nat.min_eq_left h]

theorem overwrite_overwrite {buf as bs : List UInt8} {pos : Nat}
    (h : pos + as.length ≤ buf.length) :
    overwrite (overwrite buf pos as) (pos + as.length) bs = overwrite buf pos (as ++ bs) := by
  have hdrop : (overwrite buf pos as).drop (pos + as.length + bs.length)
      = buf.drop (pos + (as ++ bs).length) := by
    unfold overwrite
    rw [drop_append, drop_eq_nil_of_le, nil_append, drop_drop]
    · congr 1
      simp only [length_append, length_take]
      omega
    · simp only [length_append, length_take]
      omega
  rw [overwrite, hdrop, take_overwrite (by omega), overwrite, append_assoc (buf.take pos)]

/-- `Vec::resize` with zeros. -/
def resizeZero (buf : List UInt8) (len : Nat) : List UInt8 :=
  buf.take len ++ List.replicate (len - buf.length) 0

@[simp] theorem resizeZero_length (buf : List UInt8) (len : Nat) :
    (resizeZero buf len).length = len := by
  unfold resizeZero
  simp only [length_append, length_take, length_replicate]
  omega

/-! ## §3. Reading on until a buffer is full. -/

/-- A socket, and a buffer filled up to a position. -/
structure Filling (ε : Type) where
  socket : Socket ε
  buf : List UInt8
  pos : Nat

namespace Filling

/-- The loop: read into the rest of the buffer until it is full.  Nothing means that it
    is; otherwise the outcome at which the loop was left.  The end of the stream is an
    error of the caller's. -/
def fill (ended : ε) : Nat → Filling ε → Option (Polled ε) × Filling ε
  | 0, f => (some .pending, f)
  | fuel + 1, f =>
    if f.pos < f.buf.length then
      match f.socket.read (f.buf.length - f.pos) with
      | (.pending, s) => (some .pending, { f with socket := s })
      | (.fault e, s) => (some (.fault e), { f with socket := s })
      | (.bytes [], s) => (some (.fault ended), { f with socket := s })
      | (.bytes (b :: bs), s) =>
        fill ended fuel
          ⟨s, overwrite f.buf f.pos (b :: bs), f.pos + (b :: bs).length⟩
    else (none, f)

/-- The loop from its start; every turn but the last fills a byte. -/
def run (ended : ε) (f : Filling ε) : Option (Polled ε) × Filling ε :=
  fill ended (f.buf.length - f.pos + 1) f

/-- What the loop leaves: the bytes it took off the wire stand in the buffer. -/
structure Filled (f : Filling ε) (r : Option (Polled ε)) (f' : Filling ε)
    (got : List UInt8) : Prop where
  wire : got ++ f'.socket.wire = f.socket.wire
  buf : f'.buf = overwrite f.buf f.pos got
  pos : f'.pos = f.pos + got.length
  inside : f'.pos ≤ f.buf.length
  silent : ∀ p, r = some p → p.got = []
  full : r = none ↔ f'.pos = f.buf.length

theorem filled_none {f : Filling ε} (hlt : f.pos < f.buf.length) {s : Socket ε}
    (hwire : s.wire = f.socket.wire) {p : Polled ε} (hp : p.got = []) :
    Filled f (some p) { f with socket := s } [] where
  wire := hwire
  buf := (overwrite_nil _ _).symm
  pos := rfl
  inside := Nat.le_of_lt hlt
  silent := by
    intro q hq
    cases hq
    exact hp
  full := ⟨fun h => absurd h (Option.some_ne_none p), fun h => absurd h (Nat.ne_of_lt hlt)⟩

/-- A turn that fills some bytes, and the rest of the loop after it. -/
theorem Filled.cons {f f' : Filling ε} {r : Option (Polled ε)} {bs got : List UInt8}
    {s : Socket ε} (hwire : bs ++ s.wire = f.socket.wire)
    (hfits : f.pos + bs.length ≤ f.buf.length)
    (h : Filled ⟨s, overwrite f.buf f.pos bs, f.pos + bs.length⟩ r f' got) :
    Filled f r f' (bs ++ got) where
  wire := by
    rw [append_assoc, h.wire]
    exact hwire
  buf := by
    rw [h.buf]
    exact overwrite_overwrite hfits
  pos := by
    rw [h.pos, length_append]
    exact Nat.add_assoc _ _ _
  inside := Nat.le_trans h.inside (Nat.le_of_eq (overwrite_length hfits))
  silent := h.silent
  full := by
    rw [h.full]
    rw [overwrite_length hfits]

variable (ended : ε)

theorem fill_overwrites (fuel : Nat) (f : Filling ε) :
    f.pos ≤ f.buf.length →
    f.buf.length - f.pos < fuel →
    ∃ got, Filled f (fill ended fuel f).1 (fill ended fuel f).2 got := by
  induction fuel generalizing f with
  | zero =>
    intro _ hfuel
    exact absurd hfuel (Nat.not_lt_zero _)
  | succ fuel ih =>
    intro hpos hfuel
    unfold fill
    by_cases hlt : f.pos < f.buf.length
    · rw [if_pos hlt]
      obtain ⟨hwire, hroom⟩ := f.socket.read_conserves (f.buf.length - f.pos)
      rcases hread : f.socket.read (f.buf.length - f.pos) with ⟨p, s⟩
      rw [hread] at hwire hroom
      cases p with
      | pending | fault e => exact ⟨[], filled_none hlt hwire rfl⟩
      | bytes bs =>
        rcases bs with _ | ⟨b, bs⟩
        · exact ⟨[], filled_none hlt hwire rfl⟩
        have hfits : f.pos + (b :: bs).length ≤ f.buf.length := by
          have : (b :: bs).length ≤ f.buf.length - f.pos := hroom
          omega
        have hlen := overwrite_length hfits
        obtain ⟨got, hgot⟩ := ih
          ⟨s, overwrite f.buf f.pos (b :: bs), f.pos + (b :: bs).length⟩
          (by rw [hlen]; exact hfits)
          (by rw [hlen]; simp only [length_cons]; omega)
        exact ⟨b :: bs ++ got, hgot.cons hwire hfits⟩
    · rw [if_neg hlt]
      have hfull : f.pos = f.buf.length := Nat.le_antisymm hpos (Nat.le_of_not_lt hlt)
      exact ⟨[], rfl, (overwrite_nil _ _).symm, rfl, hpos, by simp, by simp [hfull]⟩

theorem run_overwrites (f : Filling ε) (hpos : f.pos ≤ f.buf.length) :
    ∃ got, Filled f (run ended f).1 (run ended f).2 got :=
  fill_overwrites ended _ f hpos (Nat.lt_succ_self _)

theorem run_settled {f : Filling ε} (hset : f.socket.Settled)
    (henough : f.buf.length - f.pos ≤ f.socket.wire.length) :
    (run ended f).1 = none ∧ (run ended f).2.socket.Settled := by
  unfold run fill
  by_cases hlt : f.pos < f.buf.length
  · rw [if_pos hlt, Socket.read_settled hset]
    have hlen : (f.socket.wire.take (f.buf.length - f.pos)).length
        = f.buf.length - f.pos := by
      rw [length_take]
      omega
    rcases htake : f.socket.wire.take (f.buf.length - f.pos) with _ | ⟨b, bs⟩
    · rw [htake] at hlen
      simp only [length_nil] at hlen
      omega
    rw [htake] at hlen
    obtain ⟨fuel, hfuel⟩ : ∃ k, f.buf.length - f.pos = k + 1 :=
      ⟨f.buf.length - f.pos - 1, by omega⟩
    dsimp only
    rw [hfuel]
    unfold fill
    rw [if_neg]
    · exact ⟨rfl, rfl⟩
    dsimp only
    rw [overwrite_length (by omega), hlen]
    omega
  · rw [if_neg hlt]
    exact ⟨rfl, hset⟩

end Filling

/-! ## §4. Polls of a machine over a socket. -/

section Polls

variable {W : Type} (poll : Nat → W → Polled ε × W)

/-- The bytes delivered by a sequence of polls with the given rooms, and the state after
    it. -/
def polls : W → List Nat → List UInt8 × W
  | w, [] => ([], w)
  | w, room :: rooms =>
    ((poll room w).1.got ++ (polls (poll room w).2 rooms).1, (polls (poll room w).2 rooms).2)

theorem polls_append (w : W) (as bs : List Nat) :
    (polls poll w (as ++ bs)).1
      = (polls poll w as).1 ++ (polls poll (polls poll w as).2 bs).1 := by
  induction as generalizing w with
  | nil => rfl
  | cons a as ih =>
    show (poll a w).1.got ++ (polls poll (poll a w).2 (as ++ bs)).1 = _
    rw [ih, ← append_assoc]
    rfl

variable {poll} {due : W → List UInt8 → Prop}

/-- What one poll delivers is the head of what is due: so is what a sequence delivers. -/
theorem polls_delivers (hpoll : ∀ room w rest, due w rest →
      ∃ rest', rest = (poll room w).1.got ++ rest' ∧ due (poll room w).2 rest') (rooms : List Nat)
    {w : W} {rest : List UInt8} :
    due w rest →
      ∃ rest', rest = (polls poll w rooms).1 ++ rest' ∧ due (polls poll w rooms).2 rest' := by
  induction rooms generalizing w rest with
  | nil =>
    intro h
    exact ⟨rest, rfl, h⟩
  | cons room rooms ih =>
    intro h
    obtain ⟨mid, hmid, hdue⟩ := hpoll room w rest h
    obtain ⟨rest', hrest', hdue'⟩ := ih hdue
    refine ⟨rest', ?_, hdue'⟩
    show rest = _ ++ _ ++ rest'
    rw [hmid, hrest', append_assoc]

/-- Where each poll delivers a byte, as many polls as there are bytes deliver them all. -/
theorem polls_complete {settled : W → Prop}
    (hpoll : ∀ room w rest, due w rest →
      ∃ rest', rest = (poll room w).1.got ++ rest' ∧ due (poll room w).2 rest')
    (hprogress : ∀ room w rest, 0 < room → due w rest → rest ≠ [] → settled w →
      (poll room w).1.got ≠ [] ∧ settled (poll room w).2) (rooms : List Nat) {w : W}
    {rest : List UInt8} :
    due w rest → settled w →
      (∀ room ∈ rooms, 0 < room) → rest.length ≤ rooms.length →
      (polls poll w rooms).1 = rest := by
  induction rooms generalizing w rest with
  | nil =>
    intro _ _ _ hlen
    exact (eq_nil_of_length_eq_zero (Nat.le_zero.mp hlen)).symm
  | cons room rooms ih =>
    intro h hset hrooms hlen
    by_cases hrest : rest = []
    · -- nothing is due, so nothing is delivered
      obtain ⟨rest', hrest', _⟩ := polls_delivers hpoll (room :: rooms) h
      rw [hrest] at hrest' ⊢
      exact (append_eq_nil_iff.mp hrest'.symm).1
    obtain ⟨mid, hmid, hdue⟩ := hpoll room w rest h
    obtain ⟨hgot, hset'⟩ :=
      hprogress room w rest (hrooms room mem_cons_self) h hrest hset
    have hshort : mid.length ≤ rooms.length := by
      have hpos := length_pos_of_ne_nil hgot
      rw [hmid, length_append, length_cons] at hlen
      omega
    show _ ++ (polls poll _ rooms).1 = rest
    rw [ih hdue hset' (fun r hr => hrooms r (mem_cons_of_mem _ hr)) hshort, ← hmid]

end Polls

end StClickHouse
