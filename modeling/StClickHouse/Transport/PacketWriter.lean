/-
  StClickHouse.Transport.PacketWriter
  **THE WRITING SIDE OF A CONNECTION.**

  What becomes of each write is data: it is taken, it fails, its time runs out or its
  future is dropped, the last three after any number of bytes.  `write_packet` (`pool.rs`,
  `sync/chunked.rs`) hands a packet over in one write, or with its chunk length before it
  and a zero length after it in three.
-/
import StClickHouse.Transport.StreamWrapper

namespace StClickHouse

open ByteReader List

/-! ## §1. Writes. -/

/-- What becomes of one write. -/
inductive Fate where
  /-- It is taken in full. -/
  | done
  /-- It fails after some bytes. -/
  | fails (taken : Nat) (kind : IoKind)
  /-- It takes longer than a timer, if there is one, allows. -/
  | late (taken : Nat)
  /-- The future that makes it is dropped after some bytes. -/
  | dropped (taken : Nat)
  deriving Repr, DecidableEq

/-- A write under that fate completes. -/
def Fate.completes (timed : Bool) : Fate → Bool
  | .done => true
  | .late _ => !timed
  | _ => false

/-- How an operation with writes in it ends. -/
inductive Outcome where
  | ok
  | error (e : Error)
  /-- The operation does not return: its future has been dropped. -/
  | dropped
  deriving Repr, DecidableEq

/-- The bytes the transport has taken, and the fates of the writes to come; past the end
    of the list all complete. -/
structure Outlet where
  written : Bytes
  fates : List Fate
  deriving Repr, DecidableEq

namespace Outlet

/-- `write_all`. -/
def writeAll (timed : Bool) (bytes : Bytes) (o : Outlet) : Outcome × Outlet :=
  match o.fates with
  | [] | .done :: _ => (.ok, ⟨o.written ++ bytes, o.fates.tail⟩)
  | .fails taken kind :: fates => (.error (.io kind), ⟨o.written ++ bytes.take taken, fates⟩)
  | .late taken :: fates =>
    if timed then (.error (.timeout "write timed out"), ⟨o.written ++ bytes.take taken, fates⟩)
    else (.ok, ⟨o.written ++ bytes, fates⟩)
  | .dropped taken :: fates => (.dropped, ⟨o.written ++ bytes.take taken, fates⟩)

/-- `flush`. -/
def flush (o : Outlet) : Outcome × Outlet := o.writeAll false []

/-- Writes one after the other, up to the first that does not complete. -/
def writeParts (timed : Bool) : List Bytes → Outlet → Outcome × Outlet
  | [], o => (.ok, o)
  | part :: parts, o =>
    match o.writeAll timed part with
    | (.ok, o) => writeParts timed parts o
    | out => out

/-- The next writes all complete. -/
def takes (timed : Bool) (n : Nat) (o : Outlet) : Bool :=
  (o.fates.take n).all (Fate.completes timed)

/-- The next write does not complete and not a byte of it is taken. -/
def refuses (timed : Bool) (o : Outlet) : Bool :=
  match o.fates with
  | .fails 0 _ :: _ | .dropped 0 :: _ => true
  | .late 0 :: _ => timed
  | _ => false

variable {timed : Bool} {o : Outlet}

/-- What one write leaves: some head of the bytes, and all of them where it completes. -/
theorem writeAll_taken (bytes : Bytes) :
    ∃ taken, (o.writeAll timed bytes).2.written = o.written ++ taken ∧ taken <+: bytes ∧
      ((o.writeAll timed bytes).1 = .ok → taken = bytes) := by
  unfold writeAll
  split
  · exact ⟨bytes, rfl, prefix_rfl, fun _ => rfl⟩
  · exact ⟨bytes, rfl, prefix_rfl, fun _ => rfl⟩
  · exact ⟨_, rfl, take_prefix _ _, nofun⟩
  · split
    · exact ⟨_, rfl, take_prefix _ _, nofun⟩
    · exact ⟨bytes, rfl, prefix_rfl, fun _ => rfl⟩
  · exact ⟨_, rfl, take_prefix _ _, nofun⟩

theorem flush_written : (o.flush).2.written = o.written := by
  obtain ⟨taken, hwritten, htaken, _⟩ := @writeAll_taken false o []
  rw [prefix_nil.mp htaken, append_nil] at hwritten
  exact hwritten

/-- A write whose turn is to complete completes, and the ones after it have theirs. -/
theorem writeAll_takes {n : Nat} (h : o.takes timed (n + 1) = true) (bytes : Bytes) :
    (o.writeAll timed bytes).1 = .ok ∧ (o.writeAll timed bytes).2.fates = o.fates.tail := by
  unfold takes at h
  unfold writeAll
  rcases hfates : o.fates with _ | ⟨fate, fates⟩
  · exact ⟨rfl, rfl⟩
  rw [hfates, take_succ_cons, all_cons, Bool.and_eq_true] at h
  cases fate with
  | done => exact ⟨rfl, rfl⟩
  | fails _ _ | dropped _ => cases h.1
  | late taken =>
    cases timed with
    | true => cases h.1
    | false => exact ⟨rfl, rfl⟩

theorem takes_tail {n : Nat} (h : o.takes timed (n + 1) = true) {o' : Outlet}
    (hfates : o'.fates = o.fates.tail) : o'.takes timed n = true := by
  unfold takes at h ⊢
  rw [hfates]
  rcases hf : o.fates with _ | ⟨fate, fates⟩
  · rw [tail_nil, take_nil]
    rfl
  rw [hf, take_succ_cons, all_cons, Bool.and_eq_true] at h
  exact h.2

theorem takes_all (h : o.fates = []) {n : Nat} : o.takes timed n = true := by
  unfold takes
  rw [h, take_nil]
  rfl

theorem writeAll_refuses (h : o.refuses timed = true) (bytes : Bytes) :
    (o.writeAll timed bytes).1 ≠ .ok ∧ (o.writeAll timed bytes).2.written = o.written := by
  unfold refuses at h
  unfold writeAll
  split at h
  · rename_i heq
    rw [heq]
    exact ⟨Outcome.noConfusion, append_nil _⟩
  · rename_i heq
    rw [heq]
    exact ⟨Outcome.noConfusion, append_nil _⟩
  · rename_i heq
    rw [heq, h]
    exact ⟨Outcome.noConfusion, append_nil _⟩
  · cases h

/-! ## §2. Packets in several writes. -/

theorem writeParts_taken (parts : List Bytes) {o : Outlet} :
    ∃ taken, (o.writeParts timed parts).2.written = o.written ++ taken ∧
      taken <+: parts.flatten ∧ ((o.writeParts timed parts).1 = .ok → taken = parts.flatten) := by
  induction parts generalizing o with
  | nil => exact ⟨[], (append_nil _).symm, nil_prefix, fun _ => rfl⟩
  | cons part parts ih =>
    obtain ⟨first, hfirst, hpre, hall⟩ := @writeAll_taken timed o part
    unfold writeParts
    rcases hout : o.writeAll timed part with ⟨out, o'⟩
    rw [hout] at hfirst hall
    have hcut : first <+: (part :: parts).flatten := by
      rw [flatten_cons]
      exact hpre.trans (prefix_append _ _)
    cases out with
    | ok =>
      obtain ⟨rest, hrest, hpre', hall'⟩ := @ih o'
      refine ⟨first ++ rest, ?_, ?_, ?_⟩
      · show (o'.writeParts timed parts).2.written = _
        rw [hrest, hfirst, append_assoc]
      · rw [hall rfl, flatten_cons]
        exact (prefix_append_right_inj part).mpr hpre'
      · intro hok
        rw [hall rfl, hall' hok, flatten_cons]
    | error e | dropped => exact ⟨first, hfirst, hcut, nofun⟩

theorem writeParts_takes (parts : List Bytes) {o : Outlet} {n : Nat} :
    o.takes timed (parts.length + n) = true →
    (o.writeParts timed parts).1 = .ok ∧ (o.writeParts timed parts).2.takes timed n = true := by
  induction parts generalizing o n with
  | nil =>
    intro h
    rw [length_nil, Nat.zero_add] at h
    exact ⟨rfl, h⟩
  | cons part parts ih =>
    intro h
    rw [length_cons, Nat.add_right_comm] at h
    obtain ⟨hok, hfates⟩ := writeAll_takes h part
    have htail := takes_tail h hfates
    unfold writeParts
    rcases hout : o.writeAll timed part with ⟨out, o'⟩
    rw [hout] at hok htail
    obtain rfl : out = .ok := hok
    exact ih htail

theorem writeParts_refuses {part : Bytes} {parts : List Bytes}
    (h : o.refuses timed = true) :
    (o.writeParts timed (part :: parts)).1 ≠ .ok ∧
      (o.writeParts timed (part :: parts)).2.written = o.written := by
  obtain ⟨hne, hwritten⟩ := writeAll_refuses h part
  unfold writeParts
  rcases hout : o.writeAll timed part with ⟨out, o'⟩
  rw [hout] at hne hwritten
  cases out with
  | ok => exact absurd rfl hne
  | error e | dropped => exact ⟨hne, hwritten⟩

end Outlet

/-- The writes that hand a packet over.  With chunked framing the length goes before it
    in four bytes, and a zero length after it. -/
def packetParts (chunked : Bool) (pkt : Bytes) : Result (List Bytes) :=
  if chunked then
    if pkt.length ≥ 2 ^ 32 then
      .error (.text ("chunked packet too large: " ++ toString pkt.length ++ " bytes"))
    else .ok [leBytes 4 pkt.length, pkt, leBytes 4 0]
  else .ok [pkt]

theorem packetParts_ne_nil {chunked : Bool} {pkt : Bytes} {parts : List Bytes}
    (h : packetParts chunked pkt = .ok parts) : ∃ part more, parts = part :: more := by
  unfold packetParts at h
  split at h
  · split at h <;> cases h
    exact ⟨_, _, rfl⟩
  · cases h
    exact ⟨_, _, rfl⟩

end StClickHouse
