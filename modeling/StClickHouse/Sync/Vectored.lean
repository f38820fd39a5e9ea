/-
  StClickHouse.Sync.Vectored
  **THE ZERO-COPY INSERT PATH.**

  `send_data_vectored` hands the header and the columns of a block to the socket
  as slices, and the socket takes as many bytes at a time as it likes.  The
  bytes that it has taken are counted here write by write: for plain TCP those
  on the wire, for TLS those in the session, which encrypts them in order.
-/
import StClickHouse.Sync.Insert

namespace StClickHouse

open ByteReader RustText List

namespace Sync

/-! ## §1. A socket that takes what it likes. -/

/-- What the socket answers to one `write`. -/
inductive WriteAnswer where
  | takes (n : Nat)
  | interrupted
  | fails (kind : IoKind)

/-- The bytes taken so far and the answers to come; past their end all bytes are taken. -/
structure Wire where
  written : Bytes
  answers : List WriteAnswer

/-- Why a packet was not sent. -/
inductive SendError where
  | protocol (msg : String)
  | writeZero (msg : String)
  | interrupted
  | io (kind : IoKind)
  deriving DecidableEq

/-- `write` of either transport. -/
def Wire.write (w : Wire) (bytes : Bytes) : Except SendError Nat × Wire :=
  match w.answers with
  | [] => (.ok bytes.length, ⟨w.written ++ bytes, []⟩)
  | .takes n :: answers => (.ok (min n bytes.length), ⟨w.written ++ bytes.take n, answers⟩)
  | .interrupted :: answers => (.error .interrupted, ⟨w.written, answers⟩)
  | .fails kind :: answers => (.error (.io kind), ⟨w.written, answers⟩)

/-- The slice that `write_vectored` hands to `write`.  `Transport` has only the one of
    `std`, which takes the first that is not empty. -/
def firstSlice (slices : List Bytes) : Bytes := (slices.find? (· ≠ [])).getD []

/-- `IoSlice::advance_slices`. -/
def advanceSlices : Nat → List Bytes → List Bytes
  | _, [] => []
  | n, slice :: slices =>
    if slice.length ≤ n then advanceSlices (n - slice.length) slices else slice.drop n :: slices

theorem advanceSlices_flatten (n : Nat) (slices : List Bytes) :
    (advanceSlices n slices).flatten = slices.flatten.drop n := by
  induction slices generalizing n with
  | nil => simp [advanceSlices]
  | cons slice slices ih =>
    rw [advanceSlices, flatten_cons, drop_append]
    split
    · next h => rw [ih, show slice.drop n = [] from drop_eq_nil_of_le h, nil_append]
    · rw [flatten_cons, show n - slice.length = 0 by omega, drop_zero]

theorem firstSlice_prefix (slices : List Bytes) : firstSlice slices <+: slices.flatten := by
  induction slices with
  | nil => exact nil_prefix
  | cons slice slices ih =>
    by_cases h : slice = []
    · simpa [firstSlice, h] using ih
    · simp [firstSlice, h]

section Write

variable {slices : List Bytes} {w w' : Wire}

theorem Wire.write_ok {n : Nat} (h : w.write (firstSlice slices) = (.ok n, w')) :
    n ≤ slices.flatten.length ∧ w'.written = w.written ++ slices.flatten.take n ∧
      w'.answers.length ≤ w.answers.length := by
  obtain ⟨rest, hrest⟩ := firstSlice_prefix slices
  rw [← hrest]
  unfold Wire.write at h
  split at h <;> cases h
  · simp
  · next n answers hanswers =>
    rw [take_append_of_le_length (Nat.min_le_right ..), ← take_eq_take_min, hanswers]
    refine ⟨?_, rfl, Nat.le_succ _⟩
    rw [length_append]
    omega

theorem Wire.write_error {e : SendError} (h : w.write (firstSlice slices) = (.error e, w')) :
    w'.written = w.written ∧ w'.answers.length < w.answers.length := by
  unfold Wire.write at h
  split at h <;> cases h
  all_goals
    next hanswers =>
    rw [hanswers]
    exact ⟨rfl, Nat.lt_succ_self _⟩

end Write

/-! ## §2. The loops. -/

/-- `write_all_vectored`, and with one slice the loop of `write_all`, which `retries` where
    it is interrupted; `zero` is what they say where nothing is taken. -/
def writeSlices (retries : Bool) (zero : String) (slices : List Bytes) (w : Wire) :
    Except (Stop SendError) Unit × Wire :=
  if slices = [] then (.ok (), w)
  else
    match _h : w.write (firstSlice slices) with
    | (.ok n, w') =>
      if n = 0 then (.error (.error (.writeZero zero)), w')
      else writeSlices retries zero (advanceSlices n slices) w'
    | (.error e, w') =>
      if retries = true ∧ e = .interrupted then writeSlices retries zero slices w'
      else (.error (.error e), w')
termination_by w.answers.length + slices.flatten.length
decreasing_by
  · have := Wire.write_ok _h
    rw [advanceSlices_flatten, length_drop]
    omega
  · have := Wire.write_error _h
    omega

def writeAll (bytes : Bytes) : Reader SendError Wire Unit :=
  writeSlices true "failed to write whole buffer" (if bytes = [] then [] else [bytes])

def writeAllVectored (slices : List Bytes) : Reader SendError Wire Unit :=
  writeSlices false "failed to write vectored packet" slices

/-- `write_chunk_header`. -/
def writeChunkHeader (len : Nat) : Reader SendError Wire Unit :=
  if len ≥ 2 ^ 32 then fail (.protocol ("chunked packet too large: " ++ toString len ++ " bytes"))
  else writeAll (leBytes 4 len)

/-- `send_data_vectored`. -/
def sendDataVectored (chunked : Bool) (table : Text) (block : Block) :
    Reader SendError Wire Unit :=
  let slices := vectoredSlices table block
  if chunked then do
    writeChunkHeader (slices.map List.length).sum
    writeAllVectored slices
    writeAll (leBytes 4 0)
  else writeAllVectored slices

/-- The program writes some head of the bytes, and all of them where it returns Ok. -/
def Puts (x : Reader SendError Wire Unit) (bytes : Bytes) : Prop :=
  ∀ w, ∃ taken, (x w).2.written = w.written ++ taken ∧ taken <+: bytes ∧
    ((x w).1 = .ok () → taken = bytes)

/-- One program behind another: where the first fails, nothing follows. -/
theorem Puts.seq {x y : Reader SendError Wire Unit} {a b : Bytes} (hx : Puts x a)
    (hy : Puts y b) : Puts (do x; y) (a ++ b) := by
  intro w
  obtain ⟨s, hs, hpre, hall⟩ := hx w
  rw [bind_apply]
  rcases hrun : x w with ⟨res, w'⟩
  rw [hrun] at hs hall
  rcases res with e | _
  · exact ⟨s, hs, hpre.trans (prefix_append a b), nofun⟩
  obtain ⟨t, ht, htb, htall⟩ := hy w'
  rw [hall rfl] at hs
  exact ⟨a ++ t, by rw [ht, hs, append_assoc], (prefix_append_right_inj a).mpr htb,
    fun h => by rw [htall h]⟩

theorem writeSlices_puts (retries : Bool) (zero : String) (slices : List Bytes) :
    Puts (writeSlices retries zero slices) slices.flatten := by
  intro w
  fun_induction writeSlices retries zero slices w with
  | case1 => exact ⟨[], (append_nil _).symm, prefix_rfl, fun _ => rfl⟩
  | case2 slices w _ w' h =>
    obtain ⟨-, hw, -⟩ := Wire.write_ok h
    exact ⟨_, hw, take_prefix _ _, nofun⟩
  | case3 slices w _ n w' h _ ih =>
    obtain ⟨-, hw, -⟩ := Wire.write_ok h
    obtain ⟨taken, ht, hpre, hall⟩ := ih
    rw [advanceSlices_flatten] at hpre hall
    refine ⟨slices.flatten.take n ++ taken, by rw [ht, hw, append_assoc], ?_, fun hok => ?_⟩
    · have := (prefix_append_right_inj (slices.flatten.take n)).mpr hpre
      rwa [take_append_drop] at this
    · rw [hall hok, take_append_drop]
  | case4 slices w _ e w' h _ ih =>
    rw [(Wire.write_error h).1] at ih
    exact ih
  | case5 slices w _ e w' h _ =>
    exact ⟨[], by rw [(Wire.write_error h).1, append_nil], nil_prefix, nofun⟩

theorem writeAll_puts (bytes : Bytes) : Puts (writeAll bytes) bytes := by
  have h := writeSlices_puts true "failed to write whole buffer" (if bytes = [] then [] else [bytes])
  rw [show (if bytes = [] then [] else [bytes]).flatten = bytes by split <;> simp [*]] at h
  exact h

/-! ## §3. The packet on the wire. -/

/-- A packet on the wire: as it is, or as one chunk and the terminator behind it. -/
def wirePacket (chunked : Bool) (packet : Bytes) : Bytes :=
  if chunked then leBytes 4 packet.length ++ packet ++ leBytes 4 0 else packet

/-- **THE ZERO-COPY PATH WRITES THE BUFFERED PACKET.**  Whatever the socket takes of each
    write, `send_data_vectored` has written the packet of `write_data_packet` where it returns
    Ok, as one chunk with its terminator where packets are chunked; where it fails, it has
    written some head of that and nothing behind it. -/
theorem sendDataVectored_writes_packet (chunked : Bool) (table : Text) (block : Block) (w : Wire) :
    ∃ taken, (sendDataVectored chunked table block w).2.written = w.written ++ taken ∧
      taken <+: wirePacket chunked (writeDataPacket table block) ∧
      ((sendDataVectored chunked table block w).1 = .ok () →
        taken = wirePacket chunked (writeDataPacket table block) ∧
        (chunked = true → (writeDataPacket table block).length < 2 ^ 32)) := by
  have hslices := writeSlices_puts false "failed to write vectored packet"
    (vectoredSlices table block)
  rw [vectoredSlices_flatten] at hslices
  unfold sendDataVectored wirePacket
  rcases chunked with _ | _
  · obtain ⟨taken, hw, hpre, hall⟩ := hslices w
    exact ⟨taken, hw, hpre, fun hok => ⟨hall hok, nofun⟩⟩
  simp only [if_true, ← length_flatten, vectoredSlices_flatten]
  by_cases hlen : (writeDataPacket table block).length ≥ 2 ^ 32
  · -- too long for a chunk: refused before anything is written
    rw [writeChunkHeader, if_pos hlen]
    exact ⟨[], (append_nil _).symm, nil_prefix, nofun⟩
  rw [writeChunkHeader, if_neg hlen, append_assoc]
  obtain ⟨taken, hw, hpre, hall⟩ := (writeAll_puts (leBytes 4 _)).seq
    (hslices.seq (writeAll_puts (leBytes 4 0))) w
  exact ⟨taken, hw, hpre, fun hok => ⟨hall hok, fun _ => Nat.lt_of_not_le hlen⟩⟩

end Sync

end StClickHouse
