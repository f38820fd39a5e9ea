/-
  StClickHouse.Wire.Decompressing
  **FRAMES READ PIECE BY PIECE.**

  The two readers of a compressed packet body, as they meet a transport that hands out
  its bytes in pieces: `DecompressingStream` (`connection/block_reader.rs`), which is
  polled and may be suspended at any byte, and `DecompressingReader`
  (`sync/compression/mod.rs`), which blocks.

      decompressing_transparent    — any reads under any schedule get the payloads in
                                     order, out of whole frames
      oversizedFrame_refused       — a frame over the cap
-/
import StClickHouse.Wire.Framed

namespace StClickHouse

open ByteReader List

/-! ## §1. A transport that hands out pieces. -/

/-- What the transport answers when it is polled. -/
inductive Answer where
  | pending
  /-- At most so many bytes, and at least one while there are any. -/
  | ready (most : Nat)
  deriving Repr, DecidableEq

/-- The bytes to come, and the answers to come; past the end of the list every poll is
answered in full. -/
structure Transport where
  bytes : Bytes
  answers : List Answer := []
  deriving Repr, DecidableEq

namespace Transport

/-- `poll_read` for `want` bytes; no result is `Pending`, and no bytes are the end. -/
def pollRead (want : Nat) (t : Transport) : Option Bytes × Transport :=
  match t.answers with
  | .pending :: answers => (none, { t with answers := answers })
  | .ready most :: answers =>
    let n := min (max most 1) want
    (some (t.bytes.take n), ⟨t.bytes.drop n, answers⟩)
  | [] => (some (t.bytes.take want), ⟨t.bytes.drop want, []⟩)

/-- A blocking read of at most `want` bytes. -/
def readFrom (want : Nat) : List Answer → Bytes → Bytes × Transport
  | .pending :: answers, bytes => readFrom want answers bytes
  | .ready most :: answers, bytes =>
    let n := min (max most 1) want
    (bytes.take n, ⟨bytes.drop n, answers⟩)
  | [], bytes => (bytes.take want, ⟨bytes.drop want, []⟩)

/-- `read`. -/
def read (want : Nat) : Read Transport Bytes := fun t =>
  match readFrom want t.answers t.bytes with
  | (bs, t) => (.ok bs, t)

/-- `read_exact`: pieces until `want` bytes are there, or the end. -/
def readExactFrom : List Answer → Nat → Bytes → Readout Bytes × Transport
  | answers, 0, bytes => (.ok [], ⟨bytes, answers⟩)
  | [], want, bytes =>
    if want ≤ bytes.length then (.ok (bytes.take want), ⟨bytes.drop want, []⟩)
    else (.error (.error (.io .unexpectedEof)), ⟨[], []⟩)
  | .pending :: answers, want, bytes => readExactFrom answers want bytes
  | .ready most :: answers, want, bytes =>
    let n := min (max most 1) want
    if bytes = [] then (.error (.error (.io .unexpectedEof)), ⟨[], answers⟩)
    else
      match readExactFrom answers (want - n) (bytes.drop n) with
      | (.ok rest, t) => (.ok (bytes.take n ++ rest), t)
      | (.error e, t) => (.error e, t)

instance : ByteStream Error Transport where
  readExact n := fun t => readExactFrom t.answers n t.bytes

/-- The answer to one poll, where bytes are wanted and there are some. -/
theorem pollRead_cases {want : Nat} (hwant : 0 < want) (t : Transport) :
    (∃ answers, t.answers = .pending :: answers ∧
      t.pollRead want = (none, { t with answers := answers })) ∨
    ∃ n answers, 0 < n ∧ n ≤ want ∧ answers.length ≤ t.answers.length ∧
      t.pollRead want = (some (t.bytes.take n), ⟨t.bytes.drop n, answers⟩) := by
  unfold pollRead
  split
  · next answers h => exact .inl ⟨answers, h, rfl⟩
  · next most answers h =>
    exact .inr ⟨_, answers, by omega, by omega, by rw [h]; exact Nat.le_succ _, rfl⟩
  · exact .inr ⟨want, [], hwant, le_rfl, Nat.zero_le _, rfl⟩

theorem readFrom_cases {want : Nat} (hwant : 0 < want) (answers : List Answer) (bytes : Bytes) :
    ∃ n answers', 0 < n ∧ n ≤ want ∧
      readFrom want answers bytes = (bytes.take n, ⟨bytes.drop n, answers'⟩) := by
  induction answers with
  | nil => exact ⟨want, [], hwant, le_rfl, rfl⟩
  | cons a answers ih =>
    cases a with
    | pending => exact ih
    | ready most =>
      exact ⟨min (max most 1) want, answers, by omega, by omega, rfl⟩

theorem readExactFrom_ok (answers : List Answer) : ∀ {want : Nat} {bytes : Bytes},
    want ≤ bytes.length → ∃ answers',
      readExactFrom answers want bytes = (.ok (bytes.take want), ⟨bytes.drop want, answers'⟩) := by
  induction answers with
  | nil =>
    intro want bytes h
    cases want with
    | zero => exact ⟨[], rfl⟩
    | succ want => exact ⟨[], if_pos h⟩
  | cons a answers ih =>
    intro want bytes h
    rcases want with _ | want
    · exact ⟨_, rfl⟩
    cases a with
    | pending => exact ih h
    | ready most =>
      have hne : bytes ≠ [] := by
        rintro rfl
        exact absurd h (Nat.not_succ_le_zero want)
      let n := min (max most 1) (want + 1)
      obtain ⟨answers', hrest⟩ := @ih (want + 1 - n) (bytes.drop n) (by
        rw [length_drop]
        omega)
      refine ⟨answers', ?_⟩
      show (if bytes = [] then _ else
        match readExactFrom answers (want + 1 - n) (bytes.drop n) with
        | (.ok rest, t) => (Except.ok (bytes.take n ++ rest), t)
        | (.error e, t) => (.error e, t)) = _
      rw [if_neg hne]
      rw [hrest, drop_drop]
      dsimp only
      have htake : bytes.take n ++ (bytes.drop n).take (want + 1 - n)
          = bytes.take (want + 1) := by
        rw [← take_add]
        congr 1
        omega
      rw [htake, show n + (want + 1 - n) = want + 1 by omega]

theorem readExact_ok {want : Nat} {t : Transport} {pre rest : Bytes}
    (hbytes : t.bytes = pre ++ rest) (hlen : pre.length = want) :
    ∃ answers, readExact (ε := Error) want t = (.ok pre, ⟨rest, answers⟩) := by
  obtain ⟨answers, h⟩ := @readExactFrom_ok t.answers want t.bytes
    (by rw [hbytes, length_append]; omega)
  refine ⟨answers, ?_⟩
  show readExactFrom t.answers want t.bytes = _
  rw [h, hbytes, take_left' hlen, drop_left' hlen]

end Transport

/-! ## §2. `DecompressingStream`. -/

/-- Why a poll returns without a result. -/
inductive Halt where
  | pending
  | failed (e : Error)
  deriving Repr, DecidableEq

/-- The stream between two polls.  Of the buffer that has been decompressed, and of the
frame that is being pulled, the lists have the bytes that count: those not yet served,
and those already there. -/
structure DecompressingStream where
  codec : Codec
  inner : Transport
  buf : Bytes
  plain : Bool
  produced : Nat
  frame : Bytes
  /-- The length of the frame once its header is there, and zero before. -/
  frameLen : Nat

namespace DecompressingStream

/-- One poll for the rest of a frame up to `target` bytes. -/
def fillTurn (target : Nat) : Reader Halt DecompressingStream (Turn Unit Unit) := fun s =>
  if target ≤ s.frame.length then (.ok (.done ()), s)
  else
    match s.inner.pollRead (target - s.frame.length) with
    | (none, t) => (.error (.error .pending), { s with inner := t })
    | (some bs, t) =>
      if bs = [] then (.error (.error (.failed (.io .unexpectedEof))), { s with inner := t })
      else (.ok (.more ()), { s with inner := t, frame := s.frame ++ bs })

/-- A frame completed up to `target` bytes: every poll that is ready brings one byte at
least, so that many polls are enough. -/
def fill (target : Nat) : Reader Halt DecompressingStream Unit :=
  loop (fun _ => fillTurn target) (target + 1) ()

/-- Phase 2 of `poll_pull_frame`: the announced size, once per frame. -/
def sizeFrame : Reader Halt DecompressingStream Unit := fun s =>
  if s.frameLen = 0 then
    let size := compressedSize s.frame
    if size < headerLen then (.error (.error (.failed (.io .invalidData))), s)
    else if size > maxFrameSize then (.error (.error (.failed (.io .invalidData))), s)
    else (.ok (), { s with frameLen := checksumLen + size })
  else (.ok (), s)

/-- Phase 3 of `poll_pull_frame`: the body. -/
def fillFrame : Reader Halt DecompressingStream Unit := fun s => fill s.frameLen s

/-- Phase 4 of `poll_pull_frame`: the frame is decoded and charged. -/
def openNext : Reader Halt DecompressingStream Unit := fun s =>
  let s' := { s with frame := [], frameLen := 0 }
  match decodeFrameBytes s.codec s.frame with
  | .error _ => (.error (.error (.failed (.io .invalidData))), s')
  | .ok payload =>
    match checkedBlockBytes s.produced payload.length with
    | none => (.error (.error (.failed (.io .invalidData))), s')
    | some produced => (.ok (), { s' with produced := produced, buf := payload })

/-- `poll_pull_frame`. -/
def pollPullFrame : Reader Halt DecompressingStream Unit := do
  fill frameHeaderTotal
  sizeFrame
  fillFrame
  openNext

/-- One turn of `poll_read`. -/
def pollTurn (want : Nat) : Reader Halt DecompressingStream (Turn Unit Bytes) := fun s =>
  if s.buf ≠ [] then (.ok (.done (s.buf.take want)), { s with buf := s.buf.drop want })
  else if want = 0 then (.ok (.done []), s)
  else if s.plain then
    match s.inner.pollRead want with
    | (none, t) => (.error (.error .pending), { s with inner := t })
    | (some bs, t) => (.ok (.done bs), { s with inner := t })
  else
    (do
      pollPullFrame
      return Turn.more ()) s

/-- `poll_read` for at most `want` bytes.  Every frame that is pulled takes bytes from
the transport, which bounds the turns. -/
def pollRead (want : Nat) : Reader Halt DecompressingStream Bytes := fun s =>
  loop (fun _ => pollTurn want) (s.frame.length + s.inner.bytes.length + 2) () s

/-- The stream around the transport as it is. -/
def wrap (codec : Codec) (buf : Bytes) (plain : Bool) (frame : Bytes) (frameLen : Nat) :
    Read Transport DecompressingStream := fun t =>
  (.ok ⟨codec, t, buf, plain, 0, frame, frameLen⟩, t)

/-- `DecompressingStream::new`; `late` are the bytes that had come when the limit of the
sniffed read ran out, if it did. -/
def new (codec : Codec) (late : Option Nat) : Read Transport DecompressingStream := do
  let first ← readExact 1
  match late with
  | some taken => do
    -- the bytes that had come are lost with the read that was dropped
    let _ ← readExact taken
    wrap codec first true [] 0
  | none => do
    let sniff := first ++ (← readExact checksumLen)
    match CompressionMethod.fromByte (sniff.getD checksumLen 0) with
    | none => wrap codec sniff true [] 0
    | some _ => do
      let frame := sniff ++ (← readExact (frameHeaderTotal - checksumLen - 1))
      let size := compressedSize frame
      if size < headerLen then wrap codec frame true [] 0
      else if size > maxFrameSize then
        fail (.compression ("compressed_size " ++ toString size ++ " exceeds "
          ++ toString maxFrameSize ++ " byte frame cap"))
      else wrap codec [] false frame (checksumLen + size)

end DecompressingStream

/-! ## §3. `DecompressingReader`. -/

/-- The blocking reader between two reads. -/
structure DecompressingReader where
  codec : Codec
  inner : Transport
  buf : Bytes
  plain : Bool
  produced : Nat

namespace DecompressingReader

/-- Read the inner reader. -/
def onInner {α : Type} (x : Read Transport α) : Read DecompressingReader α := fun s =>
  match x s.inner with
  | (res, t) => (res, { s with inner := t })

/-- `swap_in_decoded`: the error says what failed, the codec or the budget. -/
def swapInDecoded (refuse : Error → Error) (budget : Error) (frame : Bytes) :
    Read DecompressingReader Unit := fun s =>
  match decodeFrameBytes s.codec frame with
  | .error e => (.error (.error (refuse e)), s)
  | .ok payload =>
    match checkedBlockBytes s.produced payload.length with
    | none => (.error (.error budget), s)
    | some produced => (.ok (), { s with produced := produced, buf := payload })

/-- `pull_next_frame`: one byte tells the end of the stream from a frame. -/
def pullNextFrame : Read DecompressingReader Bool := do
  let first ← onInner (Transport.read 1)
  if first = [] then return false
  else do
    let frame := first ++ (← onInner (readExact (frameHeaderTotal - 1)))
    let size := compressedSize frame
    if size < headerLen then fail (.io .invalidData)
    else if size > maxFrameSize then fail (.io .invalidData)
    else do
      let body ← onInner (readExact (size - headerLen))
      swapInDecoded (fun _ => .io .invalidData) (.io .invalidData) (frame ++ body)
      return true

/-- One turn of `read`. -/
def readTurn (want : Nat) : Read DecompressingReader (Turn Unit Bytes) := fun s =>
  if s.buf ≠ [] then (.ok (.done (s.buf.take want)), { s with buf := s.buf.drop want })
  else if s.plain then
    (do
      let bs ← onInner (Transport.read want)
      return Turn.done bs) s
  else
    (do
      if ← pullNextFrame then return Turn.more ()
      else return Turn.done []) s

/-- `read` for at most `want` bytes. -/
def read (want : Nat) : Read DecompressingReader Bytes := fun s =>
  if want = 0 then (.ok [], s)
  else loop (fun _ => readTurn want) (s.inner.bytes.length + 2) () s

/-- What does not look like a frame is replayed. -/
def replay (bytes : Bytes) : Read DecompressingReader Unit := fun s =>
  (.ok (), { s with buf := bytes, plain := true })

/-- `DecompressingReader::new`, which decodes the first frame. -/
def new (codec : Codec) (t : Transport) : Readout Unit × DecompressingReader :=
  (do
    let first ← onInner (readExact 1)
    let sniff := first ++ (← onInner (readExact checksumLen))
    match CompressionMethod.fromByte (sniff.getD checksumLen 0) with
    | none => replay sniff
    | some _ => do
      let frame := sniff ++ (← onInner (readExact (frameHeaderTotal - checksumLen - 1)))
      let size := compressedSize frame
      if size < headerLen then replay frame
      else if size > maxFrameSize then
        fail (.compression ("compressed_size " ++ toString size ++ " exceeds "
          ++ toString maxFrameSize ++ " byte frame cap"))
      else do
        let body ← onInner (readExact (size - headerLen))
        swapInDecoded id (.text "decompressed block") (frame ++ body))
    ⟨codec, t, [], false, 0⟩

end DecompressingReader

/-! ## §4. Pulling a frame. -/

/-- The bytes inside some frames. -/
def payloads {codec : Codec} (fs : List (Framed codec)) : Bytes := (fs.map (·.payload)).flatten

/-- The frames on the wire. -/
def wires {codec : Codec} (fs : List (Framed codec)) : Bytes := (fs.map (·.wire)).flatten

section

variable {codec : Codec}

theorem payloads_cons (f : Framed codec) (fs : List (Framed codec)) :
    payloads (f :: fs) = f.payload ++ payloads fs := rfl

theorem wires_cons (f : Framed codec) (fs : List (Framed codec)) :
    wires (f :: fs) = f.wire ++ wires fs := rfl

theorem payloads_append (fs gs : List (Framed codec)) :
    payloads (fs ++ gs) = payloads fs ++ payloads gs := by
  unfold payloads
  rw [map_append, flatten_append]

theorem length_le_wires (lawful : codec.Lawful) (fs : List (Framed codec)) :
    fs.length ≤ (wires fs).length := by
  induction fs with
  | nil => exact le_rfl
  | cons f fs ih =>
    have hpos := f.length_wire lawful
    rw [wires_cons, length_append, length_cons]
    unfold frameHeaderTotal checksumLen at hpos
    omega

/-- Whole frames have been taken from the wire, and the last of them was needed for the
last of the bytes served. -/
def WholeFrames (fs : List (Framed codec)) (rest served frame bytes : Bytes) : Prop :=
  ∃ init f coming, fs = init ++ f :: coming ∧ frame = [] ∧ bytes = wires coming ++ rest ∧
    (payloads init).length < served.length ∧ served.length ≤ (payloads (init ++ [f])).length

/-- What has been served of the decoded frames and what is in the buffer. -/
structure Unserved (past : List (Framed codec)) (served buf : Bytes) (produced : Nat) :
    Prop where
  produced_eq : produced = (payloads past).length
  buffered : served ++ buf = payloads past
  lastFrame : buf ≠ [] → ∃ init f, past = init ++ [f] ∧ (payloads init).length ≤ served.length

section

variable {past : List (Framed codec)} {served buf : Bytes} {produced : Nat}

theorem Unserved.ne_nil (h : Unserved past served buf produced)
    (hmore : served.length < (payloads past).length) : buf ≠ [] := by
  rintro rfl
  rw [← h.buffered, append_nil] at hmore
  exact lt_irrefl _ hmore

/-- Some of the buffer is served. -/
theorem Unserved.serve (h : Unserved past served buf produced) (hbuf : buf ≠ []) {want : Nat}
    (hwant : 0 < want) (coming : List (Framed codec)) (rest : Bytes) :
    buf.take want ≠ [] ∧ Unserved past (served ++ buf.take want) (buf.drop want) produced ∧
      WholeFrames (past ++ coming) rest (served ++ buf.take want) [] (wires coming ++ rest) := by
  obtain ⟨init, f, hpast, hinit⟩ := h.lastFrame hbuf
  have hsplit : served ++ buf.take want ++ buf.drop want = payloads past := by
    rw [append_assoc, take_append_drop, h.buffered]
  have hpos : 0 < (buf.take want).length := by
    have hlength := length_pos_iff.mpr hbuf
    rw [length_take]
    omega
  refine ⟨length_pos_iff.mp hpos, ⟨h.produced_eq, hsplit, ?_⟩, init, f, coming, ?_, rfl, rfl,
    ?_, ?_⟩
  · exact fun _ => ⟨init, f, hpast, by rw [length_append]; omega⟩
  · rw [hpast]
    simp
  · rw [length_append]
    omega
  · rw [← hpast, ← hsplit]
    exact (prefix_append _ _).length_le

/-- The next frame is decoded when the buffer is empty. -/
theorem Unserved.pull (h : Unserved past served [] produced) (f : Framed codec) :
    Unserved (past ++ [f]) served f.payload (produced + f.payload.length) := by
  have hserved : served = payloads past := by
    rw [← h.buffered, append_nil]
  refine ⟨?_, ?_, fun _ => ⟨past, f, rfl, by rw [hserved]⟩⟩
  · rw [payloads_append, length_append, h.produced_eq]
    simp [payloads]
  · rw [payloads_append, hserved]
    simp [payloads]

theorem Unserved.budget (h : Unserved past served buf produced) {f : Framed codec}
    {more : List (Framed codec)} (hcap : (payloads (past ++ f :: more)).length ≤ maxBlockBytes) :
    produced + f.payload.length ≤ maxBlockBytes := by
  rw [payloads_append, payloads_cons] at hcap
  rw [h.produced_eq]
  simp only [length_append] at hcap
  omega

end

/-- **The turns of a read**, by induction on the frames that are on the wire: a turn serves
the buffer, or decodes the next frame, or stops the read. -/
theorem loop_serves {ε σ : Type} {turn : Reader ε σ (Turn Unit Bytes)} (buf : σ → Bytes)
    {fs : List (Framed codec)} {I : List (Framed codec) → List (Framed codec) → σ → Prop}
    {A : Except (Stop ε) Bytes → σ → Prop} (hlast : ∀ {s}, I fs [] s → buf s ≠ [])
    (hserve : ∀ {past coming s}, past ++ coming = fs → I past coming s → buf s ≠ [] →
      ∃ bs s', turn s = (.ok (.done bs), s') ∧ A (.ok bs) s')
    (hpull : ∀ {past f more s}, past ++ f :: more = fs → I past (f :: more) s → buf s = [] →
      (∃ s', turn s = (.ok (.more ()), s') ∧ I (past ++ [f]) more s') ∨
        ∃ e s', turn s = (.error e, s') ∧ A (.error e) s') (coming : List (Framed codec)) :
    ∀ {past s fuel}, past ++ coming = fs → I past coming s → coming.length ≤ fuel →
      ∃ res s', loop (fun _ => turn) (fuel + 1) () s = (res, s') ∧ A res s' := by
  induction coming with
  | nil =>
    intro past s fuel hfs h _
    rw [append_nil] at hfs
    subst hfs
    obtain ⟨bs, s', hturn, hans⟩ := hserve (append_nil past) h (hlast h)
    exact ⟨_, s', loop_lastTurn (.done hturn), hans⟩
  | cons f more ih =>
    intro past s fuel hfs h hfuel
    obtain ⟨fuel, rfl⟩ := Nat.exists_eq_add_of_le' (lt_of_lt_of_le (Nat.succ_pos _) hfuel)
    by_cases hbuf : buf s = []
    · obtain ⟨s', hturn, hnext⟩ | ⟨e, s', hturn, hans⟩ := hpull hfs h hbuf
      · obtain ⟨res, s'', hrun, hans⟩ :=
          ih (by rwa [append_assoc]) hnext (Nat.le_of_succ_le_succ hfuel)
        exact ⟨res, s'', (loop_more hturn).trans hrun, hans⟩
      · exact ⟨_, s', loop_lastTurn (.stopped hturn), hans⟩
    · obtain ⟨bs, s', hturn, hans⟩ := hserve hfs h hbuf
      exact ⟨_, s', loop_lastTurn (.done hturn), hans⟩

end

/-- A frame as `new` sniffs it: the first byte, the rest of the checksum with the method,
and the sizes are read, and the body is left. -/
theorem Encoded.sniff {codec : Codec} (lawful : codec.Lawful) (e : Encoded codec) {t : Transport}
    {rest : Bytes} (hbytes : t.bytes = e.wire ++ rest) :
    ∃ first checksum sizes body t₁ t₂ answers,
      readExact (ε := Error) 1 t = (.ok first, t₁) ∧
      readExact (ε := Error) checksumLen t₁ = (.ok checksum, t₂) ∧
      readExact (ε := Error) (frameHeaderTotal - checksumLen - 1) t₂
        = (.ok sizes, ⟨body ++ rest, answers⟩) ∧
      CompressionMethod.fromByte ((first ++ checksum).getD checksumLen 0) = some e.method ∧
      first ++ checksum ++ sizes = e.wire.take frameHeaderTotal ∧
      body.length = compressedSize (e.wire.take frameHeaderTotal) - headerLen ∧
      e.wire.take frameHeaderTotal ++ body = e.wire := by
  obtain ⟨first, checksum, sizes, body, hwire, hfirst, hchecksum, hsizes, hmethod, hheader, hbody,
    hframe⟩ := e.sniffed lawful
  rw [hwire] at hbytes
  obtain ⟨a₁, hread₁⟩ := @Transport.readExact_ok 1 t first
    (checksum ++ (sizes ++ (body ++ rest))) (by rw [hbytes]; simp) hfirst
  obtain ⟨a₂, hread₂⟩ := @Transport.readExact_ok checksumLen
    ⟨checksum ++ (sizes ++ (body ++ rest)), a₁⟩ _ _ rfl hchecksum
  obtain ⟨a₃, hread₃⟩ := @Transport.readExact_ok _ ⟨sizes ++ (body ++ rest), a₂⟩ _ _ rfl hsizes
  exact ⟨first, checksum, sizes, body, _, _, a₃, hread₁, hread₂, hread₃, hmethod, hheader, hbody,
    hframe⟩

namespace DecompressingStream

/-- What becomes of a frame that is filled up: it grows by what the transport gives, up to
the target or to a poll that is pending, and the bytes of both together stay the same. -/
def Filled (target : Nat) (s : DecompressingStream)
    (run : Except (Stop Halt) Unit × DecompressingStream) : Prop :=
  ∃ res t frame, run = (res, { s with inner := t, frame := frame }) ∧
    frame ++ t.bytes = s.frame ++ s.inner.bytes ∧ s.frame.length ≤ frame.length ∧
    ((res = .ok () ∧ frame.length = target ∧ t.answers.length ≤ s.inner.answers.length) ∨
      (res = .error (.error .pending) ∧ frame.length < target ∧
        t.answers.length < s.inner.answers.length))

/-- **Filling up**, by induction on the turns that are left. -/
theorem fillLoop_filled {target : Nat} (fuel : Nat) : ∀ {s : DecompressingStream},
    s.frame.length ≤ target → target ≤ s.frame.length + s.inner.bytes.length →
    target < s.frame.length + fuel →
    Filled target s (loop (fun _ => fillTurn target) fuel () s) := by
  induction fuel with
  | zero =>
    intro s hle _ hfuel
    omega
  | succ fuel ih =>
    intro s hle henough hfuel
    by_cases hfull : target ≤ s.frame.length
    · refine ⟨.ok (), s.inner, s.frame, ?_, rfl, le_rfl, .inl ⟨rfl, by omega, le_rfl⟩⟩
      exact loop_lastTurn (.done (if_pos hfull))
    obtain ⟨answers, hanswers, hpoll⟩ | ⟨n, answers, hn, hnle, hless, hpoll⟩ :=
      Transport.pollRead_cases (show 0 < target - s.frame.length by omega) s.inner
    · refine ⟨.error (.error .pending), { s.inner with answers := answers }, s.frame, ?_, rfl,
        le_rfl, .inr ⟨rfl, by omega, by rw [hanswers]; exact Nat.lt_succ_self _⟩⟩
      refine loop_lastTurn (.stopped ?_)
      unfold fillTurn
      rw [if_neg hfull, hpoll]
    have hne : s.inner.bytes.take n ≠ [] := by
      intro hnil
      have hzero := congrArg List.length hnil
      rw [length_take, length_nil] at hzero
      omega
    have hturn : fillTurn target s = (.ok (.more ()), { s with
        inner := ⟨s.inner.bytes.drop n, answers⟩
        frame := s.frame ++ s.inner.bytes.take n }) := by
      unfold fillTurn
      rw [if_neg hfull, hpoll]
      exact if_neg hne
    obtain ⟨res, t, frame, hrest, hsame, hgrown, hend⟩ := @ih { s with
        inner := ⟨s.inner.bytes.drop n, answers⟩
        frame := s.frame ++ s.inner.bytes.take n }
      (by simp; omega) (by simp; omega) (by simp; omega)
    refine ⟨res, t, frame, ?_, ?_, ?_, ?_⟩
    · rw [loop_more hturn, hrest]
    · rw [hsame]
      simp
    · simp at hgrown
      omega
    · exact hend.imp (fun h => ⟨h.1, h.2.1, le_trans h.2.2 hless⟩)
        (fun h => ⟨h.1, h.2.1, lt_of_lt_of_le h.2.2 hless⟩)

theorem fill_spec {target : Nat} {s : DecompressingStream} (hle : s.frame.length ≤ target)
    (henough : target ≤ s.frame.length + s.inner.bytes.length) :
    Filled target s (fill target s) :=
  fillLoop_filled (target + 1) hle henough (by omega)

theorem fill_full {target : Nat} {s : DecompressingStream} (h : target ≤ s.frame.length) :
    fill target s = (.ok (), s) := loop_lastTurn (.done (if_pos h))

/-- How much of a frame there is between two polls: less than its header, or its header
with the length of the frame known. -/
def Begun {codec : Codec} (f : Framed codec) (frame : Bytes) (frameLen : Nat) : Prop :=
  (frame.length < frameHeaderTotal ∧ frameLen = 0) ∨
    (frameHeaderTotal ≤ frame.length ∧ frame.length ≤ f.wire.length ∧ frameLen = f.wire.length)

section

variable {codec : Codec} (lawful : codec.Lawful) {f : Framed codec} {s : DecompressingStream}
  {more : Bytes}
include lawful

theorem fill_openNext (hcodec : s.codec = codec) (hbytes : s.frame ++ s.inner.bytes = f.wire ++ more)
    (hframe : s.frame.length ≤ f.wire.length) (hlen : s.frameLen = f.wire.length)
    (hbudget : s.produced + f.payload.length ≤ maxBlockBytes) :
    (∃ answers, answers.length ≤ s.inner.answers.length ∧
      (do fillFrame; openNext) s
        = (.ok (), { s with
            inner := ⟨more, answers⟩, frame := [], frameLen := 0
            produced := s.produced + f.payload.length, buf := f.payload })) ∨
    ∃ t frame, t.answers.length < s.inner.answers.length ∧ frame.length ≤ f.wire.length ∧
      s.frame.length ≤ frame.length ∧ frame ++ t.bytes = f.wire ++ more ∧
      (do fillFrame; openNext) s
        = (.error (.error .pending), { s with inner := t, frame := frame }) := by
  obtain ⟨res, t, frame, hfill, hsame, hgrown, ⟨rfl, hfull, hans⟩ | ⟨rfl, hpart, hans⟩⟩ :=
    @fill_spec f.wire.length s hframe (by
      have htotal := congrArg List.length hbytes
      simp only [length_append] at htotal
      omega)
  · -- the whole frame is there
    obtain ⟨rfl, hmore⟩ := append_inj (hsame.trans hbytes) hfull
    refine .inl ⟨t.answers, hans, ?_⟩
    have hfill' : fillFrame s
        = (.ok (), { s with inner := t, frame := f.wire }) :=
      (congrArg (fun n => fill n s) hlen).trans hfill
    rw [bind_ok hfill']
    unfold openNext
    rw [hcodec, f.decodeFrameBytes_framed lawful]
    dsimp only
    rw [checkedBlockBytes_of_le hbudget, ← hmore]
  · refine .inr ⟨t, frame, hans, by omega, hgrown, hsame.trans hbytes, ?_⟩
    have hfill' : fillFrame s
        = (.error (.error .pending), { s with inner := t, frame := frame }) :=
      (congrArg (fun n => fill n s) hlen).trans hfill
    rw [bind_error hfill']

theorem sizeFrame_header (hframe : s.frame = f.wire.take frameHeaderTotal) (hlen : s.frameLen = 0) :
    sizeFrame s = (.ok (), { s with frameLen := f.wire.length }) := by
  have hsize := f.compressedSize_header lawful
  have hlong := f.length_wire lawful
  have hsmall := f.wire_small
  unfold sizeFrame
  rw [if_pos hlen, hframe]
  rw [if_neg (by unfold frameHeaderTotal at hlong; omega), if_neg (by omega), hsize]

/-- **Pulling a frame**: its payload is there, or the poll is pending with a part of the
frame taken. -/
theorem pollPullFrame_spec (hcodec : s.codec = codec)
    (hbytes : s.frame ++ s.inner.bytes = f.wire ++ more) (hbegun : Begun f s.frame s.frameLen)
    (hbudget : s.produced + f.payload.length ≤ maxBlockBytes) :
    (∃ answers, answers.length ≤ s.inner.answers.length ∧
      pollPullFrame s = (.ok (), { s with
        inner := ⟨more, answers⟩, frame := [], frameLen := 0
        produced := s.produced + f.payload.length, buf := f.payload })) ∨
    ∃ t frame frameLen, t.answers.length < s.inner.answers.length ∧ Begun f frame frameLen ∧
      frame ++ t.bytes = f.wire ++ more ∧
      pollPullFrame s = (.error (.error .pending),
        { s with inner := t, frame := frame, frameLen := frameLen }) := by
  unfold pollPullFrame
  obtain ⟨hshort, hlen⟩ | ⟨hlong, hle, hlen⟩ := hbegun
  · have htotal := congrArg List.length hbytes
    have hwire := f.length_wire lawful
    simp only [length_append] at htotal
    obtain ⟨res, t, frame, hfill, hsame, hgrown, ⟨rfl, hfull, hans⟩ | ⟨rfl, hpart, hans⟩⟩ :=
      @fill_spec frameHeaderTotal s (by omega) (by omega)
    · rw [bind_ok hfill]
      have hheader : frame = f.wire.take frameHeaderTotal := by
        have htake := congrArg (List.take frameHeaderTotal) (hsame.trans hbytes)
        rwa [take_left' hfull, take_append_of_le_length hwire] at htake
      have hsize := sizeFrame_header lawful (s := { s with inner := t, frame := frame }) hheader hlen
      rw [bind_ok hsize]
      obtain ⟨answers, hans', hrest⟩ | ⟨t', frame', hans', hle', hge', hsame', hrest⟩ :=
        @fill_openNext codec lawful f { s with inner := t, frame := frame, frameLen := f.wire.length }
          more hcodec (hsame.trans hbytes) (by show frame.length ≤ _; omega) rfl hbudget
      · exact .inl ⟨answers, le_trans hans' hans, hrest⟩
      refine .inr ⟨t', frame', f.wire.length, lt_of_lt_of_le hans' hans, .inr ⟨?_, hle', rfl⟩,
        hsame', hrest⟩
      have hge'' : frame.length ≤ frame'.length := hge'
      omega
    · rw [bind_error hfill]
      exact .inr ⟨t, frame, s.frameLen, hans, .inl ⟨hpart, hlen⟩, hsame.trans hbytes, rfl⟩
  · rw [bind_ok (fill_full hlong)]
    have hsize : sizeFrame s = (.ok (), s) := by
      have hpos := f.length_wire lawful
      unfold sizeFrame
      rw [if_neg (by unfold frameHeaderTotal at hpos; unfold checksumLen at hpos; omega)]
    rw [bind_ok hsize]
    obtain ⟨answers, hans, hrest⟩ | ⟨t, frame, hans, hle', hge, hsame, hrest⟩ :=
      fill_openNext lawful hcodec hbytes hle hlen hbudget
    · exact .inl ⟨answers, hans, hrest⟩
    · exact .inr ⟨t, frame, s.frameLen, hans, .inr ⟨by omega, hle', hlen⟩, hsame, hrest⟩

end

/-! ## §5. Polls one after the other. -/

section

variable {codec : Codec}

/-- Between two polls: of the frames, some have been decoded and their payload is
served or in the buffer, and the others are on the wire, the next one perhaps begun. -/
structure Serving (past coming : List (Framed codec)) (rest served : Bytes)
    (s : DecompressingStream) : Prop extends Unserved past served s.buf s.produced where
  codec_eq : s.codec = codec
  not_plain : s.plain = false
  onWire : s.frame ++ s.inner.bytes = wires coming ++ rest
  begun : s.frame = [] ∧ s.frameLen = 0 ∨
    s.buf = [] ∧ ∃ f more, coming = f :: more ∧ Begun f s.frame s.frameLen

/-- What a poll may answer: some of the bytes that follow, out of whole frames, or
`Pending` after a transport that was pending. -/
def Answers (fs : List (Framed codec)) (rest served : Bytes) (want : Nat)
    (s : DecompressingStream) (res : Except (Stop Halt) Bytes) (s' : DecompressingStream) :
    Prop :=
  (∃ bs past coming, res = .ok bs ∧ bs ≠ [] ∧ bs.length ≤ want ∧ fs = past ++ coming ∧
    Serving past coming rest (served ++ bs) s' ∧
    WholeFrames fs rest (served ++ bs) s'.frame s'.inner.bytes ∧
    s'.inner.answers.length ≤ s.inner.answers.length) ∨
  (∃ past coming, res = .error (.error .pending) ∧ fs = past ++ coming ∧
    Serving past coming rest served s' ∧ s'.inner.answers.length < s.inner.answers.length)

variable {past coming : List (Framed codec)} {rest served : Bytes} {want : Nat}
  {s : DecompressingStream}

theorem pollTurn_buffered {s₀ : DecompressingStream} (h : Serving past coming rest served s)
    (hless : s.inner.answers.length ≤ s₀.inner.answers.length) (hwant : 0 < want)
    (hbuf : s.buf ≠ []) :
    ∃ bs s', pollTurn want s = (.ok (.done bs), s') ∧
      Answers (past ++ coming) rest served want s₀ (.ok bs) s' := by
  refine ⟨s.buf.take want, { s with buf := s.buf.drop want }, if_pos hbuf, ?_⟩
  obtain ⟨hframe, hlen⟩ : s.frame = [] ∧ s.frameLen = 0 := by
    obtain hclean | ⟨hempty, _⟩ := h.begun
    · exact hclean
    · exact absurd hempty hbuf
  have hwire := h.onWire
  rw [hframe] at hwire
  obtain ⟨hne, hleft, hwhole⟩ := h.serve hbuf hwant coming rest
  refine .inl ⟨s.buf.take want, past, coming, rfl, hne, length_take_le _ _, rfl, ?_, ?_, hless⟩
  · exact ⟨hleft, h.codec_eq, h.not_plain, h.onWire, .inl ⟨hframe, hlen⟩⟩
  show WholeFrames _ _ _ s.frame s.inner.bytes
  rw [hframe, show s.inner.bytes = wires coming ++ rest from hwire]
  exact hwhole

/-- The next frame is there, or the poll is pending with a part of it taken. -/
theorem pollTurn_pulls (lawful : codec.Lawful) {f : Framed codec} {more : List (Framed codec)}
    (h : Serving past (f :: more) rest served s) (hwant : 0 < want) (hbuf : s.buf = [])
    (hcap : (payloads (past ++ f :: more)).length ≤ maxBlockBytes) :
    (∃ s', pollTurn want s = (.ok (.more ()), s') ∧ Serving (past ++ [f]) more rest served s' ∧
      s'.inner.answers.length ≤ s.inner.answers.length) ∨
    ∃ s', pollTurn want s = (.error (.error .pending), s') ∧
      Serving past (f :: more) rest served s' ∧
      s'.inner.answers.length < s.inner.answers.length := by
  have hturn : pollTurn want s = (do pollPullFrame; return Turn.more ()) s := by
    unfold pollTurn
    rw [if_neg (by rw [hbuf]; simp), if_neg (by omega), if_neg (by rw [h.not_plain]; decide)]
  have hbegun : Begun f s.frame s.frameLen := by
    obtain ⟨hframe, hlen⟩ | ⟨_, f', more', hcoming, hbegun⟩ := h.begun
    · exact .inl ⟨by rw [hframe]; decide, hlen⟩
    · cases hcoming
      exact hbegun
  have hwire : s.frame ++ s.inner.bytes = f.wire ++ (wires more ++ rest) := by
    rw [h.onWire, wires_cons, append_assoc]
  have hleft := h.toUnserved
  obtain ⟨answers, hless, hpull⟩ | ⟨t, frame, frameLen, hless, hbegun', hwire', hpull⟩ :=
    pollPullFrame_spec lawful h.codec_eq hwire hbegun (hleft.budget hcap)
  · rw [bind_ok hpull] at hturn
    rw [hbuf] at hleft
    exact .inl ⟨_, hturn, ⟨hleft.pull f, h.codec_eq, h.not_plain, rfl, .inl ⟨rfl, rfl⟩⟩, hless⟩
  · rw [bind_error hpull] at hturn
    refine .inr ⟨_, hturn, ⟨hleft, h.codec_eq, h.not_plain, ?_,
      .inr ⟨hbuf, f, more, rfl, hbegun'⟩⟩, hless⟩
    rw [wires_cons, append_assoc]
    exact hwire'

/-- **One poll** for at least a byte, while there are bytes to serve. -/
theorem pollRead_serves (lawful : codec.Lawful) (h : Serving past coming rest served s)
    (hwant : 0 < want) (hmore : served.length < (payloads (past ++ coming)).length)
    (hcap : (payloads (past ++ coming)).length ≤ maxBlockBytes) :
    ∃ res s', pollRead want s = (res, s') ∧ Answers (past ++ coming) rest served want s res s' := by
  have hlength := congrArg List.length h.onWire
  have hframes := length_le_wires lawful coming
  simp only [length_append] at hlength
  refine loop_serves buf (I := fun past coming s' => Serving past coming rest served s' ∧
    s'.inner.answers.length ≤ s.inner.answers.length) (fun h => h.1.ne_nil hmore)
    ?_ ?_ coming rfl ⟨h, le_rfl⟩ (by omega)
  · intro past coming s' hfs h hbuf
    exact hfs ▸ pollTurn_buffered h.1 h.2 hwant hbuf
  · intro past f more s' hfs h hbuf
    rw [← hfs] at hcap
    obtain ⟨s'', hturn, hserving, hless⟩ | ⟨s'', hturn, hserving, hless⟩ :=
      pollTurn_pulls lawful h.1 hwant hbuf hcap
    · exact .inl ⟨s'', hturn, hserving, le_trans hless h.2⟩
    · exact .inr ⟨_, s'', hturn, .inr ⟨past, f :: more, rfl, hfs.symm, hserving,
        lt_of_lt_of_le hless h.2⟩⟩

theorem pollRead_zero (s : DecompressingStream) : pollRead 0 s = (.ok [], s) := by
  by_cases hbuf : s.buf ≠ []
  · exact loop_lastTurn (.done (if_pos hbuf))
  refine loop_lastTurn (.done ?_)
  unfold pollTurn
  rw [if_neg hbuf, if_pos rfl]

theorem new_serving (lawful : codec.Lawful) {f : Framed codec} {fs : List (Framed codec)}
    {t : Transport} (hbytes : t.bytes = wires (f :: fs) ++ rest) :
    ∃ s t', new codec none t = (.ok s, t') ∧ Serving [] (f :: fs) rest [] s := by
  have hlong := f.length_wire lawful
  have hsmall := f.wire_small
  have hsize := f.compressedSize_header lawful
  rw [wires_cons, append_assoc] at hbytes
  obtain ⟨first, checksum, sizes, body, t₁, t₂, a, hread₁, hread₂, hread₃, hmethod, hheader, _,
    hframe⟩ := f.sniff lawful hbytes
  refine ⟨⟨codec, ⟨body ++ (wires fs ++ rest), a⟩, [], false, 0, f.wire.take frameHeaderTotal,
    f.wire.length⟩, ⟨body ++ (wires fs ++ rest), a⟩, ?_, ?_⟩
  · unfold new
    rw [bind_ok hread₁]
    dsimp only
    rw [bind_ok hread₂, hmethod]
    dsimp only
    rw [bind_ok hread₃, hheader]
    rw [if_neg (by unfold frameHeaderTotal at hlong; omega), if_neg (by omega), hsize]
    rfl
  · refine ⟨⟨rfl, rfl, fun hne => absurd rfl hne⟩, rfl, rfl, ?_, .inr ⟨rfl, f, fs, rfl, .inr
      ⟨by rw [length_take]; omega, by rw [length_take]; omega, rfl⟩⟩⟩
    show f.wire.take frameHeaderTotal ++ (body ++ (wires fs ++ rest)) = wires (f :: fs) ++ rest
    rw [wires_cons, ← append_assoc, hframe, append_assoc]

end

end DecompressingStream

/-! ## §6. Reads one after the other. -/

namespace DecompressingReader

section

variable {codec : Codec}

/-- Between two reads. -/
structure Serving (past coming : List (Framed codec)) (rest served : Bytes)
    (r : DecompressingReader) : Prop extends Unserved past served r.buf r.produced where
  codec_eq : r.codec = codec
  not_plain : r.plain = false
  onWire : r.inner.bytes = wires coming ++ rest

variable {r : DecompressingReader}

theorem onInner_run {α : Type} {x : Read Transport α}
    {res : Readout α} {t : Transport} (h : x r.inner = (res, t)) :
    onInner x r = (res, { r with inner := t }) := by
  unfold onInner
  rw [h]

theorem swapInDecoded_framed (lawful : codec.Lawful) (f : Framed codec) {refuse : Error → Error}
    {budget : Error} (hcodec : r.codec = codec)
    (hbudget : r.produced + f.payload.length ≤ maxBlockBytes) :
    swapInDecoded refuse budget f.wire r
      = (.ok (), { r with produced := r.produced + f.payload.length, buf := f.payload }) := by
  unfold swapInDecoded
  rw [hcodec, f.decodeFrameBytes_framed lawful]
  dsimp only
  rw [checkedBlockBytes_of_le hbudget]

/-- **Pulling a frame.** -/
theorem pullNextFrame_framed (lawful : codec.Lawful) {f : Framed codec}
    {more : Bytes} (hcodec : r.codec = codec) (hbytes : r.inner.bytes = f.wire ++ more)
    (hbudget : r.produced + f.payload.length ≤ maxBlockBytes) :
    ∃ answers, pullNextFrame r = (.ok true, { r with
      inner := ⟨more, answers⟩, produced := r.produced + f.payload.length, buf := f.payload }) := by
  have hlong := f.length_wire lawful
  have hsmall := f.wire_small
  have hsize := f.compressedSize_header lawful
  obtain ⟨first, checksum, sizes, body, hwire, hfirst, hchecksum, hsizes, _, hheader, hbody, hframe⟩ :=
    f.sniffed lawful
  have hstream : r.inner.bytes = first ++ (checksum ++ sizes ++ (body ++ more)) := by
    rw [hbytes, hwire]
    simp
  -- one byte to tell that there is a frame
  obtain ⟨n, a₁, hn, hnle, hread⟩ :=
    Transport.readFrom_cases (show 0 < 1 from Nat.one_pos) r.inner.answers r.inner.bytes
  obtain rfl : n = 1 := by omega
  rw [hstream, take_left' hfirst, drop_left' hfirst] at hread
  have hprobe : onInner (Transport.read 1) r
      = (.ok first, { r with inner := ⟨checksum ++ sizes ++ (body ++ more), a₁⟩ }) := by
    refine onInner_run ?_
    unfold Transport.read
    rw [hstream, hread]
  obtain ⟨a₂, hread₂⟩ := @Transport.readExact_ok (frameHeaderTotal - 1)
    ⟨checksum ++ sizes ++ (body ++ more), a₁⟩ (checksum ++ sizes) (body ++ more) rfl
    (by rw [length_append, hchecksum, hsizes]; rfl)
  obtain ⟨a₃, hread₃⟩ := @Transport.readExact_ok _ ⟨body ++ more, a₂⟩ body more rfl hbody
  refine ⟨a₃, ?_⟩
  unfold pullNextFrame
  rw [bind_ok hprobe, if_neg (by rintro rfl; cases hfirst), bind_ok (onInner_run hread₂)]
  rw [← append_assoc first, hheader]
  rw [if_neg (by unfold frameHeaderTotal at hlong; omega), if_neg (by omega),
    bind_ok (onInner_run hread₃), hframe]
  exact bind_ok (swapInDecoded_framed lawful f (r := { r with inner := ⟨more, a₃⟩ }) hcodec hbudget)

variable {past coming : List (Framed codec)} {rest served : Bytes} {want : Nat}
  {r : DecompressingReader}

/-- What a read answers: some of the bytes that follow, out of whole frames. -/
def Answers (fs : List (Framed codec)) (rest served : Bytes) (want : Nat)
    (res : Readout Bytes) (r : DecompressingReader) : Prop :=
  ∃ bs past coming, res = .ok bs ∧ bs ≠ [] ∧ bs.length ≤ want ∧ fs = past ++ coming ∧
    Serving past coming rest (served ++ bs) r ∧
    WholeFrames fs rest (served ++ bs) [] r.inner.bytes

theorem readTurn_buffered (h : Serving past coming rest served r) (hwant : 0 < want)
    (hbuf : r.buf ≠ []) :
    ∃ bs r', readTurn want r = (.ok (.done bs), r') ∧
      Answers (past ++ coming) rest served want (.ok bs) r' := by
  refine ⟨r.buf.take want, { r with buf := r.buf.drop want }, if_pos hbuf, ?_⟩
  obtain ⟨hne, hleft, hwhole⟩ := h.serve hbuf hwant coming rest
  refine ⟨r.buf.take want, past, coming, rfl, hne, length_take_le _ _, rfl, ?_, ?_⟩
  · exact ⟨hleft, h.codec_eq, h.not_plain, h.onWire⟩
  · rw [h.onWire]
    exact hwhole

theorem readTurn_pulls (lawful : codec.Lawful) {f : Framed codec} {more : List (Framed codec)}
    (h : Serving past (f :: more) rest served r) (hbuf : r.buf = [])
    (hcap : (payloads (past ++ f :: more)).length ≤ maxBlockBytes) :
    ∃ r', readTurn want r = (.ok (.more ()), r') ∧ Serving (past ++ [f]) more rest served r' := by
  have hturn : readTurn want r = (do
      if ← pullNextFrame then return Turn.more ()
      else return Turn.done []) r := by
    unfold readTurn
    rw [if_neg (by rw [hbuf]; simp), if_neg (by rw [h.not_plain]; decide)]
  have hwire : r.inner.bytes = f.wire ++ (wires more ++ rest) := by
    rw [h.onWire, wires_cons, append_assoc]
  have hleft := h.toUnserved
  obtain ⟨answers, hpull⟩ := pullNextFrame_framed lawful h.codec_eq hwire (hleft.budget hcap)
  rw [bind_ok hpull] at hturn
  rw [hbuf] at hleft
  exact ⟨_, hturn, hleft.pull f, h.codec_eq, h.not_plain, rfl⟩

/-- **One read** of at least a byte, while there are bytes to serve. -/
theorem read_serves (lawful : codec.Lawful) (h : Serving past coming rest served r)
    (hwant : 0 < want) (hmore : served.length < (payloads (past ++ coming)).length)
    (hcap : (payloads (past ++ coming)).length ≤ maxBlockBytes) :
    ∃ res r', read want r = (res, r') ∧ Answers (past ++ coming) rest served want res r' := by
  unfold read
  rw [if_neg (by omega)]
  have hlength := congrArg List.length h.onWire
  have hframes := length_le_wires lawful coming
  simp only [length_append] at hlength
  refine loop_serves buf (I := fun past coming r => Serving past coming rest served r)
    (fun h => h.ne_nil hmore) ?_ ?_ coming rfl h (by omega)
  · intro past coming r' hfs h hbuf
    exact hfs ▸ readTurn_buffered h hwant hbuf
  · intro past f more r' hfs h hbuf
    rw [← hfs] at hcap
    exact .inl (readTurn_pulls lawful h hbuf hcap)

theorem new_serving (lawful : codec.Lawful) {f : Framed codec} {fs : List (Framed codec)}
    {t : Transport} (hbytes : t.bytes = wires (f :: fs) ++ rest)
    (hcap : (payloads (f :: fs)).length ≤ maxBlockBytes) :
    ∃ r, new codec t = (.ok (), r) ∧ Serving [f] fs rest [] r := by
  have hlong := f.length_wire lawful
  have hsmall := f.wire_small
  have hsize := f.compressedSize_header lawful
  rw [wires_cons, append_assoc] at hbytes
  obtain ⟨first, checksum, sizes, body, t₁, t₂, a₃, hread₁, hread₂, hread₃, hmethod, hheader, hbody,
    hframe⟩ := f.sniff lawful hbytes
  obtain ⟨a₄, hread₄⟩ := @Transport.readExact_ok _ ⟨body ++ (wires fs ++ rest), a₃⟩ _ _ rfl hbody
  have hbudget : 0 + f.payload.length ≤ maxBlockBytes := by
    rw [payloads_cons, length_append] at hcap
    omega
  refine ⟨⟨codec, ⟨wires fs ++ rest, a₄⟩, f.payload, false, 0 + f.payload.length⟩, ?_, ?_⟩
  · unfold new
    rw [bind_ok (onInner_run hread₁), bind_ok (onInner_run hread₂)]
    rw [hmethod]
    dsimp only
    rw [bind_ok (onInner_run hread₃), hheader, if_neg (by unfold frameHeaderTotal at hlong; omega),
      if_neg (by omega), bind_ok (onInner_run hread₄), hframe]
    exact swapInDecoded_framed lawful f (r := ⟨codec, ⟨wires fs ++ rest, a₄⟩, [], false, 0⟩) rfl hbudget
  · exact ⟨⟨by simp [payloads], by simp [payloads], fun _ => ⟨[], f, rfl, le_rfl⟩⟩, rfl, rfl, rfl⟩

end

end DecompressingReader

/-! ## §7. Any consumer. -/

/-- The bytes a poll has served. -/
def DecompressingStream.got : Except (Stop Halt) Bytes → Bytes
  | .ok bs => bs
  | .error _ => []

/-- A consumer polls for as much as it likes, as long as the body has bytes left; what
it has been served so far. -/
inductive DecompressingStream.Polled (total : Nat) (start : DecompressingStream) :
    Bytes → DecompressingStream → Prop
  | start : Polled total start [] start
  | poll {served : Bytes} {s s' : DecompressingStream} {want : Nat}
      {res : Except (Stop Halt) Bytes} : Polled total start served s →
      (0 < want → served.length < total) → DecompressingStream.pollRead want s = (res, s') →
      Polled total start (served ++ DecompressingStream.got res) s'

/-- The same for a consumer that reads. -/
inductive DecompressingReader.ReadBy (total : Nat) (start : DecompressingReader) :
    Bytes → DecompressingReader → Prop
  | start : ReadBy total start [] start
  | read {served bs : Bytes} {r r' : DecompressingReader} {want : Nat} :
      ReadBy total start served r → (0 < want → served.length < total) →
      DecompressingReader.read want r = (.ok bs, r') → ReadBy total start (served ++ bs) r'

section

variable {codec : Codec} {rest : Bytes}

variable {served : Bytes}

/-- What has been served and what is in the buffer is the beginning of the payloads. -/
theorem prefix_payloads {past coming : List (Framed codec)} {buf : Bytes}
    (h : served ++ buf = payloads past) : served <+: payloads (past ++ coming) := by
  rw [payloads_append, ← h, append_assoc]
  exact prefix_append _ _

theorem DecompressingStream.Polled.serving (lawful : codec.Lawful) {fs : List (Framed codec)}
    {start s : DecompressingStream} (hstart : Serving [] fs rest [] start)
    (hcap : (payloads fs).length ≤ maxBlockBytes)
    (hpolled : Polled (payloads fs).length start served s) :
    ∃ past coming, fs = past ++ coming ∧ Serving past coming rest served s := by
  induction hpolled with
  | start => exact ⟨[], fs, rfl, hstart⟩
  | @poll served s s' want res _ hmore hpoll ih =>
    obtain ⟨past, coming, rfl, hserving⟩ := ih
    by_cases hwant : 0 < want
    · obtain ⟨res', s'', hrun, hans⟩ :=
        pollRead_serves lawful hserving hwant (hmore hwant) hcap
      rw [hpoll] at hrun
      cases hrun
      obtain ⟨bs, past', coming', rfl, _, _, heq, hserving', _⟩ |
        ⟨past', coming', rfl, heq, hserving', _⟩ := hans
      · exact ⟨past', coming', heq, hserving'⟩
      · exact ⟨past', coming', heq, by simpa [got] using hserving'⟩
    · obtain rfl : want = 0 := by omega
      rw [pollRead_zero] at hpoll
      cases hpoll
      exact ⟨past, coming, rfl, by simpa [got] using hserving⟩

theorem DecompressingReader.ReadBy.serving (lawful : codec.Lawful) {f : Framed codec}
    {fs : List (Framed codec)} {start r : DecompressingReader}
    (hstart : Serving [f] fs rest [] start) (hcap : (payloads (f :: fs)).length ≤ maxBlockBytes)
    (hread : ReadBy (payloads (f :: fs)).length start served r) :
    ∃ past coming, f :: fs = past ++ coming ∧ Serving past coming rest served r := by
  induction hread with
  | start => exact ⟨[f], fs, rfl, hstart⟩
  | @read served bs r r' want _ hmore hrun ih =>
    obtain ⟨past, coming, heq, hserving⟩ := ih
    rw [heq] at hmore hcap ⊢
    by_cases hwant : 0 < want
    · obtain ⟨res, r'', hrun', hans⟩ := read_serves lawful hserving hwant (hmore hwant) hcap
      rw [hrun] at hrun'
      cases hrun'
      obtain ⟨_, past', coming', hres, _, _, heq', hserving', _⟩ := hans
      cases hres
      exact ⟨past', coming', heq', hserving'⟩
    obtain rfl : want = 0 := by omega
    cases hrun
    exact ⟨past, coming, rfl, by simpa using hserving⟩

/-- **Decompression is transparent.**  A body in one or more frames within the caps, on a
transport that hands it out in any pieces: the polled stream whose sniffed bytes come in
time, and the blocking reader, serve the payloads in order, to any consumer.  A poll or
read for some bytes, while the body has bytes left, gets some, out of whole frames of
which the last was needed; or, for the stream, it is pending because the transport was. -/
theorem decompressing_transparent (lawful : codec.Lawful) (f : Framed codec)
    (fs : List (Framed codec)) (rest : Bytes) (t : Transport)
    (hbytes : t.bytes = wires (f :: fs) ++ rest)
    (hcap : (payloads (f :: fs)).length ≤ maxBlockBytes) :
    (∃ s₀ t', DecompressingStream.new codec none t = (.ok s₀, t') ∧
      ∀ served s, s₀.Polled (payloads (f :: fs)).length served s →
        served <+: payloads (f :: fs) ∧
        ∀ want, 0 < want → served.length < (payloads (f :: fs)).length →
          ∃ res s', DecompressingStream.pollRead want s = (res, s') ∧
            ((∃ bs, res = .ok bs ∧ bs ≠ [] ∧ bs.length ≤ want ∧
                served ++ bs <+: payloads (f :: fs) ∧
                WholeFrames (f :: fs) rest (served ++ bs) s'.frame
                  s'.inner.bytes) ∨
              (res = .error (.error .pending) ∧
                s'.inner.answers.length < s.inner.answers.length))) ∧
    ∃ r₀, DecompressingReader.new codec t = (.ok (), r₀) ∧
      ∀ served r, r₀.ReadBy (payloads (f :: fs)).length served r →
        served <+: payloads (f :: fs) ∧
        ∀ want, 0 < want → served.length < (payloads (f :: fs)).length →
          ∃ bs r', DecompressingReader.read want r = (.ok bs, r') ∧ bs ≠ [] ∧ bs.length ≤ want ∧
            served ++ bs <+: payloads (f :: fs) ∧
            WholeFrames (f :: fs) rest (served ++ bs) [] r'.inner.bytes := by
  constructor
  · obtain ⟨s₀, t', hnew, hstart⟩ := DecompressingStream.new_serving lawful hbytes
    refine ⟨s₀, t', hnew, ?_⟩
    intro served s hpolled
    obtain ⟨past, coming, heq, hserving⟩ := hpolled.serving lawful hstart hcap
    rw [heq] at hcap ⊢
    refine ⟨prefix_payloads hserving.buffered, ?_⟩
    intro want hwant hmore
    obtain ⟨res, s', hrun, hans⟩ :=
      DecompressingStream.pollRead_serves lawful hserving hwant hmore hcap
    refine ⟨res, s', hrun, ?_⟩
    obtain ⟨bs, past', coming', hres, hne, hlen, heq', hserving', hwhole, _⟩ |
      ⟨past', coming', hres, heq', hserving', hless⟩ := hans
    · exact .inl ⟨bs, hres, hne, hlen, heq' ▸ prefix_payloads hserving'.buffered, hwhole⟩
    · exact .inr ⟨hres, hless⟩
  · obtain ⟨r₀, hnew, hstart⟩ := DecompressingReader.new_serving lawful hbytes hcap
    refine ⟨r₀, hnew, ?_⟩
    intro served r hread
    obtain ⟨past, coming, heq, hserving⟩ := hread.serving lawful hstart hcap
    rw [heq] at hcap ⊢
    refine ⟨prefix_payloads hserving.buffered, ?_⟩
    intro want hwant hmore
    obtain ⟨res, r', hrun, bs, past', coming', rfl, hne, hlen, heq', hserving', hwhole⟩ :=
      DecompressingReader.read_serves lawful hserving hwant hmore hcap
    exact ⟨bs, r', hrun, hne, hlen, heq' ▸ prefix_payloads hserving'.buffered, hwhole⟩

/-- A frame over the cap is refused by both readers as soon as its header is read. -/
theorem new_refuses (lawful : codec.Lawful) (e : Encoded codec)
    (hbig : checksumLen + maxFrameSize < e.wire.length) {t : Transport}
    (hbytes : t.bytes = e.wire ++ rest) :
    (∃ err t', DecompressingStream.new codec none t = (.error (.error (.compression err)), t')) ∧
    ∃ err r, DecompressingReader.new codec t = (.error (.error (.compression err)), r) := by
  have hlong := e.length_wire lawful
  have hsize := e.compressedSize_header lawful
  obtain ⟨first, checksum, sizes, body, t₁, t₂, a, hread₁, hread₂, hread₃, hmethod, hheader, _, _⟩ :=
    e.sniff lawful hbytes
  constructor
  · refine ⟨"compressed_size " ++ toString (compressedSize (e.wire.take frameHeaderTotal)) ++ " exceeds "
      ++ toString maxFrameSize ++ " byte frame cap", ⟨body ++ rest, a⟩, ?_⟩
    unfold DecompressingStream.new
    rw [bind_ok hread₁]
    dsimp only
    rw [bind_ok hread₂, hmethod]
    dsimp only
    rw [bind_ok hread₃, hheader, if_neg (by unfold frameHeaderTotal at hlong; omega),
      if_pos (by omega)]
    rfl
  · refine ⟨"compressed_size " ++ toString (compressedSize (e.wire.take frameHeaderTotal)) ++ " exceeds "
      ++ toString maxFrameSize ++ " byte frame cap", ⟨codec, ⟨body ++ rest, a⟩, [], false, 0⟩, ?_⟩
    unfold DecompressingReader.new
    rw [bind_ok (DecompressingReader.onInner_run hread₁),
      bind_ok (DecompressingReader.onInner_run hread₂)]
    rw [hmethod]
    dsimp only
    rw [bind_ok (DecompressingReader.onInner_run hread₃), hheader,
      if_neg (by unfold frameHeaderTotal at hlong; omega), if_pos (by omega)]
    rfl

end

/-- A body of 64 MiB and one byte, stored in one frame: `encode_frame` writes the frame, and
neither reader takes it. -/
theorem oversizedFrame_refused :
    ∃ e : Encoded copyCodec, e.payload.length = maxFrameSize + 1 ∧
      ∀ t : Transport, t.bytes = e.wire →
        (∃ err t', DecompressingStream.new copyCodec none t
          = (.error (.error (.compression err)), t')) ∧
        ∃ err r, DecompressingReader.new copyCodec t = (.error (.error (.compression err)), r) := by
  have hlen : (List.replicate (maxFrameSize + 1) (0 : UInt8)).length = maxFrameSize + 1 :=
    length_replicate
  have hfield : headerLen + (List.replicate (maxFrameSize + 1) (0 : UInt8)).length < 2 ^ 32 := by
    rw [hlen]
    decide
  refine ⟨.copy (copyCodec_body .none _) hfield, hlen, ?_⟩
  intro t hbytes
  refine @new_refuses copyCodec [] copyCodec_lawful _ ?_ t (by rw [hbytes, append_nil])
  rw [Encoded.length_copy _ copyCodec_lawful, hlen]
  unfold frameHeaderTotal
  omega

/-- Two bytes under one method, and one more under another. -/
def lz4Frame : Framed copyCodec := .copy (copyCodec_body .lz4 [7, 8]) copyCodec_lawful (by decide)

def zstdFrame : Framed copyCodec := .copy (copyCodec_body .zstd [9]) copyCodec_lawful (by decide)

/-- The two frames on a transport that hands out one byte at a time. -/
def bytewise : Transport := ⟨wires [lz4Frame, zstdFrame] ++ [5], .replicate 60 (.ready 1)⟩

/-- The first read gets the two bytes of the first frame, and the next one goes on in the
second frame. -/
theorem decompressing_transparent_bytewise :
    copyCodec.Lawful ∧ (payloads [lz4Frame, zstdFrame]).length ≤ maxBlockBytes ∧
    ∃ r₀ r₁, DecompressingReader.new copyCodec bytewise = (.ok (), r₀) ∧
      DecompressingReader.read 8 r₀ = (.ok [7, 8], r₁) ∧
      ∃ bs r₂, DecompressingReader.read 8 r₁ = (.ok bs, r₂) ∧ bs ≠ [] ∧
        [7, 8] ++ bs <+: [7, 8, 9] := by
  obtain ⟨-, r₀, hnew, hreads⟩ := decompressing_transparent copyCodec_lawful lz4Frame [zstdFrame]
    [5] bytewise rfl (by decide)
  obtain rfl : (DecompressingReader.new copyCodec bytewise).2 = r₀ := by rw [hnew]
  have hread : DecompressingReader.read 8 (DecompressingReader.new copyCodec bytewise).2
      = (.ok [7, 8], _) := rfl
  obtain ⟨bs, r₂, hnext, hne, -, hserved, -⟩ :=
    (hreads _ _ (.read .start (fun _ => by decide) hread)).2 8 (by decide) (by decide)
  exact ⟨copyCodec_lawful, by decide, _, _, hnew, hread, bs, r₂, hnext, hne, hserved⟩

end StClickHouse
