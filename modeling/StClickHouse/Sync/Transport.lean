/-
  StClickHouse.Sync.Transport
  **THE SOCKET OF THE SYNC CLIENT AND THE READERS OVER IT.**

  The bytes of the server arrive in segments, and a read hands over bytes of one of them.
  `TransportReader` (`sync/chunked.rs`) is a buffered reader over the socket that lives
  for one call; `ChunkedReader` takes the chunk lengths out.  A `Line` is the socket
  without its segmentation, read byte by byte and never ahead.
-/
import StClickHouse.Sync.Lockstep
import StClickHouse.Transport.PacketWriter

namespace StClickHouse

open ByteReader List

namespace Sync

/-! ## §1. The socket. -/

/-- What a read of the socket finds: some bytes, or a failure between two bytes. -/
inductive Segment where
  | bytes (first : UInt8) (rest : Bytes)
  | fault (kind : IoKind)
  deriving Repr, DecidableEq

/-- What a connection has besides the bytes that arrive: its writes, the answers of the
    clock to the deadline checks (past the end there is time left), the framing of the
    packets it sends, and whether the socket has been shut down. -/
structure Control where
  outlet : Outlet
  clock : List Bool
  chunkedSend : Bool
  shut : Bool
  deriving Repr, DecidableEq

namespace Control

/-- Writes one after the other; a socket that has been shut down takes none. -/
def write (parts : List Bytes) : Read Control Unit := fun c =>
  if c.shut then (.error (.error (.io .other)), c)
  else match c.outlet.writeParts false parts with
    | (.ok, o) => (.ok (), { c with outlet := o })
    | (.error e, o) => (.error (.error e), { c with outlet := o })
    | (.dropped, o) => (.error .depth, { c with outlet := o })

/-- `write_packet`. -/
def writePacket (pkt : Bytes) : Read Control Unit := fun c =>
  match packetParts c.chunkedSend pkt with
  | .ok parts => write parts c
  | .error e => (.error (.error e), c)

/-- `flush`. -/
def flush : Read Control Unit := write [[]]

/-- `write_native_packet`. -/
def writeNative (pkt : Bytes) : Read Control Unit := do
  writePacket pkt
  flush

/-- `Instant::now() > deadline`. -/
def expired : Read Control Bool := fun c =>
  (.ok (c.clock.headD false), { c with clock := c.clock.tail })

end Control

/-- The socket. -/
structure Transport where
  arrivals : List Segment
  control : Control
  deriving Repr, DecidableEq

/-- The bytes of a segment that are left. -/
def Segment.ofList : Bytes → List Segment
  | [] => []
  | b :: bs => [.bytes b bs]

namespace Transport

/-- `Read::read`: bytes of the first segment, none at the end of the stream. -/
def read (room : Nat) : Read Transport Bytes := fun t =>
  match t.arrivals with
  | [] => (.ok [], t)
  | .fault kind :: later => (.error (.error (.io kind)), { t with arrivals := later })
  | .bytes b bs :: later =>
    (.ok ((b :: bs).take room),
      { t with arrivals := Segment.ofList ((b :: bs).drop room) ++ later })

/-- Write, or look at the clock. -/
def onControl {α : Type} (x : Read Control α) : Read Transport α := fun t =>
  match x t.control with
  | (res, c) => (res, { t with control := c })

end Transport

/-- `Read::read_exact` over a `read`; every turn reads a byte. -/
def readExactBy {σ : Type} (read : Nat → Read σ Bytes) :
    Nat → Nat → Read σ Bytes
  | _, 0 => pure []
  | 0, _ + 1 => tooDeep
  | fuel + 1, n + 1 => do
    let got ← read (n + 1)
    if got = [] then fail (.io .unexpectedEof)
    else do
      let rest ← readExactBy read fuel (n + 1 - got.length)
      return got ++ rest

instance : ByteStream Error Transport where
  readExact n := readExactBy Transport.read n n

instance : Duplex Transport where
  expired := Transport.onControl Control.expired
  writeNative pkt := Transport.onControl (Control.writeNative pkt)

/-! ## §2. Buffered and chunked readers. -/

/-- `TransportReader`: a `BufReader` over the socket. -/
structure TransportReader where
  inner : Transport
  buf : Bytes
  capacity : Nat
  deriving Repr, DecidableEq

namespace TransportReader

/-- A new reader. -/
def new (inner : Transport) (capacity : Nat) : TransportReader := ⟨inner, [], capacity⟩

/-- Use the socket below. -/
def onInner {α : Type} (x : Read Transport α) : Read TransportReader α := fun r =>
  match x r.inner with
  | (res, t) => (res, { r with inner := t })

/-- `fill_buf`: read ahead as much as the buffer holds, if it is empty. -/
def fillBuf : Read TransportReader Unit := fun r =>
  if r.buf = [] then
    match r.inner.read r.capacity with
    | (.ok got, t) => (.ok (), { r with inner := t, buf := got })
    | (.error e, t) => (.error e, { r with inner := t })
  else (.ok (), r)

/-- Serve from the buffer. -/
def serve (room : Nat) : Read TransportReader Bytes := fun r =>
  (.ok (r.buf.take room), { r with buf := r.buf.drop room })

/-- `Read::read`: a read that is larger than an empty buffer goes past it. -/
def read (room : Nat) : Read TransportReader Bytes := fun r =>
  if r.buf = [] ∧ r.capacity ≤ room then onInner (Transport.read room) r
  else (do
    fillBuf
    serve room) r

end TransportReader

instance : ByteStream Error TransportReader where
  readExact n := readExactBy TransportReader.read n n

instance : Duplex TransportReader where
  expired := TransportReader.onInner Duplex.expired
  writeNative pkt := TransportReader.onInner (Duplex.writeNative pkt)

/-- `ChunkedReader` over a reader whose callers stop at the first error: the part of the
    chunk that has not been served.  `turns` bounds the empty chunks in a row. -/
structure Dechunking (σ : Type) where
  inner : σ
  chunk : Bytes
  turns : Nat

namespace Dechunking

variable {σ : Type}

/-- A new reader. -/
def new (inner : σ) (turns : Nat) : Dechunking σ := ⟨inner, [], turns⟩

/-- Use the reader below. -/
def onInner {α : Type} (x : Read σ α) : Read (Dechunking σ) α := fun r =>
  match x r.inner with
  | (res, t) => (res, { r with inner := t })

/-- Serve from a chunk that has been read. -/
def setChunk (payload : Bytes) : Read (Dechunking σ) Unit := fun r =>
  (.ok (), { r with chunk := payload })

/-- Serve from the chunk. -/
def serve (room : Nat) : Read (Dechunking σ) Bytes := fun r =>
  (.ok (r.chunk.take room), { r with chunk := r.chunk.drop room })

variable [ByteStream Error σ]

/-- `read_next_chunk`. -/
def readNextChunk : Nat → Read (Dechunking σ) Unit
  | 0 => tooDeep
  | turns + 1 => do
    let header ← onInner (readExact 4)
    if leNat header = 0 then readNextChunk turns
    else if leNat header > maxChunkLen then fail (.io .invalidData)
    else do
      let payload ← onInner (readExact (leNat header))
      setChunk payload

/-- Read a chunk, if there is nothing left of the last one. -/
def nextChunk : Read (Dechunking σ) Unit := fun r =>
  if r.chunk = [] then readNextChunk r.turns r else (.ok (), r)

/-- `Read::read`. -/
def read (room : Nat) : Read (Dechunking σ) Bytes :=
  if room = 0 then pure []
  else do
    nextChunk
    serve room

instance : ByteStream Error (Dechunking σ) where
  readExact n := readExactBy read n n

instance [Duplex σ] : Duplex (Dechunking σ) where
  expired := onInner Duplex.expired
  writeNative pkt := onInner (Duplex.writeNative pkt)

end Dechunking

/-! ## §3. The line. -/

/-- A byte on the line, or a failure between two bytes. -/
inductive Event where
  | byte (b : UInt8)
  | fault (kind : IoKind)
  deriving Repr, DecidableEq

/-- What a segment puts on the line. -/
def Segment.events : Segment → List Event
  | .bytes b bs => (b :: bs).map .byte
  | .fault kind => [.fault kind]

/-- What segments put on the line. -/
def eventsOf (arrivals : List Segment) : List Event := arrivals.flatMap Segment.events

@[simp] theorem eventsOf_append (mine later : List Segment) :
    eventsOf (mine ++ later) = eventsOf mine ++ eventsOf later :=
  flatMap_append

theorem eventsOf_ofList (bs : Bytes) : eventsOf (Segment.ofList bs) = bs.map .byte := by
  cases bs with
  | nil => rfl
  | cons b bs => exact append_nil _

theorem eventsOf_eq_nil {arrivals : List Segment} (h : eventsOf arrivals = []) : arrivals = [] := by
  cases arrivals with
  | nil => rfl
  | cons seg later => cases seg <;> cases h

/-- The socket without its segmentation. -/
structure Line where
  events : List Event
  control : Control
  deriving Repr, DecidableEq

namespace Line

/-- The next `n` bytes, up to a failure or the end. -/
def take : Nat → List Event → Except IoKind Bytes × List Event
  | 0, events => (.ok [], events)
  | _ + 1, [] => (.error .unexpectedEof, [])
  | _ + 1, .fault kind :: events => (.error kind, events)
  | n + 1, .byte b :: events =>
    match take n events with
    | (.ok bs, rest) => (.ok (b :: bs), rest)
    | (.error kind, rest) => (.error kind, rest)

/-- Write, or look at the clock. -/
def onControl {α : Type} (x : Read Control α) : Read Line α := fun l =>
  match x l.control with
  | (res, c) => (res, { l with control := c })

/-- An exact read. -/
def read (n : Nat) : Read Line Bytes := fun l =>
  match take n l.events with
  | (.ok bs, events) => (.ok bs, { l with events := events })
  | (.error kind, events) => (.error (.error (.io kind)), { l with events := events })

end Line

instance : ByteStream Error Line where
  readExact := Line.read

instance : Duplex Line where
  expired := Line.onControl Control.expired
  writeNative pkt := Line.onControl (Control.writeNative pkt)

/-! ## §4. Readers of the socket against the line. -/

/-- What one `read` with room for a byte does: it reports the end or the failure that is
    next on the line, or hands over some bytes. -/
inductive ReadOf {σ : Type} (R : σ → Line → Prop) (room : Nat) (l : Line) :
    Readout Bytes × σ → Prop
  | eof {s : σ} (none : l.events = []) (rel : R s l) : ReadOf R room l (.ok [], s)
  | fault {s : σ} {kind : IoKind} {events : List Event} (next : l.events = .fault kind :: events)
      (rel : R s { l with events := events }) : ReadOf R room l (.error (.error (.io kind)), s)
  | some {s : σ} {got : Bytes} {events : List Event}
      (next : l.events = got.map .byte ++ events) (ne : got ≠ []) (fits : got.length ≤ room)
      (rel : R s { l with events := events }) : ReadOf R room l (.ok got, s)

theorem take_bytes (got : Bytes) (n : Nat) (events : List Event) :
    got.length ≤ n →
    Line.take n (got.map .byte ++ events)
      = match Line.take (n - got.length) events with
        | (.ok bs, rest) => (.ok (got ++ bs), rest)
        | (.error kind, rest) => (.error kind, rest) := by
  induction got generalizing n events with
  | nil =>
    intro _
    show Line.take n events = _
    cases Line.take n events with
    | mk res rest => cases res <;> rfl
  | cons b got ih =>
    intro hlen
    rcases n with _ | n
    · cases hlen
    rw [length_cons] at hlen ⊢
    rw [map_cons, cons_append, Line.take, ih n events (by omega),
      Nat.add_sub_add_right]
    cases Line.take (n - got.length) events with
    | mk res rest => cases res <;> rfl

/-- **`read_exact` over reads of the line reads the line.** -/
theorem readExactBy_line {σ : Type} {R : σ → Line → Prop}
    {read : Nat → Read σ Bytes}
    (hread : ∀ room s l, R s l → ReadOf R (room + 1) l (read (room + 1) s)) :
    ∀ fuel n, n ≤ fuel → Lock R (readExactBy read fuel n) (Line.read n) := by
  intro fuel
  induction fuel with
  | zero =>
    intro n hn s l hR
    obtain rfl : n = 0 := Nat.le_zero.mp hn
    exact ⟨rfl, hR⟩
  | succ fuel ih =>
    intro n hn s l hR
    rcases n with _ | n
    · exact ⟨rfl, hR⟩
    have hstep := hread n s l hR
    unfold readExactBy Line.read
    rw [bind_apply]
    generalize read (n + 1) s = out at hstep
    cases hstep with
    | eof hnone hR' =>
      rw [hnone]
      refine ⟨rfl, ?_⟩
      show R _ { l with events := [] }
      rw [← hnone]
      exact hR'
    | fault hnext hR' =>
      rw [hnext]
      exact ⟨rfl, hR'⟩
    | @some s' got events hnext hne hfits hR' =>
      have hrest := ih (n + 1 - got.length) (by
        have := length_pos_iff.mpr hne
        omega) s' _ hR'
      rw [hnext, take_bytes got (n + 1) events hfits]
      dsimp only
      rw [if_neg hne, bind_apply]
      unfold Line.read at hrest
      rcases hx : readExactBy read fuel (n + 1 - got.length) s' with ⟨res, s''⟩
      rw [hx] at hrest
      rcases hy : Line.take (n + 1 - got.length) events with ⟨res', rest⟩
      rw [hy] at hrest
      cases res' with
      | ok bs | error kind =>
        obtain ⟨rfl, hR''⟩ := hrest
        exact ⟨rfl, hR''⟩

/-- While the line has not been read past the segments `later`, the socket still has them
    as they are. -/
def Spares (later arrivals : List Segment) (l : Line) : Prop :=
  (eventsOf later).length ≤ l.events.length → ∃ mine, arrivals = mine ++ later

theorem spares_step {later rest left : List Segment} {seg : Segment} {l : Line}
    {events : List Event} (hl : l.events = eventsOf (seg :: rest))
    (hsp : Spares later (seg :: rest) l) (hless : events.length < l.events.length) :
    Spares later (left ++ rest) { l with events := events } := by
  intro hle
  have hle' : (eventsOf later).length ≤ events.length := hle
  obtain ⟨mine, hmine⟩ := hsp (by omega)
  rcases mine with _ | ⟨seg', mine⟩
  · -- the segment would be one of those behind: then nothing could have been read
    rw [hl, hmine, nil_append] at hless
    omega
  rw [cons_append, List.cons.injEq] at hmine
  exact ⟨left ++ mine, by rw [hmine.2, append_assoc]⟩

/-- The socket, and the line it is. -/
structure Level (later : List Segment) (t : Transport) (l : Line) : Prop where
  events : l.events = eventsOf t.arrivals
  control : l.control = t.control
  spares : Spares later t.arrivals l

/-- A buffered reader, and the line it reads. -/
structure Ahead (later : List Segment) (r : TransportReader) (l : Line) : Prop where
  events : l.events = r.buf.map .byte ++ eventsOf r.inner.arrivals
  control : l.control = r.inner.control
  spares : Spares later r.inner.arrivals l

variable {later : List Segment}

variable {l : Line}

theorem Ahead.new {t : Transport} (h : Level later t l) (capacity : Nat) :
    Ahead later (.new t capacity) l :=
  ⟨h.events, h.control, h.spares⟩

theorem Ahead.level {r : TransportReader} (h : Ahead later r l) (hbuf : r.buf = []) :
    Level later r.inner l where
  events := by rw [h.events, hbuf]; rfl
  control := h.control
  spares := h.spares

theorem transportRead {t : Transport} (h : Level later t l) {room : Nat} (hroom : 0 < room) :
    (t.arrivals = [] ∧ l.events = [] ∧ t.read room = (.ok [], t)) ∨
    (∃ kind events t', l.events = .fault kind :: events ∧
      t.read room = (.error (.error (.io kind)), t') ∧ Level later t' { l with events := events }) ∨
    ∃ got events t', l.events = got.map .byte ++ events ∧ got ≠ [] ∧ got.length ≤ room ∧
      t.read room = (.ok got, t') ∧ events = eventsOf t'.arrivals ∧ t'.control = t.control ∧
      ∀ rest : List Event, rest.length < l.events.length →
        Spares later t'.arrivals { l with events := rest } := by
  obtain ⟨arrivals, control⟩ := t
  have hevents := h.events
  have hspares := h.spares
  rcases arrivals with _ | ⟨seg, rest⟩
  · exact .inl ⟨rfl, hevents, rfl⟩
  cases seg with
  | fault kind =>
    have hnext : l.events = .fault kind :: eventsOf rest := hevents
    refine .inr (.inl ⟨kind, eventsOf rest, ⟨rest, control⟩, hnext, rfl, ?_⟩)
    refine ⟨rfl, h.control, ?_⟩
    have hless : (eventsOf rest).length < l.events.length := by
      rw [hnext, length_cons]
      omega
    exact @spares_step later rest [] _ l _ hevents hspares hless
  | bytes b bs =>
    refine .inr (.inr ⟨(b :: bs).take room, ((b :: bs).drop room).map .byte ++ eventsOf rest,
      ⟨Segment.ofList ((b :: bs).drop room) ++ rest, control⟩, ?_, ?_, ?_, rfl, ?_, rfl, ?_⟩)
    · rw [← append_assoc, ← map_append, take_append_drop]
      exact hevents
    · cases room with
      | zero => cases hroom
      | succ room => exact cons_ne_nil _ _
    · exact length_take_le _ _
    · rw [eventsOf_append, eventsOf_ofList]
    · intro events hless
      exact spares_step hevents hspares hless

theorem transport_readOf (room : Nat) (t : Transport) (l : Line) (h : Level later t l) :
    ReadOf (Level later) (room + 1) l (t.read (room + 1)) := by
  obtain ⟨_, hnone, hread⟩ | ⟨kind, events, t', hnext, hread, hlevel⟩ |
    ⟨got, events, t', hnext, hne, hfits, hread, hrest, hcontrol, hspares⟩ :=
      transportRead h (Nat.succ_pos room)
  · rw [hread]
    exact .eof hnone h
  · rw [hread]
    exact .fault hnext hlevel
  rw [hread]
  refine .some hnext hne hfits ⟨hrest, h.control.trans hcontrol.symm, hspares events ?_⟩
  have := length_pos_iff.mpr hne
  rw [hnext, length_append, length_map]
  omega

theorem serve_readOf {r : TransportReader} {room : Nat}
    (hevents : l.events = r.buf.map .byte ++ eventsOf r.inner.arrivals)
    (hcontrol : l.control = r.inner.control) (hne : r.buf ≠ [])
    (hspares : ∀ rest : List Event, rest.length < l.events.length → Spares later r.inner.arrivals { l with events := rest })
    :
    ReadOf (Ahead later) (room + 1) l (TransportReader.serve (room + 1) r) := by
  have hnext : l.events = (r.buf.take (room + 1)).map .byte
      ++ ((r.buf.drop (room + 1)).map .byte ++ eventsOf r.inner.arrivals) := by
    rw [← append_assoc, ← map_append, take_append_drop]
    exact hevents
  have htake : r.buf.take (room + 1) ≠ [] := by
    cases hbuf : r.buf with
    | nil => exact absurd hbuf hne
    | cons b bs => exact cons_ne_nil _ _
  have hpos := length_pos_iff.mpr htake
  refine .some hnext htake (length_take_le _ _) ⟨rfl, hcontrol, hspares _ ?_⟩
  rw [hnext]
  simp only [length_append, length_map]
  omega

/-- A read of the buffered reader reads the line, whatever it reads ahead. -/
theorem transportReader_readOf (room : Nat) (r : TransportReader) (l : Line)
    (h : Ahead later r l) : ReadOf (Ahead later) (room + 1) l (r.read (room + 1)) := by
  unfold TransportReader.read
  by_cases hpast : r.buf = [] ∧ r.capacity ≤ room + 1
  · -- past the buffer
    rw [if_pos hpast]
    have hlevel := transport_readOf room r.inner l (h.level hpast.1)
    unfold TransportReader.onInner
    generalize Transport.read (room + 1) r.inner = out at hlevel
    have hahead : ∀ t l', Level later t l' → Ahead later { r with inner := t } l' := by
      intro t l' hl
      refine ⟨?_, hl.control, hl.spares⟩
      rw [hl.events, hpast.1]
      rfl
    cases hlevel with
    | eof hnone hrel => exact .eof hnone (hahead _ _ hrel)
    | fault hnext hrel => exact .fault hnext (hahead _ _ hrel)
    | some hnext hne hfits hrel => exact .some hnext hne hfits (hahead _ _ hrel)
  · rw [if_neg hpast]
    by_cases hbuf : r.buf = []
    · have hcap : 0 < r.capacity := by
        by_contra hzero
        exact hpast ⟨hbuf, by omega⟩
      obtain ⟨harr, hnone, hread⟩ | ⟨kind, events, t', hnext, hread, hlevel⟩ |
        ⟨got, events, t', hnext, hne, hfits, hread, hrest, hcontrol, hspares⟩ :=
          transportRead (h.level hbuf) hcap
      · have hfill : TransportReader.fillBuf r = (.ok (), r) := by
          unfold TransportReader.fillBuf
          rw [if_pos hbuf, hread, ← hbuf]
        rw [bind_ok hfill]
        have hserve : TransportReader.serve (room + 1) r = (.ok [], r) := by
          unfold TransportReader.serve
          rw [hbuf, take_nil, drop_nil, ← hbuf]
        rw [hserve]
        exact .eof hnone h
      · have hfill : TransportReader.fillBuf r
            = (.error (.error (.io kind)), { r with inner := t' }) := by
          unfold TransportReader.fillBuf
          rw [if_pos hbuf, hread]
        rw [bind_error hfill]
        refine .fault hnext ⟨?_, hlevel.control, hlevel.spares⟩
        rw [hbuf]
        exact hlevel.events
      · have hfill : TransportReader.fillBuf r = (.ok (), { r with inner := t', buf := got }) := by
          unfold TransportReader.fillBuf
          rw [if_pos hbuf, hread]
        rw [bind_ok hfill]
        refine serve_readOf ?_ (h.control.trans hcontrol.symm) hne hspares
        rw [hnext, hrest]
    · have hfill : TransportReader.fillBuf r = (.ok (), r) := by
        unfold TransportReader.fillBuf
        rw [if_neg hbuf]
      rw [bind_ok hfill]
      refine serve_readOf h.events h.control hbuf ?_
      intro rest hless hle
      exact h.spares (le_trans hle (le_of_lt hless))

variable {α : Type}

/-- Writes and looks at the clock are the same on the socket and on the line. -/
theorem level_control_lock (x : Read Control α) :
    Lock (Level later) (Transport.onControl x) (Line.onControl x) := by
  intro t l h
  unfold Transport.onControl Line.onControl
  rw [h.control]
  exact ⟨rfl, h.events, rfl, h.spares⟩

theorem ahead_control_lock (x : Read Control α) :
    Lock (Ahead later) (TransportReader.onInner (Transport.onControl x)) (Line.onControl x) := by
  intro r l h
  unfold TransportReader.onInner Transport.onControl Line.onControl
  rw [h.control]
  exact ⟨rfl, h.events, rfl, h.spares⟩

/-- **A buffered reader answers as the line does.** -/
theorem transportReader_alike : DuplexAlike (Ahead later) where
  reads n := readExactBy_line transportReader_readOf n n (Nat.le_refl n)
  expired := ahead_control_lock _
  write _ := ahead_control_lock _

theorem transport_alike : DuplexAlike (Level later) where
  reads n := readExactBy_line transport_readOf n n (Nat.le_refl n)
  expired := level_control_lock _
  write _ := level_control_lock _

/-! ## §5. Chunked readers. -/

section Dechunking

variable {σ τ : Type}

/-- Two chunked readers over related readers, otherwise the same. -/
def dechunkingAlike (R : σ → τ → Prop) (r : Dechunking σ) (r' : Dechunking τ) : Prop :=
  R r.inner r'.inner ∧ r.chunk = r'.chunk ∧ r.turns = r'.turns

variable {R : σ → τ → Prop}

theorem dechunking_onInner_lock {x : Read σ α} {y : Read τ α} (h : Lock R x y) :
    Lock (dechunkingAlike R) (Dechunking.onInner x) (Dechunking.onInner y) := by
  intro r r' hrel
  obtain ⟨hres, hstate⟩ := h r.inner r'.inner hrel.1
  exact ⟨hres, hstate, hrel.2⟩

theorem readExactBy_lock {readA : Nat → Read σ Bytes}
    {readB : Nat → Read τ Bytes} (h : ∀ room, Lock R (readA room) (readB room)) :
    ∀ fuel n, Lock R (readExactBy readA fuel n) (readExactBy readB fuel n) := by
  intro fuel
  induction fuel with
  | zero =>
    intro n
    cases n with
    | zero => exact .pure
    | succ n => exact .tooDeep
  | succ fuel ih =>
    intro n
    rcases n with _ | n
    · exact .pure
    refine .bind (h (n + 1)) fun got => .ite .fail ?_
    exact .bind (ih _) fun rest => .pure

variable [ByteStream Error σ] [ByteStream Error τ]

theorem readNextChunk_lock (hR : ReadsAlike Error R) : ∀ turns,
    Lock (dechunkingAlike R) (Dechunking.readNextChunk turns : Read (Dechunking σ) Unit)
      (Dechunking.readNextChunk turns) := by
  intro turns
  induction turns with
  | zero => exact .tooDeep
  | succ turns ih =>
    refine .bind (dechunking_onInner_lock (hR 4)) fun header => ?_
    refine .ite ih (.ite .fail ?_)
    refine .bind (dechunking_onInner_lock (hR _)) fun payload => ?_
    intro r r' hrel
    exact ⟨rfl, hrel.1, rfl, hrel.2.2⟩

theorem dechunking_read_lock (hR : ReadsAlike Error R) (room : Nat) :
    Lock (dechunkingAlike R) (Dechunking.read room : Read (Dechunking σ) Bytes)
      (Dechunking.read room) := by
  have hnext : Lock (dechunkingAlike R) (Dechunking.nextChunk : Read (Dechunking σ) Unit)
      Dechunking.nextChunk := by
    intro r r' hrel
    unfold Dechunking.nextChunk
    rw [← hrel.2.1, ← hrel.2.2]
    split
    · exact readNextChunk_lock hR r.turns r r' hrel
    · exact ⟨rfl, hrel⟩
  refine .ite .pure (.bind hnext fun _ => ?_)
  intro r r' hrel
  obtain ⟨hinner, hchunk, hturns⟩ := hrel
  unfold Dechunking.serve
  rw [hchunk]
  exact ⟨rfl, hinner, rfl, hturns⟩

/-- **Chunked readers over readers that answer alike answer alike.** -/
theorem dechunking_alike [Duplex σ] [Duplex τ] (hR : DuplexAlike R) :
    DuplexAlike (dechunkingAlike R) where
  reads n := readExactBy_lock (dechunking_read_lock hR.reads) n n
  expired := dechunking_onInner_lock hR.expired
  write pkt := dechunking_onInner_lock (hR.write pkt)

end Dechunking

end Sync

end StClickHouse
