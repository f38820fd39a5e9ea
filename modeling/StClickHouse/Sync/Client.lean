/-
  StClickHouse.Sync.Client
  **THE CALLS OF THE SYNC CLIENT.**

  A call of `SyncClient` (`sync/client.rs`) writes its packets and reads the response
  through readers of its own, which are dropped when it returns: a buffered reader over
  the socket, and over that a chunked reader where the transport is chunked.
-/
import StClickHouse.Lib.Runs
import StClickHouse.Sync.Transport
import StClickHouse.Wire.Decompressing

namespace StClickHouse

open ByteReader RustText List

namespace Sync

/-! ## §1. Calls. -/

/-- What the calls use of the client. -/
structure Config where
  env : Env
  /-- Most packets of a response, and most empty chunks in a row. -/
  fuel : Nat
  reply : Reply
  chunkedRecv : Bool
  readBufferSize : Nat
  maxResponseSize : Nat

/-- A call, with the packets it writes; `query` and `execute` may send IgnoredPartUUIDs
    first. -/
inductive Call where
  | query (ignored : Option Bytes) (request : Bytes)
  | rowCount (request : Bytes)
  | blockViews (request : Bytes) (visitor : Nat → Block → Result Unit)
  | execute (ignored : Option Bytes) (request : Bytes)
  | beginInsert (request : Bytes)
  | sendData (packet : Bytes)
  | endInsert (packet : Bytes)
  | tablesStatus (request : Bytes)
  | ping

/-- What a call returns. -/
inductive Value where
  | blocks (blocks : List Block)
  | rows (count : Nat)
  | done
  | statuses (entries : List ((Text × Text) × TableStatus))
  deriving DecidableEq

/-- The packets a call writes; each is flushed. -/
def Call.request : Call → List Bytes
  | .query ignored request | .execute ignored request => ignored.toList ++ [request]
  | .rowCount request | .blockViews request _ | .beginInsert request | .sendData request
  | .endInsert request | .tablesStatus request => [request]
  | .ping => [[4]]

section Body

variable {σ : Type} [ByteStream Error σ] [Duplex σ]

/-- What a call reads. -/
def Call.body (cfg : Config) : Call → Read σ Value
  | .query _ _ => do
    let blocks ← readResponseBlocks cfg.env cfg.reply ⟨cfg.maxResponseSize, 0⟩ cfg.fuel
    return .blocks blocks
  | .rowCount _ => do
    let rows ← readResponseRowCount cfg.env cfg.reply cfg.fuel
    return .rows rows
  | .blockViews _ visitor => do
    readResponseBlockViews cfg.env cfg.reply visitor cfg.fuel
    return .done
  | .execute _ _ | .endInsert _ => do
    let _rows ← readResponseRowCount cfg.env cfg.reply cfg.fuel
    return .done
  | .beginInsert _ => do
    waitForInsertTableStructure cfg.env cfg.reply cfg.fuel
    return .done
  | .sendData _ => return .done
  | .tablesStatus _ => do
    let entries ← tablesStatusReply cfg.env.depth cfg.reply.rev
    return .statuses entries
  | .ping => do
    pingReply
    return .done

/-- A body read through a chunked reader of its own, where the transport is chunked. -/
def overChunks {α : Type} (cfg : Config)
    (body : ∀ {ρ : Type} [ByteStream Error ρ] [Duplex ρ], Read ρ α) : Read σ α :=
  fun s =>
    if cfg.chunkedRecv then
      match body (Dechunking.new s cfg.fuel) with
      | (res, d) => (res, d.inner)
    else body s

end Body

variable (cfg : Config)

/-- The buffer a call puts over the socket, if it does. -/
def Call.buffer : Call → Option Nat
  | .tablesStatus _ => if cfg.chunkedRecv then none else some 8192
  | .ping => none
  | _ => some cfg.readBufferSize

/-- `write_cancel_packet`. -/
def Control.writeCancel : Read Control Unit := fun c =>
  if c.chunkedSend then Control.writePacket [3] c else Control.writeNative [3] c

/-- `Shutdown::Both`. -/
def Transport.shutdown (t : Transport) : Transport :=
  { t with control := { t.control with shut := true } }

/-- The recovery from a breach of the budget: Cancel, and the rest of the response
    discarded through the same buffered reader, but a chunked reader of its own. -/
def recover : Read TransportReader Unit := do
  TransportReader.onInner (Transport.onControl Control.writeCancel)
  let _rows ← overChunks cfg (readResponseRowCount cfg.env cfg.reply cfg.fuel)
  return ()

/-- `query_with_params_settings_and_ignored_part_uuids`, once the query is on its way. -/
def receiveBlocks : Read Transport Value := fun t =>
  match overChunks cfg (Call.body cfg (.query none [])) (TransportReader.new t cfg.readBufferSize) with
  | (.error (.error (.responseTooLarge limit used)), r) =>
    match recover cfg r with
    | (.ok (), r) => (.error (.error (.responseTooLarge limit used)), r.inner)
    | (.error .depth, r) => (.error .depth, r.inner)
    | (.error (.error _), r) =>
      (.error (.error (.responseTooLarge limit used)), r.inner.shutdown)
  | (res, r) => (res, r.inner)

/-- What a call does once its packets are written. -/
def Call.receive (call : Call) : Read Transport Value :=
  match call with
  | .query _ _ => receiveBlocks cfg
  | call =>
    match call.buffer cfg with
    | some capacity => fun t =>
      match overChunks cfg (call.body cfg) (TransportReader.new t capacity) with
      | (res, r) => (res, r.inner)
    | none => overChunks cfg (call.body cfg)

/-- A call. -/
def Call.run (call : Call) : Read Transport Value := do
  Transport.onControl (forEach Control.writeNative call.request)
  call.receive cfg

/-! ## §2. Calls that never read ahead. -/

variable {later : List Segment} {cfg : Config} {l : Line} {α : Type}

section Leaves

variable {σ τ : Type} [ByteStream Error σ] [ByteStream Error τ] [Duplex σ] [Duplex τ]

/-- What a body leaves of a stream: the part of the chunk it has not asked for, and the
    stream behind it. -/
def leaves (cfg : Config)
    (body : ∀ {ρ : Type} [ByteStream Error ρ] [Duplex ρ], Read ρ α) (s : σ) :
    Readout α × Bytes × σ :=
  if cfg.chunkedRecv then
    match body (Dechunking.new s cfg.fuel) with
    | (res, d) => (res, d.chunk, d.inner)
  else
    match body s with
    | (res, s') => (res, [], s')

theorem leaves_chunked (h : cfg.chunkedRecv = true)
    (body : ∀ {ρ : Type} [ByteStream Error ρ] [Duplex ρ], Read ρ α) (s : σ) :
    leaves cfg body s = ((body (Dechunking.new s cfg.fuel)).1,
      (body (Dechunking.new s cfg.fuel)).2.chunk, (body (Dechunking.new s cfg.fuel)).2.inner) :=
  if_pos h

theorem leaves_plain (h : ¬ cfg.chunkedRecv = true)
    (body : ∀ {ρ : Type} [ByteStream Error ρ] [Duplex ρ], Read ρ α) (s : σ) :
    leaves cfg body s = ((body s).1, [], (body s).2) :=
  if_neg h

/-- A reader of the stream drops the chunk. -/
theorem overChunks_eq (cfg : Config)
    (body : ∀ {ρ : Type} [ByteStream Error ρ] [Duplex ρ], Read ρ α) (s : σ) :
    overChunks cfg body s = ((leaves cfg body s).1, (leaves cfg body s).2.2) := by
  unfold overChunks leaves
  split <;> rfl

end Leaves

/-- The call on the line. -/
def Call.onLine (cfg : Config) (call : Call) (l : Line) :
    Readout Value × Bytes × Line :=
  match Line.onControl (forEach Control.writeNative call.request) l with
  | (.ok (), l) => leaves cfg (call.body cfg) l
  | (.error e, l) => (.error e, [], l)

/-- The line a socket is. -/
def Transport.line (t : Transport) : Line := ⟨eventsOf t.arrivals, t.control⟩

/-- A reader that runs in lockstep with itself on any two streams that answer alike. -/
def Uniform {α : Type} (body : ∀ {ρ : Type} [ByteStream Error ρ] [Duplex ρ], Read ρ α) :
    Prop :=
  ∀ {σ τ : Type} [ByteStream Error σ] [ByteStream Error τ] [Duplex σ] [Duplex τ]
    {R : σ → τ → Prop}, DuplexAlike R → Lock R (body : Read σ α) body

theorem rowCount_uniform (cfg : Config) :
    Uniform (readResponseRowCount cfg.env cfg.reply cfg.fuel) :=
  fun hR => loop_lock (turn_lock hR _ _ (rowCountHandlers_alike hR _ _)) _ _

/-- **Every call reads uniformly.** -/
theorem body_uniform (cfg : Config) (call : Call) : Uniform (call.body cfg) := by
  intro σ τ _ _ _ _ R hR
  have hloop : ∀ {H Q : Type} {p : Handlers σ H Q} {q : Handlers τ H Q} (h : H),
      HandlersAlike R p q → Lock R (loop (p.turn cfg.env cfg.reply) cfg.fuel h)
        (loop (q.turn cfg.env cfg.reply) cfg.fuel h) :=
    fun h hp => loop_lock (turn_lock hR _ _ hp) _ h
  have hcount := rowCount_uniform cfg hR
  cases call with
  | query _ _ => exact .bind (hloop _ (blocksHandlers_alike hR _ _)) fun _ => .pure
  | rowCount _ | execute _ _ | endInsert _ => exact .bind hcount fun _ => .pure
  | blockViews _ visitor =>
    exact .bind (hloop _ (viewsHandlers_alike hR _ _ visitor)) fun _ => .pure
  | beginInsert _ => exact .bind (hloop _ (structureHandlers_alike hR _ _)) fun _ => .pure
  | sendData _ => exact .pure
  | tablesStatus _ => exact .bind (tablesStatusReply_lock hR.reads _ _) fun _ => .pure
  | ping => exact .bind (pingReply_lock hR.reads) fun _ => .pure

/-- What a body leaves of two streams that answer alike. -/
theorem leaves_alike {σ τ : Type} [ByteStream Error σ] [ByteStream Error τ] [Duplex σ] [Duplex τ]
    {R : σ → τ → Prop} (hR : DuplexAlike R) (cfg : Config)
    {body : ∀ {ρ : Type} [ByteStream Error ρ] [Duplex ρ], Read ρ α} (hbody : Uniform body)
    {s : σ} {s' : τ} (h : R s s') :
    (leaves cfg body s).1 = (leaves cfg body s').1 ∧
      (leaves cfg body s).2.1 = (leaves cfg body s').2.1 ∧
      R (leaves cfg body s).2.2 (leaves cfg body s').2.2 := by
  unfold leaves
  by_cases hchunked : cfg.chunkedRecv = true
  · rw [if_pos hchunked, if_pos hchunked]
    obtain ⟨hres, hrel⟩ := hbody (dechunking_alike hR) (.new s cfg.fuel)
      (.new s' cfg.fuel) ⟨h, rfl, rfl⟩
    exact ⟨hres, hrel.2.1, hrel.1⟩
  · rw [if_neg hchunked, if_neg hchunked]
    exact ⟨(hbody hR s s' h).1, rfl, (hbody hR s s' h).2⟩

/-- What a body leaves of a socket is what it leaves of the line, but for the part of the
    chunk it has not asked for. -/
theorem overChunks_leaves {σ : Type} [ByteStream Error σ] [Duplex σ] {R : σ → Line → Prop}
    (hR : DuplexAlike R) (cfg : Config)
    {body : ∀ {ρ : Type} [ByteStream Error ρ] [Duplex ρ], Read ρ α} (hbody : Uniform body)
    {s : σ} (h : R s l) :
    (overChunks cfg body s).1 = (leaves cfg body l).1 ∧
      R (overChunks cfg body s).2 (leaves cfg body l).2.2 := by
  rw [overChunks_eq]
  obtain ⟨hres, _, hrel⟩ := leaves_alike hR cfg hbody h
  exact ⟨hres, hrel⟩

/-! ## §3. Calls that end with a segment. -/

/-- The call ends with a segment: what it leaves of the line are whole segments, and
    nothing is left of its last chunk. -/
def Boundary (cfg : Config) (t : Transport) (call : Call) : Prop :=
  ∃ mine later, t.arrivals = mine ++ later ∧ (call.onLine cfg t.line).2.1 = [] ∧
    (call.onLine cfg t.line).2.2.events = eventsOf later

/-- At the end of the line before `later`, nothing has been read ahead and the socket has
    just those segments. -/
theorem Ahead.at_boundary {r : TransportReader}
    (h : Ahead later r l) (hl : l.events = eventsOf later) :
    r.inner.arrivals = later ∧ r.inner.line = l := by
  obtain ⟨mine, hmine⟩ := h.spares (by rw [hl])
  have hevents := h.events
  rw [hl, hmine, eventsOf_append, ← append_assoc] at hevents
  have hnil := self_eq_append_left.mp hevents
  rw [append_eq_nil_iff] at hnil
  have harr : r.inner.arrivals = later := by
    rw [hmine, eventsOf_eq_nil hnil.2, nil_append]
  refine ⟨harr, ?_⟩
  unfold Transport.line
  rw [harr, ← hl, ← h.control]

variable {t : Transport}

theorem Level.at_boundary (h : Level later t l) (hl : l.events = eventsOf later) :
    t.arrivals = later ∧ t.line = l :=
  (Ahead.new h 0).at_boundary hl

theorem level_line {mine later : List Segment} (h : t.arrivals = mine ++ later) :
    Level later t t.line :=
  ⟨rfl, rfl, fun _ => ⟨mine, h⟩⟩

/-- A successful `receive` of a call is its body through its readers. -/
theorem receive_ok {call : Call} {t' : Transport} {v : Value} (h : call.receive cfg t = (.ok v, t'))
    (hlevel : Level later t l) (hend : (leaves cfg (call.body cfg) l).2.2.events = eventsOf later) :
    (leaves cfg (call.body cfg) l).1 = .ok v ∧ t'.line = (leaves cfg (call.body cfg) l).2.2 := by
  -- the buffered readers
  have hbuffered : ∀ {capacity : Nat} {r : TransportReader},
      overChunks cfg (call.body cfg) (TransportReader.new t capacity) = (.ok v, r) →
      (leaves cfg (call.body cfg) l).1 = .ok v ∧
        r.inner.line = (leaves cfg (call.body cfg) l).2.2 := by
    intro capacity r hrun
    obtain ⟨hres, hrel⟩ := overChunks_leaves transportReader_alike cfg (body_uniform cfg call)
      (Ahead.new hlevel capacity)
    rw [hrun] at hres hrel
    exact ⟨hres.symm, (hrel.at_boundary hend).2⟩
  have hsome : ∀ {capacity : Nat}, (match overChunks cfg (call.body cfg)
      (TransportReader.new t capacity) with
      | (res, r) => (res, r.inner)) = ((.ok v : Readout Value), t') →
      (leaves cfg (call.body cfg) l).1 = .ok v ∧ t'.line = (leaves cfg (call.body cfg) l).2.2 := by
    intro capacity hrun
    rcases hout : overChunks cfg (call.body cfg) (TransportReader.new t capacity) with ⟨res, r⟩
    rw [hout] at hrun
    cases hrun
    exact hbuffered hout
  have hnone : overChunks cfg (call.body cfg) t = (.ok v, t') →
      (leaves cfg (call.body cfg) l).1 = .ok v ∧ t'.line = (leaves cfg (call.body cfg) l).2.2 := by
    intro hrun
    obtain ⟨hres, hrel⟩ := overChunks_leaves transport_alike cfg (body_uniform cfg call) hlevel
    rw [hrun] at hres hrel
    exact ⟨hres.symm, (hrel.at_boundary hend).2⟩
  cases call with
  | query ignored request =>
    have hquery : receiveBlocks cfg t = (.ok v, t') := h
    unfold receiveBlocks at hquery
    split at hquery
    · split at hquery <;> cases hquery
    · rename_i res r hout
      cases hquery
      exact hbuffered hout
  | tablesStatus request =>
    unfold Call.receive Call.buffer at h
    by_cases hchunked : cfg.chunkedRecv = true
    · rw [if_pos hchunked] at h
      exact hnone h
    · rw [if_neg hchunked] at h
      exact hsome h
  | ping => exact hnone h
  | _ => exact hsome h

/-- A call that returns Ok, as a step. -/
def step (cfg : Config) (t : Transport) (call : Call) : Option Transport :=
  match call.run cfg t with
  | (.ok _, t') => some t'
  | (.error _, _) => none

/-- The same on the line: no byte of the last chunk is thrown away, and nothing is read
    ahead. -/
def lineStep (cfg : Config) (l : Line) (call : Call) : Option Line :=
  match call.onLine cfg l with
  | (.ok _, [], l') => some l'
  | _ => none

/-- **A call that ends with a segment loses nothing.** -/
theorem lineStep_of_step {t' : Transport} {call : Call} (hboundary : Boundary cfg t call)
    (hstep : step cfg t call = some t') :
    lineStep cfg t.line call = some t'.line := by
  obtain ⟨mine, later, harr, hchunk, hend⟩ := hboundary
  have hlevel := level_line harr
  obtain ⟨hreq, hrel⟩ := level_control_lock (forEach Control.writeNative call.request) t t.line hlevel
  unfold step Call.run at hstep
  rw [bind_apply] at hstep
  unfold lineStep
  unfold Call.onLine at hchunk hend ⊢
  rcases hx : Transport.onControl (forEach Control.writeNative call.request) t with ⟨res, t₁⟩
  rcases hy : Line.onControl (forEach Control.writeNative call.request) t.line with ⟨res', l₁⟩
  rw [hx, hy] at hreq hrel
  rw [hx] at hstep
  rw [hy] at hchunk hend
  obtain rfl : res = res' := hreq
  rcases res with e | _
  · cases hstep
  dsimp only at hstep hchunk hend ⊢
  split at hstep
  · rename_i v t₂ hrun
    cases hstep
    obtain ⟨hres, hline⟩ := receive_ok hrun hrel hend
    rw [hline]
    generalize leaves cfg (call.body cfg) l₁ = out at hres hchunk
    obtain ⟨res, chunk, l₂⟩ := out
    cases hres
    cases hchunk
    rfl
  · cases hstep

/-- **No byte is lost between successful calls**, as long as each ends with a segment: the
    calls see what they would see if none of them ever read ahead. -/
theorem nothing_lost {cfg : Config} {t t' : Transport} {calls : List Call}
    (hrun : Run (step cfg) (Boundary cfg) t calls t') :
    exec (lineStep cfg) t.line calls = some t'.line := by
  induction hrun with
  | nil t => rfl
  | cons hboundary hstep _ ih =>
    unfold exec
    rw [lineStep_of_step hboundary hstep]
    exact ih

/-- A plain connection of the oldest revision. -/
def plainConfig : Config :=
  ⟨⟨copyCodec, 4⟩, 8, ⟨0, false⟩, false, 8192, 1000⟩

/-- A socket on which every write is taken and no deadline passes. -/
def openSocket (arrivals : List Segment) : Transport := ⟨arrivals, ⟨⟨[], []⟩, [], false, false⟩⟩

/-- An INSERT whose table structure, Progress and EndOfStream come one by one. -/
theorem nothing_lost_one_by_one :
    exec (lineStep plainConfig)
      (openSocket [.bytes 1 [0, 0, 0, 0], .bytes 3 [1, 1, 1], .bytes 5 []]).line
      [.beginInsert [1], .endInsert [2]] = some ⟨[], ⟨⟨[1, 2], []⟩, [], false, false⟩⟩ := by
  have hbegin : step plainConfig
      (openSocket [.bytes 1 [0, 0, 0, 0], .bytes 3 [1, 1, 1], .bytes 5 []]) (.beginInsert [1])
      = some ⟨[.bytes 3 [1, 1, 1], .bytes 5 []], ⟨⟨[1], []⟩, [], false, false⟩⟩ := by
    decide +kernel
  have hend : step plainConfig
      ⟨[.bytes 3 [1, 1, 1], .bytes 5 []], ⟨⟨[1], []⟩, [], false, false⟩⟩ (.endInsert [2])
      = some ⟨[], ⟨⟨[1, 2], []⟩, [], false, false⟩⟩ := by
    decide +kernel
  exact nothing_lost
    (.cons ⟨[.bytes 1 [0, 0, 0, 0]], [.bytes 3 [1, 1, 1], .bytes 5 []], rfl, by decide +kernel,
        by decide +kernel⟩ hbegin
      (.cons ⟨[.bytes 3 [1, 1, 1], .bytes 5 []], [], rfl, by decide +kernel, by decide +kernel⟩
        hend (.nil _)))

/-- **A packet is lost**: the Progress packet behind the table structure has arrived with
    it, and the reader of `begin_insert` takes it along. -/
theorem progress_lost_with_the_buffer :
    (step plainConfig (openSocket [.bytes 1 [0, 0, 0, 0, 3, 1, 1, 1], .bytes 5 []])
        (.beginInsert [1])).map (fun t => t.line.events) = some [.byte 5] ∧
      (lineStep plainConfig
        (openSocket [.bytes 1 [0, 0, 0, 0, 3, 1, 1, 1], .bytes 5 []]).line
        (.beginInsert [1])).map Line.events
          = some [.byte 3, .byte 1, .byte 1, .byte 1, .byte 5] ∧
      (exec (step plainConfig) (openSocket [.bytes 1 [0, 0, 0, 0, 3, 1, 1, 1], .bytes 5 []])
        [.beginInsert [1], .endInsert [2]]).isSome = true := by
  decide +kernel

end Sync

end StClickHouse
