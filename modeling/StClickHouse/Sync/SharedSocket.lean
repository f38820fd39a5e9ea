/-
  StClickHouse.Sync.SharedSocket
  **A STREAM AND ITS OWNER ON ONE SOCKET.**

  `start_stream` (`sync/client.rs`) hands out a `QueryStream` over a duplicate of the
  client's socket, and nothing keeps the client from its next call while the response of
  the stream is outstanding.  In Python a reader thread reads the stream (`PyQueryStream`)
  and the `QueryStream` of `_streams.py` discards the client when it is abandoned, unless
  its `__next__` has raised before.

      own_response    — a call that begins when nothing is outstanding and no stream
                        reads any more finds its own response, or the socket shut down
      stolen_response — any other call may return the blocks of a stream
-/
import StClickHouse.Sync.Failures
import StClickHouse.Sync.QueryStream

namespace StClickHouse

open ByteReader RustText List

namespace Sync

/-! ## §1. Streams and their owner. -/

/-- A stream: its bytes and its `done`, and the flags of the Python objects around it. -/
structure Stream where
  rest : Bytes
  done : Bool
  /-- `PyQueryStream.eos`. -/
  eos : Bool
  /-- The reader has passed on the end or an error, which `__next__` raises. -/
  ended : Bool
  /-- `QueryStream._closed`. -/
  closed : Bool
  deriving DecidableEq

/-- The results after which the connection is taken for clean. -/
def terminal : Readout (Option Block) → Bool
  | .ok none => true
  | .error (.error (.serverError _ _ _)) => true
  | _ => false

/-- The results that `__next__` raises. -/
def raises : Readout (Option Block) → Bool
  | .ok (some _) => false
  | _ => true

/-- The socket, the streams over it, and the owner. -/
structure Shared where
  socket : Transport
  streams : List Stream
  /-- The call whose packets the owner has written and whose response it has not read. -/
  call : Option Exchange
  /-- `client.discarded`. -/
  discarded : Bool

inductive SharedAction where
  | start (request : Bytes) (response : List Segment)
  | next (k : Nat)
  | raised (k : Nat)
  | abandon (k : Nat)
  | drop (k : Nat)
  | ask (x : Exchange)
  | receive

namespace Shared

/-- A client without streams. -/
def new (t : Transport) : Shared := ⟨t, [], none, false⟩

/-- `read_next_block` of a stream, on the socket it shares. -/
def read (cfg : Config) (s : Shared) (k : Nat) (q : Stream) : Option Shared :=
  match QueryStream.readNextBlock cfg.fuel ⟨⟨cfg, q.rest, s.socket⟩, q.done⟩ with
  | (.error .depth, _) => none
  | (res, q') =>
    some { s with
      socket := q'.bytes.transport
      streams := s.streams.set k ⟨q'.bytes.rest, q'.done, q.eos || terminal res,
        q.ended || raises res, q.closed⟩ }

/-- The packets of the owner are written, and the server answers. -/
def send (s : Shared) (write : Read Transport Unit) (response : List Segment)
    (sent : Shared → Shared) : Option Shared :=
  if s.call.isSome then none
  else if s.discarded then some s
  else match write s.socket with
    | (.ok (), t) => some (sent { s with socket := (arrive response t).2 })
    | (.error .depth, _) => none
    | (.error (.error _), t) => some { s with socket := t }

/-- One step of the owner, of a stream or of whoever holds it. -/
def step (cfg : Config) (s : Shared) : SharedAction → Option Shared
  | .start request response =>
    s.send (Transport.onControl (Control.writeNative request)) response fun s =>
      { s with streams := s.streams ++ [⟨[], false, false, false, false⟩] }
  | .next k =>
    match s.streams[k]? with
    | some q => s.read cfg k q
    | none => none
  -- `__next__` catches any exception.
  | .raised k =>
    match s.streams[k]? with
    | some q =>
      if q.ended then some { s with streams := s.streams.set k { q with closed := true } }
      else none
    | none => none
  -- `_abandon`: `cancel`, `close` and `__del__`.
  | .abandon k =>
    match s.streams[k]? with
    | some q =>
      let closed := s.streams.set k { q with closed := true }
      if q.closed then some s
      else if q.eos then some { s with streams := closed }
      else some { s with streams := closed, socket := s.socket.shutdown, discarded := true }
    | none => none
  -- `PyQueryStream::drop`.
  | .drop k =>
    match s.streams[k]? with
    | some q => if q.eos then some s else some { s with socket := s.socket.shutdown }
    | none => none
  | .ask x => s.send x.ask x.response fun s => { s with call := some x }
  | .receive =>
    match s.call with
    | some x =>
      match x.call.receive cfg s.socket with
      | (.error .depth, _) => none
      | (_, t) => some { s with socket := t, call := none }
    | none => none

/-! ## §2. Calls that find their own response. -/

/-- Nothing is outstanding and no stream reads any more, or the socket was shut down. -/
def Idle (s : Shared) : Prop :=
  (s.socket.arrivals = [] ∧ ∀ q ∈ s.streams, q.done = true) ∨ s.socket.control.shut = true

instance (s : Shared) : Decidable s.Idle := inferInstanceAs (Decidable (_ ∨ _))

/-- The owner begins its calls and streams on an idle socket. -/
def Apart (s : Shared) : SharedAction → Prop
  | .start _ _ => s.Idle
  | .ask _ => s.Idle
  | _ => True

instance (s : Shared) (a : SharedAction) : Decidable (s.Apart a) := by
  cases a <;> unfold Apart <;> infer_instance

/-- One stream reads, if any; while the owner waits for a response it is the only one on
    the socket and no stream reads. -/
structure Separate (s : Shared) : Prop where
  single : ∀ {i j : Nat} {q q' : Stream}, s.streams[i]? = some q → s.streams[j]? = some q' →
    q.done = false → q'.done = false → i = j
  own : ∀ {x : Exchange}, s.call = some x →
    s.socket.arrivals = x.response ∧ ∀ q ∈ s.streams, q.done = true

variable {cfg : Config} {s s' : Shared} {k : Nat} {q q' : Stream}

/-- A write leaves what has arrived alone; the server answers a request it has got. -/
theorem send_cases {w : Read Control Unit} {response : List Segment}
    {sent : Shared → Shared} (h : s.send (Transport.onControl w) response sent = some s') :
    (∃ c, s' = { s with socket := ⟨s.socket.arrivals, c⟩ }) ∨
      (s.call = none ∧ (w s.socket.control).1 = .ok () ∧
        ∃ c, s' = sent { s with socket := ⟨s.socket.arrivals ++ response, c⟩ }) := by
  obtain ⟨⟨arrivals, control⟩, streams, call, discarded⟩ := s
  cases call with
  | some x => cases h
  | none => cases discarded with
    | true =>
      cases h
      exact .inl ⟨control, rfl⟩
    | false =>
      change (match Transport.onControl w ⟨arrivals, control⟩ with
        | (.ok (), t) => _
        | (.error .depth, _) => _
        | (.error (.error _), t) => _) = some s' at h
      unfold Transport.onControl at h
      rcases hw : w control with ⟨res, c⟩
      rw [hw] at h
      cases res with
      | ok _ =>
        cases h
        exact .inr ⟨rfl, rfl, c, rfl⟩
      | error e => cases e with
        | depth => cases h
        | error e =>
          cases h
          exact .inl ⟨c, rfl⟩

theorem undone_of_set {i : Nat} {q₁ : Stream} (hk : s.streams[k]? = some q)
    (hdone : q.done = true → q'.done = true) (hi : (s.streams.set k q')[i]? = some q₁)
    (hq₁ : q₁.done = false) : ∃ q₀, s.streams[i]? = some q₀ ∧ q₀.done = false := by
  by_cases hik : k = i
  · subst hik
    obtain ⟨hlt, -⟩ := List.getElem?_eq_some_iff.mp hk
    rw [List.getElem?_set_self hlt] at hi
    cases hi
    refine ⟨q, hk, ?_⟩
    by_contra hq
    rw [hdone (by simpa using hq)] at hq₁
    cases hq₁
  · rw [List.getElem?_set_ne hik] at hi
    exact ⟨q₁, hi, hq₁⟩

/-- A stream moves; it reads from the socket only if it is not done. -/
theorem Separate.of_set (hs : Separate s) (hk : s.streams[k]? = some q)
    (hdone : q.done = true → q'.done = true) (hstreams : s'.streams = s.streams.set k q')
    (hcall : s'.call = s.call)
    (harrivals : q.done = true → s'.socket.arrivals = s.socket.arrivals) : Separate s' where
  single := by
    intro i j q₁ q₂ hi hj h₁ h₂
    rw [hstreams] at hi hj
    obtain ⟨p₁, hi, h₁⟩ := undone_of_set hk hdone hi h₁
    obtain ⟨p₂, hj, h₂⟩ := undone_of_set hk hdone hj h₂
    exact hs.single hi hj h₁ h₂
  own := by
    intro x hx
    obtain ⟨hown, hall⟩ := hs.own (hcall ▸ hx)
    have hq := hall q (mem_of_getElem? hk)
    refine ⟨(harrivals hq).trans hown, ?_⟩
    intro q₁ hmem
    rw [hstreams] at hmem
    obtain hmem | rfl := mem_or_eq_of_mem_set hmem
    · exact hall q₁ hmem
    · exact hdone hq

theorem read_done (hq : q.done = true) (h : s.read cfg k q = some s') :
    s'.socket = s.socket ∧ s'.call = s.call ∧
      ∃ q', s'.streams = s.streams.set k q' ∧ q'.done = true := by
  unfold read QueryStream.readNextBlock at h
  rw [hq] at h
  cases h
  exact ⟨rfl, rfl, _, rfl, rfl⟩

theorem Separate.read (hs : Separate s) (hk : s.streams[k]? = some q)
    (h : s.read cfg k q = some s') : Separate s' := by
  by_cases hq : q.done = true
  · obtain ⟨hsocket, hcall, q', hstreams, hq'⟩ := read_done hq h
    exact hs.of_set hk (fun _ => hq') hstreams hcall fun _ => by rw [hsocket]
  unfold Shared.read at h
  split at h <;> cases h
  exact hs.of_set hk (fun h => absurd h hq) rfl rfl fun h => absurd h hq

/-- The socket was not shut down, since a packet was written to it. -/
theorem Idle.resolve (h : s.Idle) {pkt : Bytes} {f : Unit → Read Control Unit}
    (hw : ((Control.writeNative pkt >>= f) s.socket.control).1 = .ok ()) :
    s.socket.arrivals = [] ∧ ∀ q ∈ s.streams, q.done = true := by
  refine h.resolve_right fun hshut => ?_
  obtain ⟨e, hwrite⟩ := writeNative_shut hshut pkt
  rw [bind_error hwrite] at hw
  cases hw

theorem Separate.of_control (hs : Separate s) (c : Control) :
    Separate { s with socket := ⟨s.socket.arrivals, c⟩ } :=
  ⟨hs.single, hs.own⟩

/-- **Every step keeps the readers apart.** -/
theorem Separate.step (hs : Separate s) {a : SharedAction} (hapart : s.Apart a)
    (hstep : s.step cfg a = some s') : Separate s' := by
  cases a <;> simp only [Shared.step] at hstep
  case start request response =>
    obtain ⟨c, rfl⟩ | ⟨hcall, hw, c, rfl⟩ := send_cases hstep
    · exact hs.of_control c
    obtain ⟨-, hall⟩ := Idle.resolve hapart (f := fun _ => pure ()) (by rwa [bind_pure_unit])
    have hnew : ∀ {i : Nat} {q : Stream},
        (s.streams ++ [⟨[], false, false, false, false⟩])[i]? = some q → q.done = false →
          i = s.streams.length := by
      intro i q hi hq
      obtain hlt | hge := lt_or_ge i s.streams.length
      · rw [List.getElem?_append_left hlt] at hi
        rw [hall q (mem_of_getElem? hi)] at hq
        cases hq
      obtain ⟨hlen, -⟩ := List.getElem?_eq_some_iff.mp hi
      rw [length_append, length_singleton] at hlen
      omega
    refine ⟨fun hi hj h₁ h₂ => (hnew hi h₁).trans (hnew hj h₂).symm, ?_⟩
    intro x hx
    rw [show s.call = some x from hx] at hcall
    cases hcall
  case next k =>
    split at hstep
    · next q hk => exact hs.read hk hstep
    · cases hstep
  case raised k =>
    split at hstep
    · next q hk =>
      split at hstep <;> cases hstep
      refine hs.of_set hk ?_ rfl rfl fun _ => rfl
      exact id
    · cases hstep
  case abandon k =>
    split at hstep
    · next q hk =>
      split at hstep
      · cases hstep
        exact hs
      split at hstep <;> cases hstep
      · refine hs.of_set hk ?_ rfl rfl fun _ => rfl
        exact id
      · refine hs.of_set hk ?_ rfl rfl fun _ => rfl
        exact id
    · cases hstep
  case drop k =>
    split at hstep
    · split at hstep <;> cases hstep
      · exact hs
      · exact ⟨hs.single, hs.own⟩
    · cases hstep
  case ask x =>
    obtain ⟨c, rfl⟩ | ⟨-, hw, c, rfl⟩ := send_cases hstep
    · exact hs.of_control c
    obtain ⟨pkt, more, hrequest⟩ := request_ne_nil x.call
    rw [hrequest] at hw
    obtain ⟨harrivals, hall⟩ := Idle.resolve hapart hw
    refine ⟨hs.single, ?_⟩
    rintro _ ⟨⟩
    exact ⟨by rw [harrivals, nil_append], hall⟩
  case receive =>
    split at hstep
    · split at hstep <;> cases hstep
      exact ⟨hs.single, fun hx => nomatch hx⟩
    · cases hstep

/-- **A call finds its own response.**  In every history in which the owner begins its calls
    and its streams only when nothing is outstanding and no stream reads any more, or after
    the socket was shut down: a call that waits for its response finds that response on the
    socket and nothing else, no read of a stream touches the socket meanwhile, a call on a
    socket that was shut down fails without reading, and never do two streams read. -/
theorem own_response {t : Transport} {as : List SharedAction}
    (hrun : Run (Shared.step cfg) Apart (new t) as s) :
    (∀ x, s.call = some x → s.socket.arrivals = x.response ∧
      ∀ k s', s.step cfg (.next k) = some s' → s'.socket = s.socket) ∧
    (∀ x s', s.socket.control.shut = true → s.step cfg (.ask x) = some s' → s' = s) ∧
    ∀ (i j : Nat) (q q' : Stream), s.streams[i]? = some q → s.streams[j]? = some q' →
      q.done = false → q'.done = false → i = j := by
  have hnew : Separate (new t) := ⟨(fun hi => nomatch hi), (fun hx => nomatch hx)⟩
  have hs := hrun.invariant (fun _ _ _ hI hok h => Separate.step hI hok h) hnew
  refine ⟨?_, ?_, fun i j q q' hi hj => hs.single hi hj⟩
  · intro x hx
    obtain ⟨hown, hall⟩ := hs.own hx
    refine ⟨hown, ?_⟩
    intro k s' hstep
    simp only [Shared.step] at hstep
    split at hstep
    · next q hk => exact (read_done (hall q (mem_of_getElem? hk)) hstep).1
    · cases hstep
  · intro x s' hshut hstep
    obtain ⟨e, hask⟩ := ask_shut hshut x
    simp only [Shared.step, send, hask] at hstep
    split at hstep
    · cases hstep
    split at hstep
    · cases hstep
      rfl
    cases e with
    | depth => cases hstep
    | error e =>
      cases hstep
      rfl

/-- A query whose response is empty. -/
def emptyQuery : Exchange := ⟨.query none [8], [.bytes 5 []]⟩

/-- A stream that is read to its end, and a query. -/
def inTurn : List SharedAction :=
  [.start [9] [.bytes 1 (dataPacket ++ [5])], .next 0, .next 0, .ask emptyQuery]

theorem own_response_inTurn :
    ∃ s x, Run (Shared.step plainConfig) Apart (new (openSocket [])) inTurn s ∧
      s.call = some x ∧ x.response = [.bytes 5 []] ∧ s.socket.arrivals = x.response := by
  obtain ⟨s, hs⟩ : ∃ s, exec (guarded (Shared.step plainConfig) Apart) (new (openSocket [])) inTurn
      = some s := Option.isSome_iff_exists.mp (by decide +kernel)
  have hend : (exec (guarded (Shared.step plainConfig) Apart) (new (openSocket [])) inTurn).map
      (fun s => s.call.map (·.response)) = some (some [.bytes 5 []]) := by decide +kernel
  rw [hs, Option.map_some, Option.some.injEq, Option.map_eq_some_iff] at hend
  obtain ⟨x, hcall, hresponse⟩ := hend
  have hrun := Run.of_guarded hs
  exact ⟨s, x, hrun, hcall, hresponse, ((own_response hrun).1 x hcall).1⟩

/-- After these steps the owner's call returns the block that is on the socket before its own
    response. -/
def Steals (as : List SharedAction) : Prop :=
  (exec (Shared.step plainConfig) (new (openSocket [])) as).map (fun s =>
      (s.socket.control.shut, s.discarded, s.call.map (·.response), s.socket.arrivals))
    = some (false, false, some [.bytes 5 []], [.bytes 1 (dataPacket ++ [5]), .bytes 5 []]) ∧
  (exec (Shared.step plainConfig) (new (openSocket [])) as).map (fun s =>
      s.call.map fun x => (x.call.receive plainConfig s.socket).1)
    = some (some (.ok (.blocks [⟨[⟨['a'], "UInt8".toList, [7]⟩], 1⟩])))

/-- **A query returns the block of a stream**: one that is outstanding, and in Python one
    whose `__next__` has raised an error, so that closing it does not discard the client. -/
theorem stolen_response :
    Steals [.start [9] [.bytes 1 (dataPacket ++ [5])], .ask emptyQuery] ∧
      Steals [.start [9] [.bytes 99 [], .bytes 1 (dataPacket ++ [5])], .next 0, .raised 0,
        .abandon 0, .ask emptyQuery] :=
  ⟨⟨by decide +kernel, by decide +kernel⟩, by decide +kernel, by decide +kernel⟩

end Shared

end Sync

end StClickHouse
