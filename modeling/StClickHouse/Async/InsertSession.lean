/-
  StClickHouse.Async.InsertSession
  **AN INSERT SESSION OF THE ASYNC CLIENT.**

  `InsertSession` (`connection/insert_session.rs`): Data packets are written by
  `send_data`, the terminator by `end`, which then drains the response.  A `send_data`
  that does not complete leaves the session as it was, so a later call writes on behind
  whatever part of the packet the transport has taken.

      wholePackets_of_run      — while every packet is taken whole or not at all
      torn_packet_goes_on      — a dropped `send_data`, and the terminator behind it
-/
import StClickHouse.Lib.Runs
import StClickHouse.Query.Packet
import StClickHouse.Async.Response
import StClickHouse.Transport.PacketWriter

namespace StClickHouse

open ByteReader RustText List

/-! ## §1. Schemas. -/

/-- A column of a table. -/
structure TableColumn where
  name : Text
  typeName : Text
  deriving Repr, DecidableEq

/-- The columns of a table. -/
structure TableSchema where
  columns : List TableColumn
  deriving Repr, DecidableEq

namespace TableSchema

/-- The type the map of names to types holds; of two columns of one name the later. -/
def expectedType (schema : TableSchema) (name : Text) : Option Text :=
  (schema.columns.reverse.find? (fun col => col.name == name)).map TableColumn.typeName

/-- One column of a block is a column of the table. -/
def validateColumn (schema : TableSchema) (table : Text) (col : ColumnInfo) : Result Unit :=
  match schema.expectedType col.name with
  | none => .error (.text ("insert block for " ++ String.ofList table
      ++ " contains unknown column '" ++ String.ofList col.name ++ "'"))
  | some expected =>
    if expected ≠ col.typeName then
      .error (.text ("insert block for " ++ String.ofList table ++ " column '"
        ++ String.ofList col.name ++ "' has type '" ++ String.ofList col.typeName
        ++ "', expected '" ++ String.ofList expected ++ "'"))
    else .ok ()

/-- `validate_insert_block`. -/
def validateInsertBlock (schema : TableSchema) (table : Text) (block : Block) : Result Unit :=
  block.columns.forM (schema.validateColumn table)

end TableSchema

/-- `write_data_packet_compressed`. -/
def writeDataPacketCompressed (codec : Codec) (tableName : Text) (block : Block)
    (method : CompressionMethod) : Result Bytes := do
  let compressed ← encodeFrame codec (writeBlock block) method
  return encodeVarint 2 ++ writeString tableName ++ compressed

/-! ## §2. The session. -/

/-- A session.  The answer to it is read from `net`. -/
structure InsertSession where
  active : Bool
  compression : Option CompressionMethod
  tableName : Text
  schema : Option TableSchema
  useChunkedSend : Bool
  sendTimeout : Bool
  outlet : Outlet
  net : Net

namespace InsertSession

/-- `write_packet` has a timer only without chunked framing. -/
def timed (s : InsertSession) : Bool := !s.useChunkedSend && s.sendTimeout

variable (codec : Codec)

/-- The Data packet of a block. -/
def dataPacket (s : InsertSession) (block : Block) : Result Bytes :=
  match s.compression with
  | some .lz4 => writeDataPacketCompressed codec [] block .lz4
  | some .zstd => writeDataPacketCompressed codec [] block .zstd
  | some .none | none => .ok (writeDataPacket [] block)

/-- The check of a block against the schema, if the session has one. -/
def validate (s : InsertSession) (block : Block) : Result Unit :=
  match s.schema with
  | some schema => schema.validateInsertBlock s.tableName block
  | none => .ok ()

/-- What `send_data` does before its first write: the writes of its packet. -/
def prepare (s : InsertSession) (block : Block) : Result (List Bytes) :=
  if s.active then do
    s.validate block
    packetParts s.useChunkedSend (← s.dataPacket codec block)
  else .error (.text "INSERT session ended")

/-- The writes of a packet and the flush after them. -/
def put (s : InsertSession) (parts : List Bytes) : Outcome × InsertSession :=
  match s.outlet.writeParts s.timed parts with
  | (.ok, o) => (o.flush.1, { s with outlet := o.flush.2 })
  | (out, o) => (out, { s with outlet := o })

/-- `send_data`. -/
def sendData (s : InsertSession) (block : Block) : Outcome × InsertSession :=
  match s.prepare codec block with
  | .error e => (.error e, s)
  | .ok parts => s.put parts

/-- The writes of the terminator. -/
def terminator (s : InsertSession) : Result (List Bytes) := do
  packetParts s.useChunkedSend (← s.dataPacket codec Block.empty)

/-- `end`: the terminator, and the drain of the response. -/
def finish (env : Env) (lim : Limits) (fuel : Nat) (s : InsertSession) : Outcome × InsertSession :=
  match s.terminator env.codec with
  | .error e => (.error e, s)
  | .ok parts =>
    match s.put parts with
    | (.ok, s) =>
      match drainResponse env lim fuel s.net with
      | (.ok (), net) => (.ok, { s with net := net, active := false })
      | (.error (.error e), net) => (.error e, { s with net := net })
      | (.error .depth, net) => (.dropped, { s with net := net })
    | out => out

/-- The transport takes every write of a packet and the flush after them. -/
def Takes (s : InsertSession) (parts : List Bytes) : Prop :=
  s.outlet.takes s.timed parts.length = true ∧
    ((s.outlet.writeParts s.timed parts).2).takes false 1 = true

instance (s : InsertSession) (parts : List Bytes) : Decidable (s.Takes parts) := by
  unfold Takes
  infer_instance

variable {s : InsertSession} {parts : List Bytes}

theorem put_taken (s : InsertSession) (parts : List Bytes) :
    ∃ o taken, (s.put parts).2 = { s with outlet := o } ∧ o.written = s.outlet.written ++ taken ∧
      taken <+: parts.flatten ∧ ((s.put parts).1 = .ok → taken = parts.flatten) := by
  obtain ⟨taken, hwritten, hpre, hall⟩ := @Outlet.writeParts_taken s.timed parts s.outlet
  unfold put
  rcases hout : s.outlet.writeParts s.timed parts with ⟨out, o⟩
  rw [hout] at hwritten hall
  cases out with
  | ok => exact ⟨_, taken, rfl, Outlet.flush_written.trans hwritten, hpre, fun _ => hall rfl⟩
  | error e | dropped => exact ⟨o, taken, rfl, hwritten, hpre, hall⟩

theorem put_takes (h : s.Takes parts) : (s.put parts).1 = .ok := by
  obtain ⟨hok, _⟩ := @Outlet.writeParts_takes s.timed parts s.outlet 0 h.1
  have hflush := h.2
  unfold put
  rcases hout : s.outlet.writeParts s.timed parts with ⟨out, o⟩
  rw [hout] at hok hflush
  obtain rfl : out = .ok := hok
  exact (Outlet.writeAll_takes hflush []).1

theorem put_refuses {part : Bytes} (h : s.outlet.refuses s.timed = true) :
    (s.put (part :: parts)).1 ≠ .ok ∧
      (s.put (part :: parts)).2.outlet.written = s.outlet.written := by
  obtain ⟨hne, hwritten⟩ := @Outlet.writeParts_refuses s.timed s.outlet part parts h
  unfold put
  rcases hout : s.outlet.writeParts s.timed (part :: parts) with ⟨out, o⟩
  rw [hout] at hne hwritten
  cases out with
  | ok => exact absurd rfl hne
  | error e | dropped => exact ⟨hne, hwritten⟩

/-! ## §3. Sequences of calls. -/

/-- A call of the session; `end` takes the session with it. -/
inductive Call where
  | sendData (block : Block)
  | finish

/-- An attempt to write a packet: its bytes on the wire, framing included, and those the
    transport has taken. -/
structure Attempt where
  packet : Bytes
  taken : Bytes
  deriving DecidableEq

/-- A session with what has happened in it: the packets it tried to write, the blocks whose
    `send_data` returned Ok, and the outcome of `end`. -/
structure History where
  session : InsertSession
  attempts : List Attempt
  sent : List Block
  ended : Option Outcome

/-- The attempts after a call that writes the parts of a packet, if it gets to that. -/
def History.attempted (h : History) (parts : Result (List Bytes))
    (s : InsertSession) : List Attempt :=
  match parts with
  | .ok parts => h.attempts ++
      [⟨parts.flatten, s.outlet.written.drop h.session.outlet.written.length⟩]
  | .error _ => h.attempts

/-- One call. -/
def History.step (env : Env) (lim : Limits) (fuel : Nat) (h : History) (call : Call) :
    Option History :=
  if h.ended.isSome then none
  else
    match call with
    | .sendData block =>
      let out := h.session.sendData env.codec block
      some { session := out.2
             attempts := h.attempted (h.session.prepare env.codec block) out.2
             sent := if out.1 = .ok then h.sent ++ [block] else h.sent
             ended := none }
    | .finish =>
      let out := h.session.finish env lim fuel
      some { session := out.2
             attempts := h.attempted (h.session.terminator env.codec) out.2
             sent := h.sent
             ended := some out.1 }

/-- No byte of a packet is on the wire behind a part of an earlier one. -/
def WholePackets (attempts : List Attempt) : Prop :=
  attempts.Pairwise fun a b => b.taken ≠ [] → a.taken = [] ∨ a.taken = a.packet

/-- The packet of a block on the wire. -/
def onWire (s : InsertSession) (block : Block) : Bytes :=
  match s.dataPacket codec block >>= packetParts s.useChunkedSend with
  | .ok parts => parts.flatten
  | .error _ => []

/-- The condition on a call that is followed by another: it is refused before its first
    write, or the transport takes the writes of the packet and the flush, or it refuses
    the first write without taking a byte. -/
def Unbroken (h : History) : Call → Prop
  | .sendData block => ∀ parts, h.session.prepare codec block = .ok parts →
      h.session.Takes parts ∨ h.session.outlet.refuses h.session.timed = true
  | .finish => True

/-- A session in which every packet so far is on the wire whole or not at all. -/
structure Whole (codec : Codec) (start : InsertSession) (h : History) : Prop where
  config : h.session = { start with outlet := h.session.outlet }
  written : h.session.outlet.written = start.outlet.written ++ h.attempts.flatMap Attempt.taken
  each : ∀ a ∈ h.attempts, a.taken = [] ∨ a.taken = a.packet
  sent : h.attempts.flatMap Attempt.taken = h.sent.flatMap (start.onWire codec)

variable {codec : Codec} {start : InsertSession} {h h' : History}

theorem Whole.init (codec : Codec) (start : InsertSession) :
    Whole codec start ⟨start, [], [], none⟩ where
  config := rfl
  written := (append_nil _).symm
  each := fun _ ha => absurd ha not_mem_nil
  sent := rfl

variable {block : Block} {parts : List Bytes}

theorem prepare_onWire (hprep : s.prepare codec block = .ok parts) :
    parts.flatten = s.onWire codec block := by
  unfold prepare at hprep
  split at hprep
  · obtain ⟨_, _, hpacket⟩ := bind_eq_ok hprep
    have hparts : (s.dataPacket codec block >>= packetParts s.useChunkedSend) = .ok parts := hpacket
    unfold onWire
    rw [hparts]
  · cases hprep

theorem prepare_ne_nil (hprep : s.prepare codec block = .ok parts) :
    ∃ part more, parts = part :: more := by
  unfold prepare at hprep
  split at hprep
  · obtain ⟨_, _, hpacket⟩ := bind_eq_ok hprep
    obtain ⟨_, _, hparts⟩ := bind_eq_ok hpacket
    exact packetParts_ne_nil hparts
  · cases hprep

theorem onWire_config (o : Outlet) (block : Block) :
    onWire codec { s with outlet := o } block = s.onWire codec block := rfl

/-- The writes of a packet are the attempt, whatever has become of them. -/
theorem attempted_eq (hw : Whole codec start h) (parts : List Bytes) {s' : InsertSession}
    {taken : Bytes} (hwritten : s'.outlet.written = h.session.outlet.written ++ taken) :
    h.attempted (.ok parts) s' = h.attempts ++ [⟨parts.flatten, taken⟩] ∧
      s'.outlet.written = start.outlet.written ++
        (h.attempted (.ok parts) s').flatMap Attempt.taken := by
  have heq : h.attempted (.ok parts) s' = h.attempts ++ [⟨parts.flatten, taken⟩] := by
    unfold History.attempted
    rw [hwritten, drop_left]
  refine ⟨heq, ?_⟩
  rw [heq, hwritten, hw.written, flatMap_append, append_assoc]
  simp

theorem Whole.pairwise (hw : Whole codec start h) (a : Attempt) :
    WholePackets (h.attempts ++ [a]) := by
  unfold WholePackets
  rw [pairwise_append]
  refine ⟨?_, pairwise_singleton _ _, ?_⟩
  · refine List.Pairwise.imp_of_mem ?_ (pairwise_of_forall (fun _ _ => trivial))
    intro a b ha _ _ _
    exact hw.each a ha
  · intro a ha b _ _
    exact hw.each a ha

/-- **One `send_data` keeps it**, if its packet is not torn. -/
theorem Whole.sendData (env : Env) (lim : Limits) (fuel : Nat) (hw : Whole env.codec start h)
    (hunbroken : Unbroken env.codec h (.sendData block))
    (hstep : h.step env lim fuel (.sendData block) = some h') : Whole env.codec start h' := by
  unfold History.step at hstep
  split at hstep
  · cases hstep
  obtain rfl := (Option.some.inj hstep).symm
  clear hstep
  unfold InsertSession.sendData
  have hun : ∀ parts, h.session.prepare env.codec block = .ok parts → _ := hunbroken
  rcases hprep : h.session.prepare env.codec block with e | parts
  · exact ⟨hw.config, hw.written, hw.each, hw.sent⟩
  obtain ⟨o, taken, hsession, hwritten, _, hall⟩ := h.session.put_taken parts
  have hout : (h.session.put parts).2.outlet.written
      = h.session.outlet.written ++ taken := by
    rw [hsession]
    exact hwritten
  obtain ⟨hattempts, htotal⟩ := attempted_eq hw parts hout
  have hflat := prepare_onWire hprep
  rw [hw.config, onWire_config] at hflat
  -- the packet is on the wire whole and the call returns Ok, or neither
  have hcases : ((h.session.put parts).1 = .ok ∧ taken = parts.flatten) ∨
      ((h.session.put parts).1 ≠ .ok ∧ taken = []) := by
    rcases hun parts hprep with htakes | hrefuses
    · exact .inl ⟨put_takes htakes, hall (put_takes htakes)⟩
    obtain ⟨part, more, rfl⟩ := prepare_ne_nil hprep
    obtain ⟨hne, hsame⟩ := @put_refuses h.session more part hrefuses
    rw [hout] at hsame
    exact .inr ⟨hne, append_cancel_left (hsame.trans (append_nil _).symm)⟩
  refine ⟨?_, htotal, ?_, ?_⟩
  · show (h.session.put parts).2 = _
    rw [hsession, hw.config]
  · intro a ha
    rw [show History.attempts _ = _ from hattempts] at ha
    rcases mem_append.mp ha with ha | ha
    · exact hw.each a ha
    · obtain rfl := mem_singleton.mp ha
      exact hcases.symm.imp (fun hc => hc.2) (fun hc => hc.2)
  show (h.attempted (.ok parts) _).flatMap _ = .flatMap _ (if _ then _ else _)
  rw [hattempts, flatMap_append, hw.sent]
  rcases hcases with ⟨hok, htaken⟩ | ⟨hne, htaken⟩
  · rw [if_pos hok, flatMap_append, htaken, hflat]
    simp
  · rw [if_neg hne, htaken]
    simp

/-- `end`: its terminator is an attempt like any other, on the wire whole where it returns
    Ok. -/
theorem finish_taken (env : Env) (lim : Limits) (fuel : Nat) (s : InsertSession) :
    (∃ e, s.terminator env.codec = .error e ∧ s.finish env lim fuel = (.error e, s)) ∨
      ∃ parts taken, s.terminator env.codec = .ok parts ∧
        (s.finish env lim fuel).2.outlet.written = s.outlet.written ++ taken ∧
        ((s.finish env lim fuel).1 = .ok → taken = parts.flatten) := by
  unfold finish
  rcases hterm : s.terminator env.codec with e | parts
  · exact .inl ⟨e, rfl, rfl⟩
  obtain ⟨o, taken, hsession, hwritten, _, hall⟩ := s.put_taken parts
  refine .inr ⟨parts, taken, rfl, ?_⟩
  dsimp only
  rcases hput : s.put parts with ⟨out, s'⟩
  rw [hput] at hsession hall
  obtain rfl : s' = { s with outlet := o } := hsession
  cases out with
  | ok =>
    dsimp only
    split
    · exact ⟨hwritten, fun _ => hall rfl⟩
    · exact ⟨hwritten, nofun⟩
    · exact ⟨hwritten, nofun⟩
  | error e | dropped => exact ⟨hwritten, hall⟩

theorem terminator_onWire (hterm : s.terminator codec = .ok parts) :
    parts.flatten = s.onWire codec Block.empty := by
  unfold onWire
  have hparts : (s.dataPacket codec Block.empty >>= packetParts s.useChunkedSend) = .ok parts := hterm
  rw [hparts]

theorem step_open {env : Env} {lim : Limits} {fuel : Nat} {call : Call}
    (hstep : h.step env lim fuel call = some h') : h.ended = none := by
  unfold History.step at hstep
  split at hstep
  · cases hstep
  · rename_i hsome
    exact Option.not_isSome_iff_eq_none.mp hsome

/-- **A run of calls that are not torn** leaves whole packets. -/
theorem whole_of_run {env : Env} {lim : Limits} {fuel : Nat} {calls : List Call}
    (hrun : Run (History.step env lim fuel) (Unbroken env.codec) ⟨start, [], [], none⟩ calls h) :
    h.ended = none → Whole env.codec start h := by
  refine hrun.invariant (I := fun h => h.ended = none → Whole env.codec start h) ?_
    (fun _ => .init env.codec start)
  intro g call g' hg hok hstep hnone
  have hbefore := step_open hstep
  cases call with
  | sendData block => exact (hg hbefore).sendData env lim fuel hok hstep
  | finish =>
    unfold History.step at hstep
    rw [hbefore] at hstep
    cases hstep
    cases hnone

theorem Whole.attempt (hw : Whole codec start h) (parts : List Bytes)
    {s' : InsertSession} {taken : Bytes}
    (hout : s'.outlet.written = h.session.outlet.written ++ taken) :
    WholePackets (h.attempted (.ok parts) s') ∧
      s'.outlet.written = start.outlet.written ++
        (h.attempted (.ok parts) s').flatMap Attempt.taken := by
  obtain ⟨hattempts, htotal⟩ := attempted_eq hw parts hout
  refine ⟨?_, htotal⟩
  exact hw.pairwise _

/-- **While every packet is taken whole or not at all, only whole packets precede a byte.**
    After every sequence of calls that are not torn, one more call, which may be torn
    anywhere, leaves no packet behind a part of another; and where it is an `end` that
    returns Ok, the wire holds the packets of the calls that returned Ok and the
    terminator. -/
theorem wholePackets_of_run (env : Env) (lim : Limits) (fuel : Nat) {start : InsertSession}
    {calls : List Call} {h h' : History} {call : Call}
    (hrun : Run (History.step env lim fuel) (Unbroken env.codec) ⟨start, [], [], none⟩ calls h)
    (hlast : h.step env lim fuel call = some h') :
    WholePackets h'.attempts ∧
      h'.session.outlet.written
        = start.outlet.written ++ h'.attempts.flatMap Attempt.taken ∧
      (h'.ended = some .ok → h'.session.outlet.written
        = start.outlet.written ++ (h'.sent.flatMap (start.onWire env.codec)
            ++ start.onWire env.codec Block.empty)) := by
  have hopen := step_open hlast
  have hw := whole_of_run hrun hopen
  have hbefore : WholePackets h.attempts := (pairwise_append.mp (hw.pairwise ⟨[], []⟩)).1
  unfold History.step at hlast
  rw [hopen] at hlast
  cases call with
  | sendData block =>
    cases hlast
    unfold InsertSession.sendData
    rcases hprep : h.session.prepare env.codec block with e | parts
    · exact ⟨hbefore, hw.written, nofun⟩
    obtain ⟨o, taken, hsession, hwritten, _, _⟩ := h.session.put_taken parts
    have hout : (h.session.put parts).2.outlet.written
        = h.session.outlet.written ++ taken := by
      rw [hsession]
      exact hwritten
    obtain ⟨hwhole, htotal⟩ := hw.attempt parts hout
    exact ⟨hwhole, htotal, nofun⟩
  | finish =>
    cases hlast
    rcases finish_taken env lim fuel h.session with
      ⟨e, hterm, heq⟩ | ⟨parts, taken, hterm, hout, hall⟩
    · rw [hterm, heq]
      exact ⟨hbefore, hw.written, nofun⟩
    rw [hterm]
    obtain ⟨hwhole, htotal⟩ := hw.attempt parts hout
    refine ⟨hwhole, htotal, fun hended => ?_⟩
    have hflat := terminator_onWire hterm
    rw [hw.config, onWire_config] at hflat
    rw [hout, hall (Option.some.inj hended), hflat, hw.written, hw.sent, append_assoc]

/-- A session without compression and framing; the server answers with EndOfStream. -/
def plainSession (fates : List Fate) : InsertSession where
  active := true
  compression := none
  tableName := "t".toList
  schema := none
  useChunkedSend := false
  sendTimeout := true
  outlet := ⟨[], fates⟩
  net := { incoming := [5] }

/-- One row of a `UInt8` column. -/
def oneRow : Block := ⟨[⟨"x".toList, "UInt8".toList, [7]⟩], 1⟩

/-- A write that is refused, a packet that is written, and `end`. -/
theorem wholePackets_of_run_refused :
    ∃ h h', Run (History.step plainEnv ⟨false, false⟩ 2) (Unbroken plainEnv.codec)
        ⟨plainSession [.late 0], [], [], none⟩ [.sendData oneRow, .sendData oneRow] h ∧
      h.step plainEnv ⟨false, false⟩ 2 .finish = some h' ∧ h'.ended = some .ok ∧
      WholePackets h'.attempts ∧ h'.session.outlet.written
        = (plainSession [.late 0]).onWire plainEnv.codec oneRow
          ++ (plainSession [.late 0]).onWire plainEnv.codec Block.empty := by
  have hrun : Run (History.step plainEnv ⟨false, false⟩ 2) (Unbroken plainEnv.codec)
      ⟨plainSession [.late 0], [], [], none⟩ [.sendData oneRow, .sendData oneRow] _ :=
    .cons (fun _ _ => .inr rfl) rfl (.cons (fun _ hparts => .inl (by cases hparts; decide +kernel))
      rfl (.nil _))
  obtain ⟨hwhole, _, hwire⟩ := wholePackets_of_run plainEnv ⟨false, false⟩ 2 hrun
    (show History.step plainEnv ⟨false, false⟩ 2 _ .finish = some _ from rfl)
  exact ⟨_, _, hrun, rfl, by decide +kernel, hwhole,
    (hwire (by decide +kernel)).trans (by decide +kernel)⟩

/-- A `send_data` whose future is dropped after three bytes; `end` writes the terminator
    behind them and returns Ok. -/
theorem torn_packet_goes_on :
    ∃ h, exec (History.step plainEnv ⟨false, false⟩ 2) ⟨plainSession [.dropped 3], [], [], none⟩
        [.sendData oneRow, .finish] = some h ∧
      h.ended = some .ok ∧ ¬ WholePackets h.attempts ∧ h.sent = [] ∧
      h.session.outlet.written ≠ (plainSession []).onWire plainEnv.codec Block.empty := by
  refine ⟨_, rfl, ?_, ?_, ?_, ?_⟩
  · decide +kernel
  · unfold WholePackets
    decide +kernel
  · decide +kernel
  · decide +kernel

end InsertSession

end StClickHouse
