/-
  StClickHouse.Python.Lending
  **THE OPERATIONS OF `AsyncClient` AND THE POOL THEY BORROW FROM.**

  `ConnectionPool` lends connections; one-shot operations (`_run_pooled`), sessions, insert
  streams and query streams hold them.  A holder's calls run on executor threads while a
  task awaits them; a query stream has a reader and a forwarder thread besides.  Tasks are
  cancelled, streams abandoned and sends time out at any moment, and every step below is
  one that no other thread can divide.

  A slot of the pool is its client: a replaced client makes a new slot.  The owner in
  `lent` is a note of the model, the pool's `_lent` has the slot only.
-/
import StClickHouse.Lib.Runs

namespace StClickHouse.Python

/-! ## §1. Connections and native calls. -/

/-- What is outstanding on a connection: nothing, an INSERT that waits for blocks, a
    response that a stream reads, or something nobody will read. -/
inductive Wire where
  | rest
  | inserting
  | streaming
  | broken
deriving DecidableEq, Repr

/-- The calls of the native client.  `quiet` are a session's `ping` and `set_setting`,
    whose cancellation nobody handles; `request` are all others that are complete in
    themselves. -/
inductive Native where
  | request
  | quiet
  | beginInsert
  | sendData
  | endInsert
  | queryStream
deriving DecidableEq, Repr

/-- How a native call ends: it returns; it raises after the terminal packet was read (a
    server exception, or an oversized response that was drained); it raises before
    anything was written; it raises in any other way. -/
inductive CallEnd where
  | ok
  | answered
  | refused
  | broken
deriving DecidableEq, Repr

/-- What a call leaves on its connection. -/
def Wire.after : Native → CallEnd → Wire → Wire
  | _, .refused, w => w
  | .request, .ok, .rest => .rest
  | .request, .answered, .rest => .rest
  | .quiet, .ok, .rest => .rest
  | .quiet, .answered, .rest => .rest
  | .beginInsert, .ok, .rest => .inserting
  | .beginInsert, .answered, .rest => .rest
  | .sendData, .ok, .inserting => .inserting
  | .endInsert, .ok, .inserting => .rest
  | .endInsert, .answered, .inserting => .rest
  | .queryStream, .ok, .rest => .streaming
  | _, _, _ => .broken

/-- The ways a call can end.  `send_data` and `start_stream` read no answer, and
    `end_insert` writes at once unless the client was discarded. -/
def CallEnd.possible (native : Native) (discarded : Bool) : CallEnd → Bool
  | .ok => true
  | .answered => !(native = .sendData || native = .queryStream)
  | .refused => !(native = .endInsert) || discarded
  | .broken => true

/-! ## §2. Holders and their calls. -/

inductive OpKind where
  | oneShot
  | session
  | insertStream
  | queryStream
deriving DecidableEq, Repr

/-- The executor's side of a call. -/
inductive Worker where
  | queued
  | running
  | ended (e : CallEnd)
  | dropped
deriving DecidableEq, Repr

/-- A thread that will still use the connection. -/
def Worker.unfinished : Worker → Bool
  | .queued => true
  | .running => true
  | .ended _ => false
  | .dropped => false

/-- The task's side of a call.  Between `task.cancel()` and its handler the task is
    `cancelling`; `flagged` and `killed` are inside the handler of `_run_pooled`. -/
inductive TaskState where
  | awaiting
  | cancelling
  | flagged
  | killed
  | settled
deriving DecidableEq, Repr

structure NativeCall where
  holder : Nat
  native : Native
  worker : Worker
  task : TaskState
deriving DecidableEq, Repr

/-- Where a holder stands: `waiting` to `granted` are inside `_acquire`; `leaving` has
    evaluated the arguments of its `release`; `returned` has released its connection
    undestroyed and `gone` has destroyed it. -/
inductive Stage where
  | unused
  | waiting
  | growing
  | checking
  | granted
  | failed
  | working
  | leaving (destroy : Bool)
  | returned
  | gone
deriving DecidableEq, Repr

inductive ReaderState where
  | none
  | reading
  | ended
deriving DecidableEq, Repr

/-- `_abandon`: not called, between its look at `eos` and `client.discard()`, over. -/
inductive Abandon where
  | no
  | killing
  | finished
deriving DecidableEq, Repr

structure Holder where
  kind : OpKind
  stage : Stage
  conn : Nat
  /-- The acquire was cancelled; later, the event `cancelled` of `_run_pooled`. -/
  cancelled : Bool
  /-- A session that can be used, or an insert stream that is active. -/
  isOpen : Bool
  /-- The call that the holder's own coroutine awaits. -/
  main : Nat
  /-- The holder has shut its connection down. -/
  shut : Bool
  forwarding : Bool
  reader : ReaderState
  readFailed : Bool
  eos : Bool
  abandon : Abandon
deriving DecidableEq, Repr

def Holder.atStage (H : Holder) (stage : Stage) : Holder := { H with stage := stage }

/-- The holder has shut its connection down and cannot be used any more. -/
def Holder.struck (H : Holder) (stage : Stage) : Holder :=
  { H with shut := true, isOpen := false, stage := stage }

/-- An operation before its `_acquire`. -/
def Holder.fresh (kind : OpKind) (stage : Stage) : Holder where
  kind := kind
  stage := stage
  conn := 0
  cancelled := false
  isOpen := false
  main := 0
  shut := false
  forwarding := false
  reader := .none
  readFailed := false
  eos := false
  abandon := .no

/-! ## §3. The pool. -/

structure LendingPool where
  all : List Nat
  available : List Nat
  lent : List (Nat × Nat)
  creating : Nat
  closed : Bool
  minSize : Nat
  maxSize : Nat

namespace LendingPool

variable (p : LendingPool)

/-- `pc in self._lent`. -/
def isLent (c : Nat) : Bool := p.lent.any (fun l => l.1 = c)

/-- `_reserve` hands out the first available slot. -/
def lend (c h : Nat) (rest : List Nat) : LendingPool :=
  { p with available := rest, lent := (c, h) :: p.lent }

def setCreating (n : Nat) : LendingPool := { p with creating := n }

/-- `release(client)`: takes effect on a lent slot only. -/
def recycle (c : Nat) : LendingPool :=
  if !p.closed ∧ c ∈ p.all ∧ p.isLent c then
    { p with lent := p.lent.filter (fun l => l.1 ≠ c), available := p.available ++ [c] }
  else p

/-- `release(client, destroy=True)`, after the kill. -/
def remove (c : Nat) : LendingPool :=
  if !p.closed ∧ c ∈ p.all then
    { p with
      lent := p.lent.filter (fun l => l.1 ≠ c)
      available := p.available.filter (· ≠ c)
      all := p.all.filter (· ≠ c) }
  else p

/-- `_drop_slot`. -/
def dropSlot (c : Nat) : LendingPool :=
  { p with lent := p.lent.filter (fun l => l.1 ≠ c), all := p.all.filter (· ≠ c) }

/-- A slot that is lent as soon as it is there. -/
def lendNew (c h : Nat) : LendingPool :=
  { p with all := p.all ++ [c], lent := (c, h) :: p.lent }

/-- An idle slot is reaped. -/
def reap (c : Nat) : LendingPool :=
  { p with available := p.available.filter (· ≠ c), all := p.all.filter (· ≠ c) }

/-- `close`. -/
def close : LendingPool :=
  { p with all := [], available := [], lent := [], closed := true }

end LendingPool

structure World where
  pool : LendingPool
  nextConn : Nat
  wire : Nat → Wire
  /-- `client.discarded`. -/
  discarded : Nat → Bool
  holders : Nat → Holder
  calls : Nat → Option NativeCall

/-- A client with `min` connections. -/
def World.start (min max : Nat) : World where
  pool := ⟨List.range min, List.range min, [], 0, false, min, max⟩
  nextConn := min
  wire := fun _ => .rest
  discarded := fun _ => false
  holders := fun _ => Holder.fresh .oneShot .unused
  calls := fun _ => none

/-! ## §4. Steps. -/

/-- The steps of `_acquire`: the worker in `ConnectionPool.acquire` and its task. -/
inductive AcquireAction where
  | reserve
  | book
  | giveUp
  | grow
  | growFail
  | handOut
  | replace
  | drop
  | cancel
  | reclaim
  | enter (k : Nat)
deriving DecidableEq, Repr

/-- The steps of a call: its worker and the task that awaits it. -/
inductive CallAction where
  | run
  | unqueue
  | finish (e : CallEnd)
  | cancel
  | timeOut
  | notice
  | handle
  | flag
  | kill
  | remove
  | leave
  | dropStream
deriving DecidableEq, Repr

/-- The other steps of a holder, and of its stream's threads. -/
inductive HolderAction where
  | submit (k : Nat) (native : Native)
  | close (k : Nat)
  | giveBack
  | readEnd
  | readFake
  | readFail
  | forwarded
  | abandon
  | abandonKill
deriving DecidableEq, Repr

inductive WorldAction where
  | start (h : Nat) (kind : OpKind)
  | acquire (h : Nat) (a : AcquireAction)
  | call (k : Nat) (a : CallAction)
  | holder (h : Nat) (a : HolderAction)
  | reap (c : Nat)
  | closePool
deriving DecidableEq, Repr

namespace World

variable (s : World)

def setHolder (h : Nat) (H : Holder) : World :=
  { s with holders := Function.update s.holders h H }

def setCall (k : Nat) (K : NativeCall) : World :=
  { s with calls := Function.update s.calls k (some K) }

def setWire (c : Nat) (w : Wire) : World :=
  { s with wire := Function.update s.wire c w }

def setPool (p : LendingPool) : World := { s with pool := p }

def setDiscarded (c : Nat) : World :=
  { s with discarded := Function.update s.discarded c true }

/-- A client was created. -/
def bumpConn : World := { s with nextConn := s.nextConn + 1 }

/-- `pool.release(client)`. -/
def release (h : Nat) : World :=
  (s.setHolder h ((s.holders h).atStage .returned)).setPool (s.pool.recycle (s.holders h).conn)

/-- `client.discard()`. -/
def discard (h : Nat) (H : Holder) : World :=
  (s.setHolder h { H with shut := true }).setDiscarded H.conn

/-- `pool.discard(client)`, and where the holder stands afterwards. -/
def destroy (h : Nat) (stage : Stage) : World :=
  ((s.setHolder h ((s.holders h).struck stage)).setPool
    (s.pool.remove (s.holders h).conn)).setDiscarded (s.holders h).conn

/-- The call that a holder makes as soon as it has its connection. -/
def firstCall : OpKind → Option Native
  | .oneShot => some .request
  | .session => none
  | .insertStream => some .beginInsert
  | .queryStream => some .queryStream

/-- The calls that a holder makes later. -/
def laterCall : OpKind → Native → Bool
  | .session, .request => true
  | .session, .quiet => true
  | .insertStream, .sendData => true
  | _, _ => false

/-- `ConnectionPool.acquire` on its executor, and the task that awaits it. -/
def acquireStep (h : Nat) (H : Holder) : AcquireAction → Option World
  | .reserve =>
    match H.stage, s.pool.available with
    | .waiting, c :: rest =>
      if s.pool.closed then none
      else
        some ((s.setHolder h { H with stage := .checking, conn := c }).setPool
          (s.pool.lend c h rest))
    | _, _ => none
  | .book =>
    if H.stage = .waiting ∧ !s.pool.closed ∧ s.pool.available = [] ∧
        s.pool.all.length + s.pool.creating < s.pool.maxSize then
      some ((s.setHolder h (H.atStage .growing)).setPool
        (s.pool.setCreating (s.pool.creating + 1)))
    else none
  | .giveUp =>
    if H.stage = .waiting then some (s.setHolder h (H.atStage .failed)) else none
  | .grow =>
    if H.stage = .growing then
      if s.pool.closed then
        some ((s.setHolder h (H.atStage .failed)).setPool
          (s.pool.setCreating (s.pool.creating - 1))).bumpConn
      else
        some ((s.setHolder h { H with stage := .granted, conn := s.nextConn }).setPool
          ((s.pool.setCreating (s.pool.creating - 1)).lendNew s.nextConn h)).bumpConn
    else none
  | .growFail =>
    if H.stage = .growing then
      some ((s.setHolder h (H.atStage .failed)).setPool
        (s.pool.setCreating (s.pool.creating - 1)))
    else none
  -- The slot was used lately, or answers a ping.
  | .handOut =>
    if H.stage = .checking then
      if s.pool.closed ∨ !s.pool.isLent H.conn then
        some (s.setHolder h (H.atStage .failed))
      else some (s.setHolder h (H.atStage .granted))
    else none
  -- The ping failed and there is a new client for the slot.
  | .replace =>
    if H.stage = .checking then
      if s.pool.closed ∨ !s.pool.isLent H.conn then
        some (s.setHolder h (H.atStage .failed)).bumpConn
      else
        some ((s.setHolder h { H with stage := .granted, conn := s.nextConn }).setPool
          ((s.pool.dropSlot H.conn).lendNew s.nextConn h)).bumpConn
    else none
  -- The ping failed and there is no new client.
  | .drop =>
    if H.stage = .checking then
      some ((s.setHolder h (H.atStage .failed)).setPool (s.pool.dropSlot H.conn))
    else none
  | .cancel =>
    if (H.stage = .waiting ∨ H.stage = .growing ∨ H.stage = .checking ∨
        H.stage = .granted) ∧ !H.cancelled then
      some (s.setHolder h { H with cancelled := true })
    else none
  | .reclaim => if H.stage = .granted ∧ H.cancelled then some (s.release h) else none
  | .enter k =>
    if H.stage = .granted ∧ !H.cancelled ∧ s.calls k = none then
      match firstCall H.kind with
      | none => some (s.setHolder h { H with stage := .working, isOpen := true })
      | some native =>
        some ((s.setHolder h { H with stage := .working, main := k }).setCall k
          ⟨h, native, .queued, .awaiting⟩)
    else none

/-- The task resumes with the result of its call. -/
def noticeCall (k : Nat) (K : NativeCall) (H : Holder) : Option World :=
  let s' := s.setCall k { K with task := .settled }
  match K.native, K.worker with
  | .request, .ended _ =>
    -- A one-shot operation's worker releases before its future is done.
    if H.kind = .oneShot ∧ H.stage ≠ .returned ∧ H.stage ≠ .gone then none else some s'
  | .quiet, .ended _ => some s'
  | .sendData, .ended _ => some s'
  | .beginInsert, .ended .ok =>
    if H.stage = .working ∧ H.main = k then some (s'.setHolder K.holder { H with isOpen := true })
    else none
  | .beginInsert, .ended _ =>
    if H.stage = .working ∧ H.main = k then some (s'.destroy K.holder .gone) else none
  | .endInsert, .ended _ =>
    if H.stage = .working ∧ H.main = k then some (s'.release K.holder) else none
  | .queryStream, .ended .ok =>
    if H.stage = .working ∧ H.main = k then
      some (s'.setHolder K.holder { H with forwarding := true })
    else none
  | .queryStream, .ended _ =>
    if H.stage = .working ∧ H.main = k then some (s'.release K.holder) else none
  | _, _ => none

/-- `except asyncio.CancelledError`, but for one-shot operations. -/
def handleCall (k : Nat) (K : NativeCall) (H : Holder) : Option World :=
  let s' := s.setCall k { K with task := .settled }
  match K.native with
  | .request => if H.kind = .oneShot then none else some (s'.destroy K.holder H.stage)
  | .quiet => some s'
  | .sendData => some (s'.destroy K.holder H.stage)
  | .beginInsert =>
    if H.stage = .working ∧ H.main = k then some (s'.destroy K.holder .gone) else none
  | .endInsert =>
    if H.stage = .working ∧ H.main = k then some (s'.destroy K.holder .gone) else none
  | .queryStream =>
    if H.stage = .working ∧ H.main = k then some (s'.release K.holder) else none

/-- A call, on its executor thread and in its task. -/
def callStep (k : Nat) (K : NativeCall) (H : Holder) : CallAction → Option World
  | .run => if K.worker = .queued then some (s.setCall k { K with worker := .running }) else none
  | .unqueue =>
    if K.worker = .queued ∧ K.task ≠ .awaiting then
      some (s.setCall k { K with worker := .dropped })
    else none
  | .finish e =>
    if K.worker = .running ∧ e.possible K.native (s.discarded H.conn) then
      let s' := (s.setCall k { K with worker := .ended e }).setWire H.conn
        ((s.wire H.conn).after K.native e)
      if K.native = .queryStream ∧ e = .ok then
        some (s'.setHolder K.holder { H with reader := .reading })
      else some s'
    else none
  | .cancel =>
    if K.task = .awaiting then some (s.setCall k { K with task := .cancelling }) else none
  | .timeOut =>
    if K.task = .awaiting ∧ K.native = .sendData then
      some (s.setCall k { K with task := .settled })
    else none
  | .notice => if K.task = .awaiting then s.noticeCall k K H else none
  | .handle => if K.task = .cancelling then s.handleCall k K H else none
  | .flag =>
    if K.task = .cancelling ∧ H.kind = .oneShot then
      some ((s.setCall k { K with task := .flagged }).setHolder K.holder
        { H with cancelled := true })
    else none
  | .kill =>
    if K.task = .flagged then
      some ((s.setCall k { K with task := .killed }).discard K.holder H)
    else none
  | .remove =>
    if K.task = .killed then
      some ((s.setCall k { K with task := .settled }).setPool (s.pool.remove H.conn))
    else none
  | .leave =>
    match K.worker with
    | .ended _ =>
      if H.kind = .oneShot ∧ H.stage = .working then
        some (s.setHolder K.holder (H.atStage (.leaving H.cancelled)))
      else none
    | _ => none
  -- The result of a `query_stream` call that nobody awaits any more.
  | .dropStream =>
    if K.native = .queryStream ∧ H.stage = .returned ∧ H.reader = .reading ∧
        !H.forwarding then
      some (s.setHolder K.holder { H with shut := true, reader := .ended })
    else none

/-- A holder's own steps: its later calls, its end, its stream's threads. -/
def holderStep (h : Nat) (H : Holder) : HolderAction → Option World
  | .submit k native =>
    if H.stage = .working ∧ H.isOpen ∧ laterCall H.kind native ∧ s.calls k = none then
      some (s.setCall k ⟨h, native, .queued, .awaiting⟩)
    else none
  | .close k =>
    match H.kind with
    | .session => if H.stage = .working then some (s.release h) else none
    | .insertStream =>
      if H.stage = .working ∧ H.isOpen ∧ s.calls k = none then
        some ((s.setHolder h { H with isOpen := false, main := k }).setCall k
          ⟨h, .endInsert, .queued, .awaiting⟩)
      else none
    | _ => none
  | .giveBack =>
    match H.stage with
    | .leaving false => some (s.release h)
    | .leaving true => some (s.destroy h .gone)
    | _ => none
  | .readEnd =>
    if H.reader = .reading ∧ s.wire H.conn = .streaming then
      some ((s.setHolder h { H with reader := .ended, eos := true }).setWire H.conn .rest)
    else none
  -- `Ok(None)` at the end of the input, or a terminal packet that was none.
  | .readFake =>
    if H.reader = .reading then
      some ((s.setHolder h { H with reader := .ended, eos := true }).setWire H.conn .broken)
    else none
  | .readFail =>
    if H.reader = .reading then
      some ((s.setHolder h { H with readFailed := true }).setWire H.conn .broken)
    else none
  | .forwarded =>
    if H.stage = .working ∧ H.forwarding ∧ (H.eos ∨ H.readFailed ∨ H.abandon ≠ .no) then
      some (s.setHolder h (H.atStage (.leaving (s.discarded H.conn || !H.eos))))
    else none
  | .abandon =>
    if H.forwarding ∧ H.abandon = .no then
      some (s.setHolder h { H with abandon := if H.eos then .finished else .killing })
    else none
  | .abandonKill =>
    if H.abandon = .killing then
      some (s.discard h { H with abandon := .finished })
    else none

/-- One step. -/
def step : WorldAction → Option World
  | .start h kind =>
    if (s.holders h).stage = .unused then some (s.setHolder h (Holder.fresh kind .waiting))
    else none
  | .acquire h a => s.acquireStep h (s.holders h) a
  | .call k a =>
    match s.calls k with
    | some K => s.callStep k K (s.holders K.holder) a
    | none => none
  | .holder h a => s.holderStep h (s.holders h) a
  | .reap c =>
    if !s.pool.closed ∧ c ∈ s.pool.available ∧ s.pool.minSize < s.pool.available.length then
      some (s.setPool (s.pool.reap c))
    else none
  | .closePool => some (s.setPool s.pool.close)

/-! ## §5. What a step kills and what it returns. -/

/-- The connection a step kills or whose slot it removes, and the operation it does that
    for. -/
def cleanup : WorldAction → Option (Nat × Nat)
  | .call k a =>
    match s.calls k with
    | none => none
    | some K =>
      let mine := some (K.holder, (s.holders K.holder).conn)
      match a, K.native, K.worker with
      | .kill, _, _ => mine
      | .remove, _, _ => mine
      | .dropStream, _, _ => mine
      | .handle, .quiet, _ => none
      | .handle, .queryStream, _ => none
      | .handle, _, _ => mine
      | .notice, .beginInsert, .ended .ok => none
      | .notice, .beginInsert, .ended _ => mine
      | _, _, _ => none
  | .holder h .giveBack =>
    if (s.holders h).stage = .leaving true then some (h, (s.holders h).conn) else none
  | .holder h .abandonKill => some (h, (s.holders h).conn)
  | _ => none

/-- The step calls `release(client)` for the operation. -/
def releases : WorldAction → Option Nat
  | .acquire h .reclaim => some h
  | .call k a =>
    match s.calls k with
    | none => none
    | some K =>
      match a, K.native, K.worker with
      | .notice, .endInsert, .ended _ => some K.holder
      | .notice, .queryStream, .ended .ok => none
      | .notice, .queryStream, .ended _ => some K.holder
      | .handle, .queryStream, _ => some K.holder
      | _, _, _ => none
  | .holder h (.close _) => if (s.holders h).kind = .session then some h else none
  | .holder h .giveBack => if (s.holders h).stage = .leaving false then some h else none
  | _ => none

/-- The connection a step returns to the pool undestroyed, if the pool takes it. -/
def recycled (a : WorldAction) : Option (Nat × Nat) :=
  match s.releases a with
  | none => none
  | some h =>
    let c := (s.holders h).conn
    if !s.pool.closed ∧ c ∈ s.pool.all ∧ s.pool.isLent c then some (h, c) else none

end World

end StClickHouse.Python
