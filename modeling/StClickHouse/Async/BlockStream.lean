/-
  StClickHouse.Async.BlockStream
  **BLOCKS ONE AT A TIME.**

  `BlockStream::next_block` (`connection/block_stream.rs`): packets are read until a
  Data block with rows, and some of the ways out latch the stream as done.

      nextBlock_runs — where every packet decodes, any sequence of calls returns
                       the response's blocks in order, and nothing after its end
      nextBlock_afterBrokenTimezone — a body that does not decode is not an end
-/
import StClickHouse.Async.Response

namespace StClickHouse

open ByteReader RustText List

/-! ## §1. The stream. -/

/-- `BlockStream`, with what it holds of the pool guard: the connection, whether it has
been taken out of the slot, and the in-flight mark. -/
structure BlockStream where
  net : Net
  done : Bool := false
  taken : Bool := false
  inFlight : Bool := true
  deriving Repr, DecidableEq

namespace BlockStream

variable {α : Type}

/-- Read the connection. -/
def onNet (x : Read Net α) : Read BlockStream α := fun s =>
  match x s.net with
  | (res, net) => (res, { s with net := net })

/-- `self.done = true`. -/
def latch : Read BlockStream Unit := fun s => (.ok (), { s with done := true })

/-- `self.guard.take_stream()`. -/
def takeStream : Read BlockStream Unit := fun s => (.ok (), { s with taken := true })

/-- `self.guard.clear_response_in_flight()`. -/
def clearResponseInFlight : Read BlockStream Unit := fun s =>
  (.ok (), { s with inFlight := false })

section

variable (env : Env) (lim : Limits) (callbacks : QueryCallbacks)

/-- Leave with an error for which the connection is given up. -/
def abandon (e : Error) : Read BlockStream α := do
  latch
  takeStream
  fail e

/-- Leave at the deadline: cancel, drain, and give the connection up. -/
def expire : Read BlockStream α := do
  latch
  onNet (ignore (cancelAndDrain env lim))
  takeStream
  fail (.timeout "query exceeded deadline")

/-- The packet type of `next_block`. -/
def header : Read BlockStream Nat := do
  let elapsed ← (if lim.deadline then onNet Net.outOfTime else pure false)
  if elapsed then expire env lim
  else
    match ← onNet (attempt (within (readVarintAsync (σ := Net)))) with
    | .ok (some packetType) => return packetType
    | .ok none =>
      if lim.deadline then expire env lim
      else abandon (.timeout "receive timeout while reading query response")
    | .error e => abandon e

/-- A Log or ProfileEvents block goes to both callbacks. -/
def emitLog (block : Block) : Read Net Unit := do
  Net.emit callbacks.onLog (.log block)
  Net.emit callbacks.onProfileEvents (.profileEvents block)

/-- The packets that do not end the response: the block that is returned, if any. -/
def body (packetType : Nat) : Read Net (Option Block) :=
  match packetType with
  | 1 => do
    let block ← readDataBlockMaybeCompressed env lim.compressed
    return if block.rows > 0 then some block else none
  | 3 => do
    let _ ← readProgressPacket
    return none
  | 4 => return none
  | 6 => do
    let _ ← readProfileInfoPacket
    return none
  | 10 => do
    -- Log blocks are always sent uncompressed
    let block ← readDataBlock env.depth
    emitLog callbacks block
    return none
  | 14 => do
    let block ← readDataBlockMaybeCompressed env lim.compressed
    emitLog callbacks block
    return none
  | 17 => do
    readTimezoneUpdate callbacks
    return none
  | 12 => do
    readPartUuidsUpdate callbacks
    return none
  | packetType => do
    if ← handleCoordinatorPacket packetType then return none
    else
      let e ← unsupportedServerPacket packetType
      fail e

/-- One packet of `next_block`.  Only the two packets that end the response latch it;
an error in a body leaves the stream as it is. -/
def turn : Read BlockStream (Turn Unit (Option Block)) := do
  match ← header env lim with
  | 5 => do
    latch
    clearResponseInFlight
    return .done none
  | 2 => do
    let e ← onNet readException
    latch
    clearResponseInFlight
    fail e
  | packetType => do
    match ← onNet (body env lim callbacks packetType) with
    | some block => return .done (some block)
    | none => return .more ()

/-- `next_block`. -/
def nextBlock (fuel : Nat) : Read BlockStream (Option Block) := fun s =>
  if s.done then (.ok none, s) else loop (fun _ => turn env lim callbacks) fuel () s

/-- Calls one after the other on the stream, each of which returns. -/
inductive Calls (start : BlockStream) : List (Result (Option Block)) → BlockStream → Prop
  | none : Calls start [] start
  | returned {fuel : Nat} {rs : List (Result (Option Block))} {r : Option Block}
      {s s' : BlockStream} : Calls start rs s → nextBlock env lim callbacks fuel s = (.ok r, s') →
      Calls start (rs ++ [.ok r]) s'
  | failed {fuel : Nat} {rs : List (Result (Option Block))} {e : Error} {s s' : BlockStream} :
      Calls start rs s → nextBlock env lim callbacks fuel s = (.error (.error e), s') →
      Calls start (rs ++ [.error e]) s'

/-! ## §2. The blocks of a response. -/

/-- The packet type of `next_block`, without its effect on the stream. -/
def streamHeader : Read Net Nat :=
  readPacketType env lim "receive timeout while reading query response"

/-- Packets that decode one after the other, and the non-empty Data blocks among them. -/
inductive Yields (start : Net) : List Block → Net → Prop
  | start : Yields start [] start
  | packet {bs : List Block} {packetType : Nat} {found : Option Block} {net net₁ net₂ : Net} :
      Yields start bs net → streamHeader env lim net = (.ok packetType, net₁) →
      packetType ≠ 5 → packetType ≠ 2 →
      body env lim callbacks packetType net₁ = (.ok found, net₂) →
      Yields start (bs ++ found.toList) net₂

/-- **The condition**: wherever decoded packets lead, the next packet decodes too. -/
def Orderly (start : Net) : Prop :=
  ∀ bs net packetType net₁, Yields env lim callbacks start bs net →
    streamHeader env lim net = (.ok packetType, net₁) → packetType ≠ 5 →
    if packetType = 2 then ∃ e net₂, readException net₁ = (.ok e, net₂)
    else ∃ found net₂, body env lim callbacks packetType net₁ = (.ok found, net₂)

end

section

variable {env : Env} {lim : Limits} {callbacks : QueryCallbacks}

variable {s s' : BlockStream} {start : Net} {bs : List Block} {fuel : Nat}

theorem expire_done {res : Readout α}
    (h : expire env lim s = (res, s')) : s'.done = true ∧ ∃ e, res = .error (.error e) := by
  cases h
  exact ⟨rfl, _, rfl⟩

theorem outOfTime_ok (net : Net) : ∃ elapsed net', Net.outOfTime net = (.ok elapsed, net') := by
  unfold Net.outOfTime
  split
  · exact ⟨true, _, rfl⟩
  · exact ⟨false, _, rfl⟩

theorem onNet_run {x : Read Net α} {s : BlockStream} {res : Readout α} {net : Net}
    (h : x s.net = (res, net)) : onNet x s = (res, { s with net := net }) := by
  unfold onNet
  rw [h]

/-- What the question for the deadline answers, to the stream and to its connection. -/
theorem elapsed_ok (lim : Limits) (s : BlockStream) : ∃ (elapsed : Bool) (net : Net),
    (if lim.deadline then onNet Net.outOfTime else pure false : Read BlockStream Bool) s
        = (.ok elapsed, { s with net := net }) ∧
      (if lim.deadline then Net.outOfTime else pure false : Read Net Bool) s.net
        = (.ok elapsed, net) := by
  by_cases hdeadline : lim.deadline
  · rw [if_pos hdeadline, if_pos hdeadline]
    obtain ⟨elapsed, net, hask⟩ := outOfTime_ok s.net
    exact ⟨elapsed, net, onNet_run hask, hask⟩
  · rw [if_neg hdeadline, if_neg hdeadline]
    exact ⟨false, s.net, rfl, rfl⟩

/-- **The header**: a packet type leaves the flags alone, an error latches the stream. -/
theorem header_cases {res : Readout Nat}
    (h : header env lim s = (res, s')) :
    (∃ packetType, res = .ok packetType ∧
      streamHeader env lim s.net = (.ok packetType, s'.net) ∧ s' = { s with net := s'.net }) ∨
    (∃ e, res = .error (.error e) ∧ s'.done = true) ∨ res = .error .depth := by
  obtain ⟨elapsed, net, hstream, hnet⟩ := elapsed_ok lim s
  unfold header at h
  rw [bind_ok hstream] at h
  cases elapsed with
  | true =>
    obtain ⟨hdone, e, he⟩ := expire_done h
    exact .inr (.inl ⟨e, he, hdone⟩)
  | false =>
    have hattempt : ∀ {r : Readout (Result (Option Nat))} {net' : Net},
        attempt (within (readVarintAsync (σ := Net))) net = (r, net') →
        onNet (attempt (within (readVarintAsync (σ := Net)))) { s with net := net }
          = (r, { s with net := net' }) := onNet_run (s := { s with net := net })
    rcases hread : within (readVarintAsync (σ := Net)) net with ⟨r, net'⟩
    cases r with
    | ok found =>
      have hok := @hattempt (.ok (.ok found)) net' (by unfold attempt; rw [hread])
      rw [if_neg (by decide), bind_ok hok] at h
      cases found with
      | some packetType =>
        cases h
        refine .inl ⟨packetType, rfl, ?_, rfl⟩
        unfold streamHeader readPacketType
        rw [bind_ok hnet]
        exact bind_ok hread
      | none =>
        by_cases hdeadline : lim.deadline
        · have hexpire : expire env lim { s with net := net' } = (res, s') := by
            rw [← h]
            exact (congrFun (if_pos hdeadline) _).symm
          obtain ⟨hdone, e, he⟩ := expire_done hexpire
          exact .inr (.inl ⟨e, he, hdone⟩)
        have habandon : abandon (.timeout "receive timeout while reading query response")
            { s with net := net' } = (res, s') := by
          rw [← h]
          exact (congrFun (if_neg hdeadline) _).symm
        cases habandon
        exact .inr (.inl ⟨_, rfl, rfl⟩)
    | error stop =>
      cases stop with
      | error e =>
        have hok := @hattempt (.ok (.error e)) net' (by unfold attempt; rw [hread])
        rw [if_neg (by decide), bind_ok hok] at h
        cases h
        exact .inr (.inl ⟨e, rfl, rfl⟩)
      | depth =>
        have hdepth := @hattempt (.error .depth) net' (by unfold attempt; rw [hread])
        rw [if_neg (by decide), bind_error hdepth] at h
        cases h
        exact .inr (.inr rfl)

/-- **What a turn can do** on a response whose packets decode: go on after a packet
without a block, return a block, or latch the stream. -/
theorem turn_cases_of_orderly (horderly : Orderly env lim callbacks start)
    (hyields : Yields env lim callbacks start bs s.net)
    {res : Readout (Turn Unit (Option Block))}
    (h : turn env lim callbacks s = (res, s')) :
    (∃ found, Yields env lim callbacks start (bs ++ found.toList) s'.net ∧ s'.done = s.done ∧
      res = .ok (match found with | some block => .done (some block) | none => .more ())) ∨
    (s'.done = true ∧ res = .ok (.done none) ∧ ∃ net', streamHeader env lim s.net = (.ok 5, net')) ∨
    (s'.done = true ∧ ∃ e, res = .error (.error e)) ∨ res = .error .depth := by
  unfold turn at h
  rcases hhead : header env lim s with ⟨r, s₁⟩
  obtain ⟨packetType, rfl, hheader, hs₁⟩ | ⟨e, rfl, hdone⟩ | rfl := header_cases hhead
  · rw [bind_ok hhead] at h
    split at h
    · -- EndOfStream
      cases h
      exact .inr (.inl ⟨rfl, rfl, s₁.net, hheader⟩)
    · -- an exception, which is read to its end
      have hread := horderly bs s.net 2 s₁.net hyields hheader (by decide)
      rw [if_pos rfl] at hread
      obtain ⟨e, net₂, hread⟩ := hread
      rw [bind_ok (onNet_run hread)] at h
      cases h
      exact .inr (.inr (.inl ⟨rfl, e, rfl⟩))
    · next hne5 hne2 =>
      have hread := horderly bs s.net packetType s₁.net hyields hheader hne5
      rw [if_neg hne2] at hread
      obtain ⟨found, net₂, hread⟩ := hread
      rw [bind_ok (onNet_run hread)] at h
      have hnext : Yields env lim callbacks start (bs ++ found.toList) net₂ :=
        .packet hyields hheader hne5 hne2 hread
      have hflag : s₁.done = s.done := by rw [hs₁]
      rcases found with _ | block
      · cases h
        exact .inl ⟨none, hnext, hflag, rfl⟩
      cases h
      exact .inl ⟨some block, hnext, hflag, rfl⟩
  · rw [bind_apply, hhead] at h
    cases h
    exact .inr (.inr (.inl ⟨hdone, e, rfl⟩))
  rw [bind_apply, hhead] at h
  cases h
  exact .inr (.inr (.inr rfl))

theorem yields_of_turns (horderly : Orderly env lim callbacks start)
    {u v : Unit}
    (hturns : Turns (fun _ => turn env lim callbacks) u s v s')
    (hyields : Yields env lim callbacks start bs s.net) :
    Yields env lim callbacks start bs s'.net ∧ s'.done = s.done := by
  induction hturns with
  | refl _ s => exact ⟨hyields, rfl⟩
  | more hturn _ ih =>
    obtain ⟨found, hnext, hflag, hres⟩ | ⟨_, hres, _⟩ | ⟨_, e, hres⟩ | hres :=
      turn_cases_of_orderly horderly hyields hturn
    · cases found with
      | some block => cases hres
      | none =>
        rw [Option.toList_none, append_nil] at hnext
        obtain ⟨hlast, hflag'⟩ := ih hnext
        exact ⟨hlast, hflag'.trans hflag⟩
    · cases hres
    · cases hres
    · cases hres

theorem nextBlock_of_done (h : s.done = true) :
    nextBlock env lim callbacks fuel s = (.ok none, s) := if_pos h

/-- **One call** on a stream that is not latched: the next block, the end, or an
error, and the last two latch it. -/
theorem nextBlock_cases (horderly : Orderly env lim callbacks start)
    (hdone : s.done = false)
    (hyields : Yields env lim callbacks start bs s.net) {res : Readout (Option Block)}
    (h : nextBlock env lim callbacks fuel s = (res, s')) :
    (∃ block, res = .ok (some block) ∧ s'.done = false ∧
      Yields env lim callbacks start (bs ++ [block]) s'.net) ∨
    (res = .ok none ∧ s'.done = true ∧ ∃ net net', Yields env lim callbacks start bs net ∧
      streamHeader env lim net = (.ok 5, net')) ∨
    (∃ e, res = .error (.error e) ∧ s'.done = true) ∨ res = .error .depth := by
  unfold nextBlock at h
  rw [if_neg (by rw [hdone]; decide)] at h
  obtain ⟨_, s₁, hturns, hlast⟩ | hdepth := loop_cases h
  · obtain ⟨hyields₁, hflag⟩ := yields_of_turns horderly hturns hyields
    cases hlast with
    | done hturn =>
      obtain ⟨found, hnext, hflag', hres⟩ | ⟨hlatched, hres, net', hend⟩ | ⟨_, e, hres⟩ | hres :=
        turn_cases_of_orderly horderly hyields₁ hturn
      · rcases found with _ | block
        · cases hres
        cases hres
        exact .inl ⟨block, rfl, hflag'.trans (hflag.trans hdone), hnext⟩
      · cases hres
        exact .inr (.inl ⟨rfl, hlatched, s₁.net, net', hyields₁, hend⟩)
      · cases hres
      · cases hres
    | stopped hturn =>
      obtain ⟨found, _, _, hres⟩ | ⟨_, hres, _⟩ | ⟨hlatched, e, hres⟩ | hres :=
        turn_cases_of_orderly horderly hyields₁ hturn
      · cases found <;> cases hres
      · cases hres
      · cases hres
        exact .inr (.inr (.inl ⟨e, rfl, hlatched⟩))
      · cases hres
        exact .inr (.inr (.inr rfl))
  · exact .inr (.inr (.inr hdepth))

/-! ## §3. Sequences of calls. -/

/-- What a sequence of calls has returned: the blocks of the packets so far; then, if
the stream is latched, the end of the response or an error, and nothing more. -/
def Delivered (env : Env) (lim : Limits) (callbacks : QueryCallbacks) (start : Net)
    (rs : List (Result (Option Block))) (s : BlockStream) : Prop :=
  ∃ bs net, Yields env lim callbacks start bs net ∧
    ((s.done = false ∧ s.net = net ∧ rs = bs.map fun b => .ok (some b)) ∨
      (s.done = true ∧ ∃ last k, rs = (bs.map fun b => .ok (some b)) ++ last ::
          List.replicate k (.ok none) ∧
        ((last = .ok none ∧ ∃ net', streamHeader env lim net = (.ok 5, net')) ∨
          ∃ e, last = .error e)))

theorem Delivered.call (horderly : Orderly env lim callbacks start)
    {rs : List (Result (Option Block))}
    (h : Delivered env lim callbacks start rs s)
    {r : Result (Option Block)}
    (hcall : nextBlock env lim callbacks fuel s
      = ((match r with | .ok a => .ok a | .error e => .error (.error e)), s')) :
    Delivered env lim callbacks start (rs ++ [r]) s' := by
  obtain ⟨bs, net, hyields, ⟨hdone, rfl, hrs⟩ | ⟨hdone, last, k, hrs, hlast⟩⟩ := h
  · obtain ⟨block, hres, hdone', hnext⟩ | ⟨hres, hdone', net₁, net', hyields₁, hend⟩ |
        ⟨e, hres, hdone'⟩ | hres := nextBlock_cases horderly hdone hyields hcall
    · rcases r with e | a
      · cases hres
      cases hres
      refine ⟨bs ++ [block], s'.net, hnext, .inl ⟨hdone', rfl, ?_⟩⟩
      rw [hrs, map_append]
      rfl
    · rcases r with e | a
      · cases hres
      cases hres
      exact ⟨bs, net₁, hyields₁, .inr ⟨hdone', .ok none, 0, by rw [hrs]; rfl,
        .inl ⟨rfl, net', hend⟩⟩⟩
    · cases r with
      | ok a => cases hres
      | error e' => exact ⟨bs, s.net, hyields, .inr ⟨hdone', .error e', 0, by rw [hrs]; rfl,
          .inr ⟨e', rfl⟩⟩⟩
    · cases r <;> cases hres
  · rw [nextBlock_of_done hdone] at hcall
    rcases r with e | a
    · cases hcall
    cases hcall
    refine ⟨bs, net, hyields, .inr ⟨hdone, last, k + 1, ?_, hlast⟩⟩
    rw [hrs, append_assoc, cons_append, replicate_succ']

theorem Delivered.of_calls (horderly : Orderly env lim callbacks start)
    {rs : List (Result (Option Block))}
    (hcalls : Calls env lim callbacks { net := start } rs s) :
    Delivered env lim callbacks start rs s := by
  induction hcalls with
  | none => exact ⟨[], start, .start, .inl ⟨rfl, rfl, rfl⟩⟩
  | returned _ hcall ih => exact ih.call horderly hcall
  | failed _ hcall ih => exact ih.call horderly (r := .error _) hcall

/-- **Any sequence of calls** on a response whose packets decode: the blocks returned
are the non-empty Data blocks in order, up to the end of the response where the end was
returned; and after an error or the end a call returns nothing and reads nothing. -/
theorem nextBlock_runs {start : Net} (horderly : Orderly env lim callbacks start)
    {rs : List (Result (Option Block))} {s : BlockStream}
    (hcalls : Calls env lim callbacks { net := start } rs s) :
    Delivered env lim callbacks start rs s ∧
      ((∃ r ∈ rs, ∀ b, r ≠ .ok (some b)) → ∀ fuel,
        nextBlock env lim callbacks fuel s = (.ok none, s)) := by
  have hdelivered : Delivered env lim callbacks start rs s := .of_calls horderly hcalls
  refine ⟨hdelivered, fun hended fuel => nextBlock_of_done ?_⟩
  obtain ⟨bs, net, _, ⟨_, _, hrs⟩ | ⟨hdone, _⟩⟩ := hdelivered
  · -- every result so far is a block
    obtain ⟨r, hmem, hr⟩ := hended
    rw [hrs] at hmem
    obtain ⟨b, _, hb⟩ := mem_map.mp hmem
    exact absurd hb.symm (hr b)
  · exact hdone

/-- A timezone update that is not UTF-8, and then a Data block of one row (which has no
columns, so that nothing else is to be decoded). -/
def afterBrokenTimezone : Net := { incoming := [17, 1, 0xFF, 1, 0, 0, 0, 1, 5] }

/-- The first call returns the error, and the second one a block. -/
theorem nextBlock_afterBrokenTimezone :
    ∃ e block s, Calls plainEnv ⟨false, false⟩ {} { net := afterBrokenTimezone }
      [.error e, .ok (some block)] s ∧ block.rows = 1 := by
  have hfirst : nextBlock plainEnv ⟨false, false⟩ {} 2 { net := afterBrokenTimezone }
      = (.error (.error (.text "utf8: invalid utf-8 sequence of 1 bytes from index 0")),
        { net := { incoming := [1, 0, 0, 0, 1, 5] } }) := by
    rfl
  have hsecond : nextBlock plainEnv ⟨false, false⟩ {} 2
      { net := { incoming := [1, 0, 0, 0, 1, 5] } }
      = (.ok (some ⟨[], 1⟩), { net := { incoming := [5] } }) := by
    rfl
  exact ⟨_, _, _, .returned (.failed .none hfirst) hsecond, rfl⟩

/-- The block of `rowThenEnd`. -/
def oneRow : Block := ⟨[⟨['a'], ['U', 'I', 'n', 't', '8'], [7]⟩], 1⟩

theorem orderly_rowThenEnd : Orderly plainEnv ⟨false, false⟩ {} { incoming := rowThenEnd } := by
  have hfirst : streamHeader plainEnv ⟨false, false⟩ { incoming := rowThenEnd }
      = (.ok 1, { incoming := rowThenEnd.tail }) := rfl
  have hbody : body plainEnv ⟨false, false⟩ {} 1 { incoming := rowThenEnd.tail }
      = (.ok (some oneRow), { incoming := [5] }) := by
    decide +kernel
  have hreached : ∀ {bs net}, Yields plainEnv ⟨false, false⟩ {} { incoming := rowThenEnd } bs net →
      net = { incoming := rowThenEnd } ∨ net = { incoming := [5] } := by
    intro bs net hyields
    induction hyields with
    | start => exact .inl rfl
    | packet _ hheader hne5 _ hread ih =>
      rcases ih with rfl | rfl
      · cases hfirst.symm.trans hheader
        cases hbody.symm.trans hread
        exact .inr rfl
      · cases hheader
        exact absurd rfl hne5
  intro bs net packetType net₁ hyields hheader hne5
  rcases hreached hyields with rfl | rfl
  · cases hfirst.symm.trans hheader
    exact ⟨_, _, hbody⟩
  · cases hheader
    exact absurd rfl hne5

/-- The first call returns the block, the second one the end, and so do the next ones. -/
theorem nextBlock_runs_rowThenEnd :
    ∃ s, Calls plainEnv ⟨false, false⟩ {} { net := { incoming := rowThenEnd } }
        [.ok (some oneRow), .ok none] s ∧
      ∀ fuel, nextBlock plainEnv ⟨false, false⟩ {} fuel s = (.ok none, s) := by
  have hblock : nextBlock plainEnv ⟨false, false⟩ {} 1 { net := { incoming := rowThenEnd } }
      = (.ok (some oneRow), { net := { incoming := [5] } }) := by
    decide +kernel
  have hend : nextBlock plainEnv ⟨false, false⟩ {} 1 { net := { incoming := [5] } }
      = (.ok none, { net := { incoming := [] }, done := true, inFlight := false }) := rfl
  have hcalls : Calls plainEnv ⟨false, false⟩ {} { net := { incoming := rowThenEnd } }
      [.ok (some oneRow), .ok none] _ := .returned (.returned .none hblock) hend
  refine ⟨_, hcalls, (nextBlock_runs orderly_rowThenEnd hcalls).2 ⟨.ok none, ?_, ?_⟩⟩
  · exact mem_cons_of_mem _ mem_cons_self
  · intro b h
    cases h

end

end BlockStream

end StClickHouse
