/-
  StClickHouse.Pool.Hygiene
  **WHAT A CALL LEAVES IN ITS SLOT.**

  The guard of a pool slot (`pool.rs`) and the calls that read a response under it:
  the select terminals (`connection/query_builder.rs`), `execute`
  (`connection/commands.rs`) and `begin_insert` (`connection/insert_session.rs`).  One
  attempt of a call is modelled; a retry takes a slot of its own.

      call_hygiene — where a call has finished and its slot still holds the
                     connection, the response has been read through its terminal
                     packet if and only if it is orderly
      block_brokenTimezone — a response that is not
-/
import StClickHouse.Async.Select

namespace StClickHouse

open ByteReader RustText List

/-! ## §1. The guard of a slot. -/

/-- `PoolGuard`: the connection of the slot, whether the slot still holds it, and its
in-flight mark. -/
structure Guard where
  net : Net
  held : Bool := true
  inFlight : Bool := false
  deriving Repr, DecidableEq

namespace Guard

variable {α : Type}

/-- Use the connection. -/
def onNet (x : Read Net α) : Read Guard α := fun g =>
  match x g.net with
  | (res, net) => (res, { g with net := net })

/-- `mark_response_in_flight`. -/
def markResponseInFlight : Read Guard Unit := fun g => (.ok (), { g with inFlight := true })

/-- `take_stream`. -/
def takeStream : Read Guard Unit := fun g => (.ok (), { g with held := false })

/-- `finish_response`: the mark goes, and the connection too after an error that breaks
it. -/
def finishResponse (result : Result α) : Read Guard Unit := fun g =>
  let g := { g with inFlight := false }
  match result with
  | .ok _ => (.ok (), g)
  | .error e => (.ok (), if e.isBrokenConnection then { g with held := false } else g)

/-- `PoolGuard::drop`: a marked connection is discarded. -/
def drop (g : Guard) : Guard := if g.inFlight then { g with held := false } else g

end Guard

/-! ## §2. Calls. -/

/-- What a call writes before it reads. -/
structure Request where
  /-- `ping_before_query`. -/
  ping : Bool
  /-- The IgnoredPartUUIDs packet, if there is one. -/
  ignoredPartUuids : Option Bytes
  packet : Bytes

/-- `ping_stream`. -/
def pingStream : Read Net Unit := do
  Net.send [4]
  let pong ← readByte
  if pong ≠ 4 then fail (.text ("expected Pong (4), got " ++ toString pong.toNat)) else return ()

/-- The send phase: ping, ignored part UUIDs, query packet. -/
def Request.send (q : Request) : Read Net Unit := do
  let _ ← (if q.ping then pingStream else pure ())
  let _ ← match q.ignoredPartUuids with
    | some uuids => Net.writePacket uuids
    | none => pure ()
  Net.send q.packet

/-- The calls; the rows of `all` are of the caller's type. -/
inductive Terminal (T : Type) where
  | block
  | blocks
  | all (readAll : Block → Result (List T))
  | rowCount
  | raw
  | execute
  | beginInsert

section

variable {T : Type} (env : Env) (lim : Limits) (callbacks : QueryCallbacks) (maxResponseSize : Nat)

/-- A fresh `ResponseBudget`. -/
def freshBudget : ResponseBudget := ⟨maxResponseSize, 0⟩

/-- The read phase of a call; only that it returns, or its error, matters here. -/
def Terminal.response (fuel : Nat) : Terminal T → Read Net Unit
  | .block => do
    let _ ← readSelectResponse env lim callbacks firstBlockHandler fuel
      ⟨none, false, freshBudget maxResponseSize⟩
  | .blocks => do
    let _ ← readSelectResponse env lim callbacks blocksHandler fuel ([], freshBudget maxResponseSize)
  | .all readAll => do
    let _ ← readSelectResponse env lim callbacks (allRowsHandler readAll) fuel
      ([], freshBudget maxResponseSize)
  | .rowCount => do
    let _ ← readSelectResponse env lim callbacks rowCountHandler fuel 0
  | .raw => do
    let _ ← readSelectResponse env lim callbacks rawBlocksHandler fuel
      ([], freshBudget maxResponseSize)
  | .execute => drainResponse env lim fuel
  | .beginInsert => do
    let _ ← readTableStructure env lim fuel

variable (term : Terminal T)

/-- The send phase failed.  A select gives up a connection that broke; the other two
leave with `?`, and the mark stays set. -/
def Terminal.refuse (e : Error) : Read Guard Unit :=
  match term with
  | .execute | .beginInsert => fail e
  | _ => do
    let _ ← (if e.isBrokenConnection then Guard.takeStream else pure ())
    fail e

/-- Read the response, and finish it. -/
def Terminal.receive (fuel : Nat) : Read Guard Unit := do
  let result ← Guard.onNet (attempt (term.response env lim callbacks maxResponseSize fuel))
  Guard.finishResponse result
  liftExcept result

/-- One attempt of a call. -/
def Terminal.call (q : Request) (fuel : Nat) : Read Guard Unit := do
  Guard.markResponseInFlight
  match ← Guard.onNet (attempt q.send) with
  | .error e => term.refuse e
  | .ok () => term.receive env lim callbacks maxResponseSize fuel

/-- The slot once the call's guard is dropped.  An insert session that has begun is
active, and its drop takes the connection. -/
def Terminal.released (res : Readout Unit) (g : Guard) : Guard :=
  match term, res with
  | .beginInsert, .ok () => { g with held := false }.drop
  | _, _ => g.drop

/-! ## §3. The walks of the calls. -/

/-- `read_select_response` as a walk. -/
def selectWalk {H R : Type} (handler : SelectHandler H R) : PacketWalk H R where
  header := readPacketType env lim "receive timeout while reading query response"
  body packetType h := do
    let h ← selectBody env lim callbacks handler packetType h
    return .more h
  lenient := fun _ => false
  finish := handler.finish

/-- `read_table_structure` as a walk; the structure itself does not end the response. -/
def structureWalk : PacketWalk Unit Block where
  header := readPacketType env lim "receive timeout waiting for INSERT table structure"
  body packetType _ :=
    if packetType = 1 then do
      let block ← readDataBlockMaybeCompressed env lim.compressed
      return .done block
    else match packetBody env lim packetType with
      | some body => do
        body
        return .more ()
      | none => do
        let e ← unsupportedServerPacket packetType
        fail e
  lenient := fun _ => false
  finish := fun _ => .error (.text "EndOfStream before INSERT table structure")

end

section

variable {T : Type} {env : Env} {lim : Limits} {callbacks : QueryCallbacks} {maxResponseSize : Nat}

theorem selectTurn_eq {H R : Type} (handler : SelectHandler H R) :
    selectTurn env lim callbacks handler = (selectWalk env lim callbacks handler).turn := rfl

theorem tableStructureTurn_eq : tableStructureTurn env lim = (structureWalk env lim).turn () := by
  unfold tableStructureTurn PacketWalk.turn
  congr 1
  funext packetType
  split
  · rfl
  · rfl
  · exact strict_then_more readProgressPacket
  · rfl
  · rfl
  · exact strict_then_more readProfileInfoPacket
  · rfl
  · exact strict_then_more (readDataBlock env.depth)
  · exact strict_then_more (readDataBlockMaybeCompressed env lim.compressed)
  · exact strict_then_more readStringAsync
  · exact strict_then_more readPartUuidsPacket
  next h1 h2 h3 h4 h5 h6 h11 h10 h14 h17 h12 =>
    have hnone : packetBody env lim packetType = none := by
      unfold packetBody
      split <;> first | rfl | contradiction
    split
    · contradiction
    · contradiction
    show _ = if packetType = 1 then _ else match packetBody env lim packetType with
        | some body | none => _
    rw [if_neg h1, hnone]

/-! ## §4. Calls read through. -/

section

variable (env lim callbacks maxResponseSize)

/-- The response is read through its terminal packet, as the call reads it. -/
def Terminal.ReadThrough (s s' : Net) : Terminal T → Prop
  | .block => (selectWalk env lim callbacks firstBlockHandler).ReadThrough
      ⟨none, false, freshBudget maxResponseSize⟩ s s'
  | .blocks => (selectWalk env lim callbacks blocksHandler).ReadThrough
      ([], freshBudget maxResponseSize) s s'
  | .all readAll => (selectWalk env lim callbacks (allRowsHandler readAll)).ReadThrough
      ([], freshBudget maxResponseSize) s s'
  | .rowCount => (selectWalk env lim callbacks rowCountHandler).ReadThrough 0 s s'
  | .raw => (selectWalk env lim callbacks rawBlocksHandler).ReadThrough
      ([], freshBudget maxResponseSize) s s'
  | .execute => (drainWalk env lim).ReadThrough () s s'
  | .beginInsert => (structureWalk env lim).ReadThrough () s s'

/-- **The condition on the response**: wherever decoded packets lead, the next packet
decodes or is refused with an error that breaks the connection; and `execute`, which
drops the errors of some packets, finds none in them. -/
def Terminal.Orderly (s : Net) : Terminal T → Prop
  | .block => (selectWalk env lim callbacks firstBlockHandler).Orderly
      ⟨none, false, freshBudget maxResponseSize⟩ s
  | .blocks => (selectWalk env lim callbacks blocksHandler).Orderly
      ([], freshBudget maxResponseSize) s
  | .all readAll => (selectWalk env lim callbacks (allRowsHandler readAll)).Orderly
      ([], freshBudget maxResponseSize) s
  | .rowCount => (selectWalk env lim callbacks rowCountHandler).Orderly 0 s
  | .raw => (selectWalk env lim callbacks rawBlocksHandler).Orderly
      ([], freshBudget maxResponseSize) s
  | .execute => (drainWalk env lim).Orderly () s
  | .beginInsert => (structureWalk env lim).Orderly () s

end

variable {s s' : Net} {res : Readout Unit} {fuel : Nat} {g : Guard}
  {term : Terminal T}

theorem drop_value {α : Type} {x : Read Net α} (h : (do let _ ← x) s = (res, s')) :
    ∃ r, x s = (r, s') ∧ (PacketWalk.Keeps res → PacketWalk.Keeps r) ∧
      ((∃ a, r = .ok a) → res = .ok ()) := by
  rw [bind_apply] at h
  rcases hx : x s with ⟨r, s₁⟩
  rw [hx] at h
  rcases r with e | a
  · cases h
    exact ⟨.error e, rfl, fun h => by cases e <;> exact h, fun ⟨_, ha⟩ => by cases ha⟩
  cases h
  exact ⟨.ok a, rfl, fun _ => trivial, fun _ => rfl⟩

theorem select_through {H R : Type} {handler : SelectHandler H R} {h : H}
    (hrun : (do let _ ← readSelectResponse env lim callbacks handler fuel h) s = (res, s'))
    (hkeeps : PacketWalk.Keeps res) :
    (selectWalk env lim callbacks handler).ReadThrough h s s' ↔
      (selectWalk env lim callbacks handler).Orderly h s := by
  obtain ⟨r, hloop, hkeeps', _⟩ := drop_value hrun
  unfold readSelectResponse at hloop
  rw [selectTurn_eq] at hloop
  refine PacketWalk.walk_through hloop (hkeeps' hkeeps) ?_
  intro packetType h₁ s₁ a s₂ _ hdone
  -- the body of a packet always goes on
  obtain ⟨_, _, _, hmore⟩ := bind_eq_ok_iff.mp hdone
  cases hmore

theorem drain_through
    (hrun : drainResponse env lim fuel s = (res, s')) (hkeeps : PacketWalk.Keeps res) :
    (drainWalk env lim).ReadThrough () s s' ↔ (drainWalk env lim).Orderly () s := by
  rw [drainResponse_eq] at hrun
  exact PacketWalk.walk_through hrun hkeeps fun _ _ _ _ _ _ => drainWalk_goesOn

theorem structure_through (hrun : (do let _ ← readTableStructure env lim fuel) s = (res, s'))
    (hkeeps : PacketWalk.Keeps res) (hfails : res ≠ .ok ()) :
    (structureWalk env lim).ReadThrough () s s' ↔ (structureWalk env lim).Orderly () s := by
  obtain ⟨r, hloop, hkeeps', hok⟩ := drop_value hrun
  unfold readTableStructure at hloop
  rw [show (fun _ => tableStructureTurn env lim) = (structureWalk env lim).turn from
    funext fun _ => tableStructureTurn_eq] at hloop
  refine PacketWalk.walk_through hloop (hkeeps' hkeeps) ?_
  intro _ _ _ a _ hr
  exact absurd (hok ⟨a, hr⟩) hfails

/-- **The read phase of a call.** -/
theorem response_through (term : Terminal T)
    (hrun : term.response env lim callbacks maxResponseSize fuel s = (res, s'))
    (hkeeps : PacketWalk.Keeps res)
    (hinsert : ∀ res', term = .beginInsert → res = .ok res' → False) :
    term.ReadThrough env lim callbacks maxResponseSize s s' ↔
      term.Orderly env lim callbacks maxResponseSize s := by
  cases term with
  | block | blocks | all readAll | rowCount | raw => exact select_through hrun hkeeps
  | execute => exact drain_through hrun hkeeps
  | beginInsert => exact structure_through hrun hkeeps fun hres => hinsert () rfl hres

theorem released_of_inFlight (term : Terminal T) (res : Readout Unit)
    (h : g.inFlight = true) : (term.released res g).held = false := by
  unfold Terminal.released
  split
  · show (if g.inFlight = true then _ else _ : Guard).held = false
    rw [if_pos h]
  · show (if g.inFlight = true then _ else _ : Guard).held = false
    rw [if_pos h]

theorem refuse_inFlight {e : Error} {g' : Guard}
    (h : term.refuse e g = (res, g')) :
    g'.inFlight = g.inFlight := by
  unfold Terminal.refuse at h
  split at h
  · cases h
    rfl
  · cases h
    rfl
  by_cases hbroken : e.isBrokenConnection = true
  · rw [if_pos hbroken] at h
    cases h
    rfl
  rw [if_neg hbroken] at h
  cases h
  rfl

/-- What is left of a guard after the read phase: the connection where the reader
stopped, without a mark, and gone after an error that breaks it. -/
theorem receive_cases {g' : Guard}
    (h : term.receive env lim callbacks maxResponseSize fuel g = (res, g')) :
    res = .error .depth ∨
      (term.response env lim callbacks maxResponseSize fuel g.net = (res, g'.net) ∧
        (g'.held = true → PacketWalk.Keeps res)) := by
  unfold Terminal.receive at h
  rw [bind_apply] at h
  unfold Guard.onNet attempt at h
  rcases hread : term.response env lim callbacks maxResponseSize fuel g.net with ⟨r, s⟩
  rw [hread] at h
  cases r with
  | ok a =>
    cases h
    exact .inr ⟨rfl, fun _ => trivial⟩
  | error stop =>
    cases stop with
    | depth =>
      cases h
      exact .inl rfl
    | error e =>
      cases h
      by_cases hbroken : e.isBrokenConnection = true
      · rw [if_pos hbroken]
        exact .inr ⟨rfl, nofun⟩
      · rw [if_neg hbroken]
        exact .inr ⟨rfl, fun _ => Bool.eq_false_iff.mpr hbroken⟩

theorem held_of_released (h : (term.released res g).held = true) :
    g.held = true ∧ (term = .beginInsert → res ≠ .ok ()) := by
  have hdrop : ∀ g : Guard, g.drop.held = true → g.held = true := by
    intro g hg
    unfold Guard.drop at hg
    split at hg
    · cases hg
    · exact hg
  unfold Terminal.released at h
  split at h
  · exact absurd (hdrop _ h) Bool.false_ne_true
  · next hother =>
    refine ⟨hdrop g h, ?_⟩
    rintro rfl rfl
    exact hother rfl rfl

/-- **What a finished call leaves in its slot.**  If the slot still holds the
connection, the query was sent, and what came back was read through its terminal packet
if and only if it was orderly. -/
theorem call_hygiene (term : Terminal T) (q : Request) {fuel : Nat} {net : Net}
    {res : Readout Unit} {g : Guard}
    (hcall : term.call env lim callbacks maxResponseSize q fuel { net := net } = (res, g))
    (hres : res ≠ .error .depth) (hheld : (term.released res g).held = true) :
    ∃ s₀, q.send net = (.ok (), s₀) ∧
      (term.ReadThrough env lim callbacks maxResponseSize s₀ g.net ↔
        term.Orderly env lim callbacks maxResponseSize s₀) := by
  unfold Terminal.call at hcall
  rw [bind_ok (show Guard.markResponseInFlight { net := net }
    = (.ok (), { net := net, inFlight := true }) from rfl)] at hcall
  rw [bind_apply] at hcall
  unfold Guard.onNet attempt at hcall
  rcases hsend : q.send net with ⟨sent, s₀⟩
  rw [show q.send ({ net := net, inFlight := true } : Guard).net = (sent, s₀)
    from hsend] at hcall
  cases sent with
  | error stop =>
    cases stop with
    | error e =>
      -- the mark is still set, so the slot is given up
      have hmark : g.inFlight = true := refuse_inFlight hcall
      rw [released_of_inFlight term res hmark] at hheld
      cases hheld
    | depth =>
      cases hcall
      exact absurd rfl hres
  | ok _ =>
    obtain ⟨hkept, hinsert⟩ := held_of_released hheld
    obtain hdepth | ⟨hread, hkeeps⟩ := receive_cases hcall
    · exact absurd hdepth hres
    · exact ⟨s₀, rfl, response_through term hread (hkeeps hkept)
        fun _ hterm hok => hinsert hterm hok⟩

/-- A query without a ping. -/
def plainRequest : Request := ⟨false, none, [1]⟩

/-- `block` on a timezone update that is not UTF-8: the error does not break the
connection, so the slot keeps it with the rest of the response unread. -/
theorem block_brokenTimezone :
    ∃ res g, (Terminal.block (T := Unit)).call plainEnv ⟨false, false⟩ {} 1000 plainRequest 2
        { net := brokenTimezone } = (res, g) ∧ res ≠ .error .depth ∧
      ((Terminal.block (T := Unit)).released res g).held = true ∧
      g.net.incoming = [5] ∧
      ¬ (Terminal.block (T := Unit)).ReadThrough plainEnv ⟨false, false⟩ {} 1000
        { incoming := [17, 1, 0xFF, 5], sent := [[1]] } g.net := by
  refine ⟨.error (.error (.text "utf8: invalid utf-8 sequence of 1 bytes from index 0")),
    { net := { incoming := [5], sent := [[1]] } }, rfl, nofun, rfl, rfl, ?_⟩
  intro hthrough
  have hbreaks := ((hthrough.orderly _ _ (.refl _ _)).2.2 17
    { incoming := [1, 0xFF, 5], sent := [[1]] } rfl (by decide) (by decide)).1
  exact absurd (hbreaks _ rfl) (by decide)

/-- `blocks` on a block and EndOfStream: the slot is kept, and the response has been read
through. -/
theorem call_hygiene_row :
    ∃ res g, (Terminal.blocks (T := Unit)).call plainEnv ⟨false, false⟩ {} 1000 plainRequest 2
        { net := { incoming := rowThenEnd } } = (res, g) ∧
      ((Terminal.blocks (T := Unit)).released res g).held = true ∧
      (Terminal.blocks (T := Unit)).ReadThrough plainEnv ⟨false, false⟩ {} 1000
        { incoming := rowThenEnd, sent := [[1]] } g.net ∧
      (Terminal.blocks (T := Unit)).Orderly plainEnv ⟨false, false⟩ {} 1000
        { incoming := rowThenEnd, sent := [[1]] } := by
  have hcall : (Terminal.blocks (T := Unit)).call plainEnv ⟨false, false⟩ {} 1000 plainRequest 2
      { net := { incoming := rowThenEnd } }
      = (.ok (), { net := { incoming := [], sent := [[1]] } }) := by
    decide +kernel
  have hbody : (selectWalk plainEnv ⟨false, false⟩ {} blocksHandler).body 1 ([], freshBudget 1000)
        { incoming := rowThenEnd.tail, sent := [[1]] }
      = (.ok (.more ([⟨[⟨['a'], ['U', 'I', 'n', 't', '8'], [7]⟩], 1⟩], ⟨1000, 1⟩)),
          { incoming := [5], sent := [[1]] }) := by
    decide +kernel
  have hthrough : (Terminal.blocks (T := Unit)).ReadThrough plainEnv ⟨false, false⟩ {} 1000
      { incoming := rowThenEnd, sent := [[1]] } { incoming := [], sent := [[1]] } :=
    ⟨_, _, .packet rfl (by decide) (by decide) hbody (.refl _ _), .inl rfl⟩
  obtain ⟨s₀, hsend, hiff⟩ := call_hygiene .blocks plainRequest hcall nofun rfl
  cases hsend
  exact ⟨_, _, hcall, rfl, hthrough, hiff.mp hthrough⟩

end

end StClickHouse
