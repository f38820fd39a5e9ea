/-
  StClickHouse.Async.Response
  **RESPONSES THAT ARE READ FOR THEIR END.**

  The packet loops of `connection/response_wait.rs` and the cancellation drain of
  `connection/server_packets.rs`: a header with its time limits, then the body of
  the packet, until a packet that ends the response.

      drainResponse_drained — where `drain_response` returns, it has drained the
                              response if and only if no body it is lenient about
                              failed to decode
-/
import StClickHouse.Async.PacketWalk

namespace StClickHouse

open ByteReader RustText

/-! ## §1. Headers and cancellation. -/

/-- `let _ = x.await`: whatever comes of it is dropped. -/
def ignore {α : Type} (x : Read Net α) : Read Net Unit := fun s => (.ok (), (x s).2)

/-- The limits a response is read under. -/
structure Limits where
  /-- The query has a deadline. -/
  deadline : Bool
  /-- The response was asked for compressed. -/
  compressed : Bool
  deriving Repr, DecidableEq

section

variable (env : Env) (lim : Limits)

/-- One packet of `cancel_and_drain_inner`. -/
def cancelTurn : Read Net (Turn Unit Unit) := do
  if ← Net.outOfTime then fail (.timeout "cancel drain deadline exceeded")
  else
    match ← readVarintAsync with
    | 5 => return .done ()
    | 2 => do
      let _ ← readException
      return .done ()
    | 1 | 14 => do
      let _ ← readDataBlockMaybeCompressed env lim.compressed
      return .more ()
    | 10 => do
      let _ ← readDataBlock env.depth
      return .more ()
    | 3 => do
      let _ ← readProgressPacket
      return .more ()
    | 6 => do
      let _ ← readProfileInfoPacket
      return .more ()
    | 17 => do
      let _ ← readStringAsync
      return .more ()
    | 12 => do
      let _ ← readPartUuidsPacket
      return .more ()
    | 4 => return .more ()
    | packetType => fail (.text ("unexpected packet " ++ toString packetType
        ++ " while draining cancelled query"))

/-- `cancel_and_drain`: the Cancel packet, and a drain with a limit on the whole. -/
def cancelAndDrain : Read Net Unit := do
  match ← within (attempt (do Net.send [3]; loop (fun _ => cancelTurn env lim) env.depth ())) with
  | some (.ok ()) => return ()
  | some (.error _) => fail (.connectionClosed "cancel drain failed")
  | none => fail (.connectionClosed "cancel drain did not finish")

/-- The packet type, under the smaller of the receive timeout and what is left of the
deadline; `late` is the text for a receive timeout. -/
def readPacketType (late : String) : Read Net Nat := do
  let elapsed ← (if lim.deadline then Net.outOfTime else pure false)
  if elapsed then do
    ignore (cancelAndDrain env lim)
    fail (.timeout "query exceeded deadline")
  else
    match ← within (readVarintAsync (σ := Net)) with
    | some packetType => return packetType
    | none =>
      if lim.deadline then do
        ignore (cancelAndDrain env lim)
        fail (.timeout "query exceeded deadline")
      else fail (.timeout late)

/-! ## §2. Waiting for the table structure, and draining. -/

/-- One packet of `read_table_structure`. -/
def tableStructureTurn : Read Net (Turn Unit Block) := do
  match ← readPacketType env lim "receive timeout waiting for INSERT table structure" with
  | 1 => do
    let block ← readDataBlockMaybeCompressed env lim.compressed
    return .done block
  | 2 => do
    let e ← readException
    fail e
  | 3 => do
    let _ ← readProgressPacket
    return .more ()
  | 4 => return .more ()
  | 5 => fail (.text "EndOfStream before INSERT table structure")
  | 6 => do
    let _ ← readProfileInfoPacket
    return .more ()
  | 11 => do
    readTableColumnsPacket env lim.compressed
    return .more ()
  | 10 => do
    let _ ← readDataBlock env.depth
    return .more ()
  | 14 => do
    let _ ← readDataBlockMaybeCompressed env lim.compressed
    return .more ()
  | 17 => do
    let _timezone ← readStringAsync
    return .more ()
  | 12 => do
    let _ ← readPartUuidsPacket
    return .more ()
  | packetType => do
    let e ← unsupportedServerPacket packetType
    fail e

/-- `read_table_structure`. -/
def readTableStructure (fuel : Nat) : Read Net Block :=
  loop (fun _ => tableStructureTurn env lim) fuel ()

/-- One packet of `drain_response`.  An error in a body of type 1, 3, 6, 10, 14 or 17
is dropped and the loop goes on where the body's reader stopped. -/
def drainTurn : Read Net (Turn Unit Unit) := do
  match ← readPacketType env lim "receive timeout while draining query response" with
  | 5 => return .done ()
  | 1 => do
    let _ ← attempt (readDataBlockMaybeCompressed env lim.compressed)
    return .more ()
  | 2 => do
    let e ← readException
    fail e
  | 3 => do
    let _ ← attempt (readProgressPacket (σ := Net))
    return .more ()
  | 4 => return .more ()
  | 6 => do
    let _ ← attempt (readProfileInfoPacket (σ := Net))
    return .more ()
  | 10 => do
    let _ ← attempt (readDataBlock env.depth)
    return .more ()
  | 14 => do
    let _ ← attempt (readDataBlockMaybeCompressed env lim.compressed)
    return .more ()
  | 17 => do
    let _ ← attempt (readStringAsync (σ := Net))
    return .more ()
  | 12 => do
    let _ ← readPartUuidsPacket
    return .more ()
  | 11 => do
    readTableColumnsPacket env lim.compressed
    return .more ()
  | packetType => do
    let e ← unsupportedServerPacket packetType
    fail e

/-- `drain_response`. -/
def drainResponse (fuel : Nat) : Read Net Unit :=
  loop (fun _ => drainTurn env lim) fuel ()

/-! ## §3. The drain as a walk. -/

/-- The header of `drain_response`. -/
def drainHeader : Read Net Nat :=
  readPacketType env lim "receive timeout while draining query response"

/-- The body of a packet inside a response; no body belongs to the types that end it,
and none to the types that are not handled. -/
def packetBody : Nat → Option (Read Net Unit)
  | 1 | 14 => some (do let _ ← readDataBlockMaybeCompressed env lim.compressed)
  | 3 => some (do let _ ← readProgressPacket)
  | 4 => some (pure ())
  | 6 => some (do let _ ← readProfileInfoPacket)
  | 10 => some (do let _ ← readDataBlock env.depth)
  | 17 => some (do let _ ← readStringAsync)
  | 12 => some (do let _ ← readPartUuidsPacket)
  | 11 => some (readTableColumnsPacket env lim.compressed)
  | _ => none

/-- The packet types whose errors `drain_response` drops. -/
def lenient (packetType : Nat) : Bool := packetType ∈ [1, 3, 6, 10, 14, 17]

/-- `drain_response` as a walk. -/
def drainWalk : PacketWalk Unit Unit where
  header := drainHeader env lim
  body packetType _ :=
    match packetBody env lim packetType with
    | some body => do
      body
      return .more ()
    | none => do
      let e ← unsupportedServerPacket packetType
      fail e
  lenient := lenient
  finish := fun _ => .ok ()

/-- Decoded packets, and EndOfStream. -/
def Drained (s s' : Net) : Prop :=
  ∃ s₁, (drainWalk env lim).Passed () s () s₁ ∧ drainHeader env lim s₁ = (.ok 5, s')

/-- **The condition**: wherever decoded packets lead to one of the types the drain is
lenient about, its body decodes. -/
def BodiesDecode (s : Net) : Prop :=
  ∀ s₁ s₂ packetType, (drainWalk env lim).Passed () s () s₁ →
    drainHeader env lim s₁ = (.ok packetType, s₂) → lenient packetType = true →
    ∃ s₃, (drainWalk env lim).body packetType () s₂ = (.ok (.more ()), s₃)

end

section

variable {env : Env} {lim : Limits} {α : Type} (x : Read Net α)

/-- Dropping the error of a body, before or after the step that goes on. -/
theorem attempt_then_more :
    (do
      let _ ← attempt x
      return Turn.more () : Read Net (Turn Unit Unit))
    = (do
      let t ← attempt (do
        (do let _ ← x)
        return Turn.more () : Read Net (Turn Unit Unit))
      return PacketWalk.orGoOn () t) := by
  funext s
  rw [bind_apply, bind_apply]
  unfold attempt
  rw [bind_apply, bind_apply]
  cases x s with
  | mk r s' => cases r with
    | ok a => rfl
    | error stop => cases stop <;> rfl

theorem strict_then_more {R : Type} :
    (do
      let _ ← x
      return Turn.more () : Read Net (Turn Unit R))
    = (do
      (do let _ ← x)
      return Turn.more ()) := by
  rw [bind_assoc]
  rfl

/-- A packet type without a body is not one of those whose errors are dropped. -/
theorem lenient_packetBody {packetType : Nat} (h : lenient packetType = true) :
    ∃ body, packetBody env lim packetType = some body := by
  have hmem : packetType ∈ [1, 3, 6, 10, 14, 17] := of_decide_eq_true h
  simp only [List.mem_cons, List.not_mem_nil, or_false] at hmem
  obtain rfl | rfl | rfl | rfl | rfl | rfl := hmem <;> exact ⟨_, rfl⟩

theorem drainWalk_lenient (packetType : Nat) (x : Read Net α)
    (hlenient : lenient packetType = true)
    (hbody : packetBody env lim packetType = some (do let _ ← x)) :
    (do
      let _ ← attempt x
      return Turn.more () : Read Net (Turn Unit Unit))
    = if (drainWalk env lim).lenient packetType = true then do
        let t ← attempt ((drainWalk env lim).body packetType ())
        return PacketWalk.orGoOn () t
      else (drainWalk env lim).body packetType () := by
  have hwalk : (drainWalk env lim).body packetType ()
      = (do
          (do let _ ← x)
          return Turn.more ()) := by
    show (match packetBody env lim packetType with
      | some body => _
      | none => _) = _
    rw [hbody]
  rw [if_pos (show (drainWalk env lim).lenient packetType = true from hlenient), hwalk]
  exact attempt_then_more x

theorem drainTurn_eq : drainTurn env lim = (drainWalk env lim).turn () := by
  show (drainHeader env lim >>= _) = drainHeader env lim >>= _
  congr 1
  funext packetType
  split
  · rfl
  · exact drainWalk_lenient 1 (readDataBlockMaybeCompressed env lim.compressed) rfl rfl
  · rfl
  · exact drainWalk_lenient 3 readProgressPacket rfl rfl
  · rfl
  · exact drainWalk_lenient 6 readProfileInfoPacket rfl rfl
  · exact drainWalk_lenient 10 (readDataBlock env.depth) rfl rfl
  · exact drainWalk_lenient 14 (readDataBlockMaybeCompressed env lim.compressed) rfl rfl
  · exact drainWalk_lenient 17 readStringAsync rfl rfl
  · exact strict_then_more readPartUuidsPacket
  · rfl
  · next h5 h1 h2 h3 h4 h6 h10 h14 h17 h12 h11 =>
    have hnone : packetBody env lim packetType = none := by
      unfold packetBody
      split <;> first | rfl | contradiction
    have hstrict : ¬ lenient packetType = true := fun h => by
      obtain ⟨body, hbody⟩ := @lenient_packetBody env lim packetType h
      rw [hnone] at hbody
      cases hbody
    split
    · contradiction
    · contradiction
    show _ = if lenient packetType = true then _ else _
    rw [if_neg hstrict]
    show _ = match packetBody env lim packetType with
      | some body | none => _
    rw [hnone]

theorem drainResponse_eq (fuel : Nat) :
    drainResponse env lim fuel = loop (drainWalk env lim).turn fuel () := by
  unfold drainResponse
  rw [show (fun _ => drainTurn env lim) = (drainWalk env lim).turn from
    funext fun _ => drainTurn_eq]

variable {s s' : Net}

/-- The body of a packet never ends the drain. -/
theorem drainWalk_goesOn {packetType : Nat} {h r : Unit} :
    (drainWalk env lim).body packetType h s ≠ (.ok (.done r), s') := by
  intro hdone
  unfold drainWalk at hdone
  dsimp only at hdone
  rcases hbody : packetBody env lim packetType with _ | body
  · rw [hbody] at hdone
    obtain ⟨_, _, _, hfail⟩ := bind_eq_ok_iff.mp hdone
    cases hfail
  rw [hbody] at hdone
  obtain ⟨_, _, _, hmore⟩ := bind_eq_ok_iff.mp hdone
  cases hmore

theorem Drained.bodiesDecode (h : Drained env lim s s') : BodiesDecode env lim s := by
  intro s₁ s₂ packetType hpassed hheader hlenient
  obtain ⟨s₃, hsteps, hend⟩ := h
  have hthrough : (drainWalk env lim).ReadThrough () s s' := ⟨(), s₃, hsteps, .inl hend⟩
  obtain ⟨_, s₄, hlater, hends⟩ := hthrough.of_passed hpassed
  cases hlater with
  | refl =>
    -- neither of the packets that end a response is one of the lenient types
    obtain hend | ⟨_, _, hend, _⟩ := hends
    · cases hheader.symm.trans hend
      cases hlenient
    · cases hheader.symm.trans hend
      cases hlenient
  | packet hheader' _ _ hbody _ =>
    cases hheader.symm.trans hheader'
    exact ⟨_, hbody⟩

/-- **A drain that returns.**  The bytes it has consumed are decoded packets and
EndOfStream if and only if every body that the drain is lenient about decodes. -/
theorem drainResponse_drained {fuel : Nat} {s s' : Net}
    (h : drainResponse env lim fuel s = (.ok (), s')) :
    Drained env lim s s' ↔ BodiesDecode env lim s := by
  constructor
  · exact Drained.bodiesDecode
  intro hbodies
  rw [drainResponse_eq] at h
  obtain ⟨_, s₁, hturns, hlast⟩ := loop_ok h
  have hpassed := PacketWalk.passed_of_turns hturns fun _ s₁ packetType s₂ hp hheader _ _ hlenient => by
    obtain ⟨s₃, hbody⟩ := hbodies s₁ s₂ packetType hp hheader hlenient
    rw [hbody]
    exact fun _ => nofun
  cases PacketWalk.turn_outcome hlast with
  | finished hheader => exact ⟨s₁, hpassed, hheader⟩
  | body _ _ _ hdone => exact absurd hdone drainWalk_goesOn

/-- A client without compression. -/
def plainEnv : Env := ⟨copyCodec, 64⟩

/-- A timezone update with a name that is not UTF-8, then EndOfStream. -/
def brokenTimezone : Net := { incoming := [17, 1, 0xFF, 5] }

/-- The drain drops the error and returns; but the packet did not decode. -/
theorem drainResponse_brokenTimezone :
    ∃ s', drainResponse plainEnv ⟨false, false⟩ 2 brokenTimezone = (.ok (), s') ∧
      ¬ Drained plainEnv ⟨false, false⟩ brokenTimezone s' := by
  refine ⟨{ incoming := [] }, rfl, fun hdrained => ?_⟩
  obtain ⟨s₃, hread⟩ := hdrained.bodiesDecode brokenTimezone { incoming := [1, 0xFF, 5] } 17
    (.refl _ _) rfl rfl
  cases hread

/-- A block of one row and one UInt8 column, and EndOfStream. -/
def rowThenEnd : Bytes := [1, 0, 0, 1, 1, 1, 97, 5, 85, 73, 110, 116, 56, 0, 7, 5]

/-- The block and EndOfStream are drained. -/
theorem drainResponse_drained_row :
    drainResponse plainEnv ⟨false, false⟩ 2 { incoming := rowThenEnd }
        = (.ok (), { incoming := [] }) ∧
      Drained plainEnv ⟨false, false⟩ { incoming := rowThenEnd } { incoming := [] } ∧
      BodiesDecode plainEnv ⟨false, false⟩ { incoming := rowThenEnd } := by
  have hdrain : drainResponse plainEnv ⟨false, false⟩ 2 { incoming := rowThenEnd }
      = (.ok (), { incoming := [] }) := by
    decide +kernel
  have hbody : (drainWalk plainEnv ⟨false, false⟩).body 1 () { incoming := rowThenEnd.tail }
      = (.ok (.more ()), { incoming := [5] }) := by
    decide +kernel
  have hdrained : Drained plainEnv ⟨false, false⟩ { incoming := rowThenEnd } { incoming := [] } :=
    ⟨{ incoming := [5] }, .packet rfl (by decide) (by decide) hbody (.refl _ _), rfl⟩
  exact ⟨hdrain, hdrained, (drainResponse_drained hdrain).mp hdrained⟩

end

end StClickHouse
