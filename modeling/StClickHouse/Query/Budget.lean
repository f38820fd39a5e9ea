/-
  StClickHouse.Query.Budget
  **THE RESPONSE BUDGET IS EXACT.**

  The terminals that keep what they read charge each block to a `ResponseBudget`
  (`limits.rs`): `block`, `blocks`, `all` and `raw` (`connection/select_response.rs`), every
  result set of a batch (`connection/batch.rs`) and the sync `query` (`sync/client.rs`).
  They differ in what they materialise and in what they do with it.  A `Meter` says of a
  terminal which packets pay for a block, and that nothing else depends on the budget.

      budget_exact  — for all six terminals
-/
import StClickHouse.Async.Batch
import StClickHouse.Sync.Response

namespace StClickHouse

open ByteReader RustText List

/-! ## §1. Charging. -/

theorem chargeBlock_within {limit used n : Nat} (hlimit : limit < usizeBound)
    (h : used + n ≤ limit) : chargeBlock ⟨limit, used⟩ n = .ok ⟨limit, used + n⟩ := by
  have hbound : ¬ used + n ≥ usizeBound := by omega
  unfold chargeBlock
  rw [if_neg hbound, if_neg (not_lt.mpr h)]

/-- A block that does not fit, also where the sum does not fit a `usize`. -/
theorem chargeBlock_breach {limit used n : Nat} (h : limit < used + n) :
    ∃ received, chargeBlock ⟨limit, used⟩ n = .error (.responseTooLarge limit received) := by
  by_cases hbound : used + n ≥ usizeBound
  · exact ⟨used, if_pos hbound⟩
  · exact ⟨used + n, (if_neg hbound).trans (if_pos h)⟩

/-- A budget that is not exceeded, with a limit that is a `usize`. -/
def InRange (b : ResponseBudget) : Prop := b.used ≤ b.limit ∧ b.limit < usizeBound

theorem chargeBlock_zero {b : ResponseBudget} (h : InRange b) : chargeBlock b 0 = .ok b :=
  chargeBlock_within h.2 h.1

/-! ## §2. Meters. -/

/-- A turn with another loop state. -/
def turnMap {H R : Type} (f : H → H) : Turn H R → Turn H R
  | .more h => .more (f h)
  | .done r => .done r

/-- **A terminal and its budget.**  `pays h s n`: the next packet is a Data packet whose block
    is materialised, is not empty and has a payload of `n` bytes. -/
structure Meter (σ H R : Type) where
  turn : H → Read σ (Turn H R)
  budget : H → ResponseBudget
  withBudget : ResponseBudget → H → H
  pays : H → σ → Nat → Prop
  /-- How a block that does not fit is reported. -/
  onBreach : H → Error → Readout (Turn H R)
  /-- The errors of the row mapping, if there is one. -/
  rejects : Error → Prop
  budget_withBudget : ∀ b h, budget (withBudget b h) = b
  withBudget_budget : ∀ h, withBudget (budget h) h = h
  /-- It ends the response. -/
  stops : ∀ {h e h'}, onBreach h e ≠ .ok (.more h')
  /-- A block is charged before anything else is done with it. -/
  paid : ∀ {h s n}, pays h s n → ∃ s', match chargeBlock (budget h) n with
    | .error e => turn h s = (onBreach h e, s')
    | .ok b => (∃ h', turn h s = (.ok (.more h'), s') ∧ budget h' = b)
        ∨ ∃ e, rejects e ∧ turn h s = (.error (.error e), s')
  /-- What does not pay does not depend on the budget. -/
  free : ∀ {h s}, (∀ n, ¬ pays h s n) → InRange (budget h) → ∀ b, InRange b →
    turn (withBudget b h) s = mapResult (turnMap (withBudget b)) (turn h) s

section Exact

variable {σ H R : Type} (m : Meter σ H R) {limit : Nat} {h₀ : H} {s₀ : σ}

/-- The payloads paid for since the response began. -/
inductive Paid (h₀ : H) (s₀ : σ) : List Nat → H → σ → Prop
  | start : Paid h₀ s₀ [] h₀ s₀
  | pays {ns : List Nat} {n : Nat} {h h' : H} {s s' : σ} : Paid h₀ s₀ ns h s → m.pays h s n →
      m.turn h s = (.ok (.more h'), s') → Paid h₀ s₀ (ns ++ [n]) h' s'
  | free {ns : List Nat} {h h' : H} {s s' : σ} : Paid h₀ s₀ ns h s → (∀ n, ¬ m.pays h s n) →
      m.turn h s = (.ok (.more h'), s') → Paid h₀ s₀ ns h' s'

variable {m}

variable {h : H} {s : σ}

theorem Meter.budget_of_free {h' : H} {s' : σ} (hfree : ∀ n, ¬ m.pays h s n)
    (hrange : InRange (m.budget h)) (hturn : m.turn h s = (.ok (.more h'), s')) :
    m.budget h' = m.budget h := by
  have hsame := m.free hfree hrange (m.budget h) hrange
  rw [m.withBudget_budget, mapResult_ok hturn, hturn] at hsame
  have hstate : h' = m.withBudget (m.budget h) h' :=
    Turn.more.inj (Except.ok.inj (congrArg Prod.fst hsame))
  rw [hstate]
  exact m.budget_withBudget _ _

variable {ns : List Nat}

/-- **What has been used is what has been paid for.** -/
theorem Paid.budget (hlimit : limit < usizeBound) (hstart : m.budget h₀ = ⟨limit, 0⟩)
    (hpaid : Paid m h₀ s₀ ns h s) :
    m.budget h = ⟨limit, ns.sum⟩ ∧ ns.sum ≤ limit := by
  induction hpaid with
  | start => exact ⟨hstart, Nat.zero_le limit⟩
  | @pays ns n h h' s s' _ hpays hturn ih =>
    obtain ⟨hbudget, hle⟩ := ih
    obtain ⟨s₁, hcharge⟩ := m.paid hpays
    rw [hbudget] at hcharge
    by_cases hfits : ns.sum + n ≤ limit
    · rw [chargeBlock_within hlimit hfits] at hcharge
      rw [sum_append, sum_singleton]
      rcases hcharge with ⟨h₁, hturn₁, hcharged⟩ | ⟨e, _, hturn₁⟩
      · rw [hturn] at hturn₁
        cases hturn₁
        exact ⟨hcharged, hfits⟩
      · rw [hturn] at hturn₁
        cases hturn₁
    · obtain ⟨received, hbreach⟩ := chargeBlock_breach (not_le.mp hfits)
      rw [hbreach] at hcharge
      rw [hturn] at hcharge
      exact absurd (congrArg Prod.fst hcharge).symm m.stops
  | @free ns h h' s s' _ hfree hturn ih =>
    have hrange : InRange (m.budget h) := by
      rw [ih.1]
      exact ⟨ih.2, hlimit⟩
    exact ⟨(m.budget_of_free hfree hrange hturn).trans ih.1, ih.2⟩

/-- The moments of a response are those up to which something has been paid for. -/
theorem Paid.turns {h' : H} {s' : σ} (hpaid : Paid m h₀ s₀ ns h s) (hturns : Turns m.turn h s h' s')
    : ∃ ns', Paid m h₀ s₀ ns' h' s' := by
  induction hturns generalizing ns with
  | refl => exact ⟨ns, hpaid⟩
  | @more h _ _ s _ _ hturn _ ih =>
    by_cases hpays : ∃ n, m.pays h s n
    · obtain ⟨n, hn⟩ := hpays
      exact ih (hpaid.pays hn hturn)
    · exact ih (hpaid.free (not_exists.mp hpays) hturn)

/-- **The budget is exact**: at every moment of a response the blocks materialised so far are
    within the limit; the response ends at the first block that would bring them above it,
    with `ResponseTooLarge`; and neither a block that fits nor any other packet fails because
    of the budget. -/
structure ExactBudget (m : Meter σ H R) (limit : Nat) (h₀ : H) (s₀ : σ) : Prop where
  within : ∀ {ns h s}, Paid m h₀ s₀ ns h s → ns.sum ≤ limit
  ok : ∀ {fuel r s'}, loop m.turn fuel h₀ s₀ = (.ok r, s') →
    ∃ ns h s, Paid m h₀ s₀ ns h s ∧ ns.sum ≤ limit ∧ m.turn h s = (.ok (.done r), s')
  ends : ∀ {fuel res s'}, loop m.turn fuel h₀ s₀ = (res, s') →
    (∃ ns h s, Paid m h₀ s₀ ns h s ∧ LastTurn m.turn h s res s') ∨ res = .error .depth
  breach : ∀ {ns h s n}, Paid m h₀ s₀ ns h s → m.pays h s n → limit < ns.sum + n →
    ∃ received s', m.turn h s = (m.onBreach h (.responseTooLarge limit received), s')
  accepts : ∀ {ns h s n}, Paid m h₀ s₀ ns h s → m.pays h s n → ns.sum + n ≤ limit →
    ∃ s', (∃ h', m.turn h s = (.ok (.more h'), s'))
      ∨ ∃ e, m.rejects e ∧ m.turn h s = (.error (.error e), s')
  independent : ∀ {ns h s}, Paid m h₀ s₀ ns h s → (∀ n, ¬ m.pays h s n) → ∀ b, InRange b →
    m.turn (m.withBudget b h) s = mapResult (turnMap (m.withBudget b)) (m.turn h) s
  reaches : ∀ {ns h s}, Paid m h₀ s₀ ns h s →
    ∃ k, ∀ fuel, loop m.turn (k + fuel) h₀ s₀ = loop m.turn fuel h s

theorem Paid.reaches (hpaid : Paid m h₀ s₀ ns h s) :
    ∃ k, ∀ fuel, loop m.turn (k + fuel) h₀ s₀ = loop m.turn fuel h s := by
  induction hpaid with
  | start => exact ⟨0, fun fuel => by rw [Nat.zero_add]⟩
  | pays _ _ hturn ih | free _ _ hturn ih =>
    obtain ⟨k, hk⟩ := ih
    refine ⟨k + 1, fun fuel => ?_⟩
    rw [show k + 1 + fuel = k + (fuel + 1) from by omega, hk, loop_more hturn]

theorem Meter.exact (hlimit : limit < usizeBound) (hstart : m.budget h₀ = ⟨limit, 0⟩) :
    ExactBudget m limit h₀ s₀ where
  within hpaid := (hpaid.budget hlimit hstart).2
  ok hloop := by
    obtain ⟨h, s, hturns, hdone⟩ := loop_ok hloop
    obtain ⟨ns, hpaid⟩ := Paid.start.turns hturns
    exact ⟨ns, h, s, hpaid, (hpaid.budget hlimit hstart).2, hdone⟩
  ends hloop := by
    rcases loop_cases hloop with ⟨h, s, hturns, hlast⟩ | hdepth
    · obtain ⟨ns, hpaid⟩ := Paid.start.turns hturns
      exact .inl ⟨ns, h, s, hpaid, hlast⟩
    · exact .inr hdepth
  breach hpaid hpays hover := by
    obtain ⟨s', hcharge⟩ := m.paid hpays
    obtain ⟨received, hbreach⟩ := chargeBlock_breach hover
    rw [(hpaid.budget hlimit hstart).1, hbreach] at hcharge
    exact ⟨received, s', hcharge⟩
  accepts hpaid hpays hfits := by
    obtain ⟨s', hcharge⟩ := m.paid hpays
    rw [(hpaid.budget hlimit hstart).1, chargeBlock_within hlimit hfits] at hcharge
    refine ⟨s', ?_⟩
    rcases hcharge with ⟨h', hturn, _⟩ | hrejects
    · exact .inl ⟨h', hturn⟩
    · exact .inr hrejects
  independent hpaid hfree b hb := by
    have hbudget := hpaid.budget hlimit hstart
    refine m.free hfree ?_ b hb
    rw [hbudget.1]
    exact ⟨hbudget.2, hlimit⟩
  reaches hpaid := hpaid.reaches

end Exact

/-! ## §3. The terminals of a query. -/

/-- What a handler does with a Data packet and its budget. -/
structure HandlerMeter {H R : Type} (handler : SelectHandler H R) (env : Env) (compressed : Bool)
    where
  budget : H → ResponseBudget
  withBudget : ResponseBudget → H → H
  pays : H → Net → Nat → Prop
  rejects : Error → Prop
  budget_withBudget : ∀ b h, budget (withBudget b h) = b
  withBudget_budget : ∀ h, withBudget (budget h) h = h
  finish_withBudget : ∀ b h, handler.finish (withBudget b h) = handler.finish h
  paid : ∀ {h s n}, pays h s n → ∃ s', match chargeBlock (budget h) n with
    | .error e => handler.onData env compressed h s = (.error (.error e), s')
    | .ok b => (∃ h', handler.onData env compressed h s = (.ok h', s') ∧ budget h' = b)
        ∨ ∃ e, rejects e ∧ handler.onData env compressed h s = (.error (.error e), s')
  free : ∀ {h s}, (∀ n, ¬ pays h s n) → ∀ b, handler.onData env compressed (withBudget b h) s
    = mapResult (withBudget b) (handler.onData env compressed h) s

section Select

variable {H R : Type} {handler : SelectHandler H R} {env : Env} {lim : Limits}
  {callbacks : QueryCallbacks}

/-- A packet other than Data leaves the state of the handler alone. -/
theorem selectBody_map {packetType : Nat} (hdata : packetType ≠ 1) (f : H → H) (h : H) :
    selectBody env lim callbacks handler packetType (f h)
      = mapResult f (selectBody env lim callbacks handler packetType h) := by
  unfold selectBody
  split
  · exact absurd rfl hdata
  all_goals
    simp only [mapResult_bind, mapResult_pure, mapResult_ite, mapResult_fail]

/-- The header of a packet of a query's response. -/
def selectHeader (env : Env) (lim : Limits) : Read Net Nat :=
  readPacketType env lim "receive timeout while reading query response"

theorem selectTurn_data {h : H} {s s₁ : Net} (hheader : selectHeader env lim s = (.ok 1, s₁)) :
    selectTurn env lim callbacks handler h s
      = (do let h ← handler.onData env lim.compressed h; return .more h : Read Net _) s₁ := by
  unfold selectHeader at hheader
  unfold selectTurn
  rw [bind_ok hheader]
  rfl

/-- **The meter of a query's terminal.** -/
def HandlerMeter.meter (hm : HandlerMeter handler env lim.compressed) (callbacks : QueryCallbacks) :
    Meter Net H R where
  turn := selectTurn env lim callbacks handler
  budget := hm.budget
  withBudget := hm.withBudget
  pays h s n := ∃ s₁, selectHeader env lim s = (.ok 1, s₁) ∧ hm.pays h s₁ n
  onBreach _ e := .error (.error e)
  rejects := hm.rejects
  budget_withBudget := hm.budget_withBudget
  withBudget_budget := hm.withBudget_budget
  stops := nofun
  paid := by
    rintro h s n ⟨s₁, hheader, hpays⟩
    obtain ⟨s', hcharge⟩ := hm.paid hpays
    refine ⟨s', ?_⟩
    split at hcharge
    · rw [selectTurn_data hheader]
      exact bind_error hcharge
    rw [selectTurn_data hheader]
    rcases hcharge with ⟨h', hdata, hbudget⟩ | ⟨e, hrejects, hdata⟩
    · exact .inl ⟨h', bind_ok hdata, hbudget⟩
    · exact .inr ⟨e, hrejects, bind_error hdata⟩
  free := by
    intro h s hfree _ b _
    unfold selectTurn
    rw [mapResult_bind]
    rcases hheader : selectHeader env lim s with ⟨res, s₁⟩
    unfold selectHeader at hheader
    cases res with
    | error e => rw [bind_error hheader, bind_error hheader]
    | ok packetType =>
      rw [bind_ok hheader, bind_ok hheader]
      split
      · rw [hm.finish_withBudget, mapResult_bind]
        rfl
      · rw [mapResult_bind]
        rfl
      · rename_i hend hexception
        by_cases hdata : packetType = 1
        · subst hdata
          have hrest : ∀ n, ¬ hm.pays h s₁ n :=
            fun n hn => hfree n ⟨s₁, hheader, hn⟩
          have hdata : selectBody env lim callbacks handler 1 (hm.withBudget b h) s₁
              = mapResult (hm.withBudget b) (selectBody env lim callbacks handler 1 h) s₁ :=
            hm.free hrest b
          rw [mapResult_bind, bind_apply, hdata, ← bind_apply, bind_mapResult]
          rfl
        · rw [mapResult_bind, selectBody_map hdata, bind_mapResult]
          rfl

end Select

section Keeping

variable {B H : Type}

/-- What all handlers do with a block they materialise: one that is not empty is charged and
then kept. -/
def keeping {σ : Type} (read : Read σ B) (rows payload : B → Nat)
    (budget : H → ResponseBudget) (keep : H → B → ResponseBudget → Result H) (h : H) :
    Read σ H := do
  let block ← read
  if rows block > 0 then do
    let budget ← liftExcept (chargeBlock (budget h) (payload block))
    liftExcept (keep h block budget)
  else return h

/-- There is a block to pay for. -/
def Materialises {σ : Type} (read : Read σ B) (rows payload : B → Nat) (s : σ) (n : Nat) :
    Prop :=
  ∃ block s', read s = (.ok block, s') ∧ rows block > 0 ∧ payload block = n

variable {σ : Type} {read : Read σ B} {rows payload : B → Nat} {budget : H → ResponseBudget}
  {keep : H → B → ResponseBudget → Result H}

theorem keeping_paid {h : H} {s : σ} {n : Nat} {rejects : Error → Prop}
    (hkeep : ∀ block b, (∃ h', keep h block b = .ok h' ∧ budget h' = b)
      ∨ ∃ e, rejects e ∧ keep h block b = .error e)
    (hpays : Materialises read rows payload s n) :
    ∃ s', match chargeBlock (budget h) n with
      | .error e => keeping read rows payload budget keep h s = (.error (.error e), s')
      | .ok b => (∃ h', keeping read rows payload budget keep h s = (.ok h', s') ∧ budget h' = b)
          ∨ ∃ e, rejects e ∧ keeping read rows payload budget keep h s = (.error (.error e), s') := by
  obtain ⟨block, s', hread, hrows, rfl⟩ := hpays
  refine ⟨s', ?_⟩
  have hrun : keeping read rows payload budget keep h s
      = (do let budget ← liftExcept (chargeBlock (budget h) (payload block))
            liftExcept (keep h block budget) : Read σ H) s' := by
    unfold keeping
    rw [bind_ok hread, if_pos hrows]
  rw [hrun]
  rcases chargeBlock (budget h) (payload block) with e | b
  · rfl
  rcases hkeep block b with ⟨h', hok, hbudget⟩ | ⟨e, hrejects, herror⟩
  · refine .inl ⟨h', ?_, hbudget⟩
    show liftExcept (keep h block b) s' = _
    rw [hok]
    rfl
  refine .inr ⟨e, hrejects, ?_⟩
  show liftExcept (keep h block b) s' = _
  rw [herror]
  rfl

theorem keeping_free {h : H} {s : σ} (f : H → H)
    (hfree : ∀ n, ¬ Materialises read rows payload s n) :
    keeping read rows payload budget keep (f h) s
      = mapResult f (keeping read rows payload budget keep h) s := by
  unfold keeping
  rw [mapResult_bind]
  rcases hread : read s with ⟨res, s'⟩
  rcases res with e | block
  · rw [bind_error hread, bind_error hread]
  have hempty : ¬ rows block > 0 := fun hrows => hfree _ ⟨block, s', hread, hrows, rfl⟩
  rw [bind_ok hread, bind_ok hread, if_neg hempty, if_neg hempty, mapResult_pure]

end Keeping

/-- The handlers of `blocks` and `raw` push the block. -/
def pushBlock {B : Type} (h : List B × ResponseBudget) (block : B) (b : ResponseBudget) :
    Result (List B × ResponseBudget) :=
  .ok (h.1 ++ [block], b)

theorem blocksHandler_onData (env : Env) (compressed : Bool) :
    blocksHandler.onData env compressed
      = keeping (readDataBlockMaybeCompressed env compressed) Block.rows Block.payloadBytes Prod.snd
        pushBlock := rfl

/-- `blocks`. -/
def blocksMeter (env : Env) (compressed : Bool) : HandlerMeter blocksHandler env compressed where
  budget h := h.2
  withBudget b h := (h.1, b)
  pays _ := Materialises (readDataBlockMaybeCompressed env compressed) Block.rows Block.payloadBytes
  rejects _ := False
  budget_withBudget _ _ := rfl
  withBudget_budget _ := rfl
  finish_withBudget _ _ := rfl
  paid hpays := by
    rw [blocksHandler_onData]
    exact keeping_paid (fun _ _ => .inl ⟨_, rfl, rfl⟩) hpays
  free hfree b := by
    rw [blocksHandler_onData]
    exact keeping_free (fun h => (h.1, b)) hfree

theorem rawBlocksHandler_onData (env : Env) (compressed : Bool) :
    rawBlocksHandler.onData env compressed
      = keeping (readRawDataBlock env.depth) RawBlock.rows (fun block => block.data.length) Prod.snd
        pushBlock := rfl

/-- `raw`. -/
def rawMeter (env : Env) (compressed : Bool) : HandlerMeter rawBlocksHandler env compressed where
  budget h := h.2
  withBudget b h := (h.1, b)
  pays _ := Materialises (readRawDataBlock env.depth) RawBlock.rows fun block => block.data.length
  rejects _ := False
  budget_withBudget _ _ := rfl
  withBudget_budget _ := rfl
  finish_withBudget _ _ := rfl
  paid hpays := by
    rw [rawBlocksHandler_onData]
    exact keeping_paid (fun _ _ => .inl ⟨_, rfl, rfl⟩) hpays
  free hfree b := by
    rw [rawBlocksHandler_onData]
    exact keeping_free (fun h => (h.1, b)) hfree

section AllRows

variable {T : Type} (readAll : Block → Result (List T))

/-- The handler of `all` maps the rows, which may fail. -/
def extendRows (h : List T × ResponseBudget) (block : Block) (b : ResponseBudget) :
    Result (List T × ResponseBudget) :=
  (readAll block).map fun rows => (h.1 ++ rows, b)

theorem allRowsHandler_onData (env : Env) (compressed : Bool) :
    (allRowsHandler readAll).onData env compressed
      = keeping (readDataBlockMaybeCompressed env compressed) Block.rows Block.payloadBytes Prod.snd
        (extendRows readAll) := by
  have hmap : ∀ (h : List T × ResponseBudget) (block : Block) (b : ResponseBudget),
      (do let rows ← liftExcept (readAll block); return (h.1 ++ rows, b) : Read Net _)
        = liftExcept (extendRows readAll h block b) := by
    intro h block b
    unfold extendRows
    cases readAll block <;> rfl
  funext h
  unfold allRowsHandler keeping
  simp only [hmap]

/-- `all`. -/
def allRowsMeter (env : Env) (compressed : Bool) :
    HandlerMeter (allRowsHandler readAll) env compressed where
  budget h := h.2
  withBudget b h := (h.1, b)
  pays _ := Materialises (readDataBlockMaybeCompressed env compressed) Block.rows Block.payloadBytes
  rejects e := ∃ block, readAll block = .error e
  budget_withBudget _ _ := rfl
  withBudget_budget _ := rfl
  finish_withBudget _ _ := rfl
  paid {h s n} hpays := by
    rw [allRowsHandler_onData]
    refine keeping_paid (fun block b => ?_) hpays
    unfold extendRows
    cases hrows : readAll block with
    | error e => exact .inr ⟨e, ⟨block, hrows⟩, rfl⟩
    | ok rows => exact .inl ⟨_, rfl, rfl⟩
  free hfree b := by
    rw [allRowsHandler_onData]
    exact keeping_free (fun h => (h.1, b)) hfree

end AllRows

/-- The handler of `block` keeps the first block. -/
def setFirst (h : FirstBlock) (block : Block) (b : ResponseBudget) : Result FirstBlock :=
  .ok { h with first := some block, budget := b }

theorem firstBlockHandler_onData {h : FirstBlock} (hfirst : h.first = none) (env : Env)
    (compressed : Bool) :
    firstBlockHandler.onData env compressed h
      = keeping (readDataBlockMaybeCompressed env compressed) Block.rows Block.payloadBytes
        FirstBlock.budget setFirst h := by
  unfold firstBlockHandler
  dsimp only
  rw [hfirst]
  rfl

theorem firstBlockHandler_further {h : FirstBlock} (hfirst : h.first ≠ none) (env : Env)
    (compressed : Bool) :
    firstBlockHandler.onData env compressed h = (do
      let rows ← discardDataBlockMaybeCompressed env compressed
      return if rows > 0 then { h with extraBlocks := true } else h) := by
  have hsome : h.first.isSome = true := Option.isSome_iff_ne_none.mpr hfirst
  unfold firstBlockHandler
  dsimp only
  rw [if_pos hsome]

/-- The handler of `block` with another budget. -/
def FirstBlock.withBudget (b : ResponseBudget) (h : FirstBlock) : FirstBlock :=
  { h with budget := b }

/-- `block`, which materialises no further block once it has one. -/
def firstBlockMeter (env : Env) (compressed : Bool) :
    HandlerMeter firstBlockHandler env compressed where
  budget h := h.budget
  withBudget := FirstBlock.withBudget
  pays h s n := h.first = none
    ∧ Materialises (readDataBlockMaybeCompressed env compressed) Block.rows Block.payloadBytes s n
  rejects _ := False
  budget_withBudget _ _ := rfl
  withBudget_budget _ := rfl
  finish_withBudget _ _ := rfl
  paid hpays := by
    rw [firstBlockHandler_onData hpays.1]
    exact keeping_paid (fun _ _ => .inl ⟨_, rfl, rfl⟩) hpays.2
  free {h s} hfree b := by
    by_cases hfirst : h.first = none
    · have hrest : ∀ n, ¬ Materialises (readDataBlockMaybeCompressed env compressed) Block.rows
          Block.payloadBytes s n := fun n hn => hfree n ⟨hfirst, hn⟩
      have hfirst' : (h.withBudget b).first = none := hfirst
      rw [firstBlockHandler_onData hfirst, firstBlockHandler_onData hfirst']
      exact keeping_free (FirstBlock.withBudget b) hrest
    have hfirst' : (h.withBudget b).first ≠ none := hfirst
    rw [firstBlockHandler_further hfirst, firstBlockHandler_further hfirst', mapResult_bind]
    simp only [mapResult_pure, apply_ite]
    rfl

/-! ## §4. The result sets of a batch. -/

theorem resultSetTurn_data {env : Env} {compressed : Bool} {idx : Nat} {h : ResultSet} {s s₁ s' : Net}
    {block : Block} (hheader : readVarintAsync s = (.ok 1, s₁))
    (hread : readDataBlockMaybeCompressed env compressed s₁ = (.ok block, s'))
    (hrows : block.rows > 0) :
    resultSetTurn env compressed idx h s = (match chargeBlock h.budget block.payloadBytes with
      | .error e => .ok (.done (false, h.sent ++ [(idx, .error e)]))
      | .ok budget => .ok (.more ⟨budget, h.sent ++ [(idx, .ok (some block))]⟩), s') := by
  unfold resultSetTurn
  rw [bind_ok hheader]
  show (readDataBlockMaybeCompressed env compressed >>= _) s₁ = _
  rw [bind_ok hread, if_pos hrows]
  cases chargeBlock h.budget block.payloadBytes <;> rfl

/-- A result set of a batch, where a block that does not fit is sent as an error. -/
def resultSetMeter (env : Env) (compressed : Bool) (idx : Nat) :
    Meter Net ResultSet (Bool × List BatchMessage) where
  turn := resultSetTurn env compressed idx
  budget h := h.budget
  withBudget b h := { h with budget := b }
  pays _ s n := ∃ s₁, readVarintAsync s = (.ok 1, s₁)
    ∧ Materialises (readDataBlockMaybeCompressed env compressed) Block.rows Block.payloadBytes s₁ n
  onBreach h e := .ok (.done (false, h.sent ++ [(idx, .error e)]))
  rejects _ := False
  budget_withBudget _ _ := rfl
  withBudget_budget _ := rfl
  stops := nofun
  paid := by
    rintro h s n ⟨s₁, hheader, block, s', hread, hrows, rfl⟩
    refine ⟨s', ?_⟩
    rw [resultSetTurn_data hheader hread hrows]
    cases chargeBlock h.budget block.payloadBytes with
    | error e => rfl
    | ok b => exact .inl ⟨_, rfl, rfl⟩
  free := by
    intro h s hfree _ b _
    unfold resultSetTurn
    rw [mapResult_bind]
    rcases hheader : (readVarintAsync : Read Net Nat) s with ⟨res, s₁⟩
    cases res with
    | error e => rw [bind_error hheader, bind_error hheader]
    | ok packetType =>
      rw [bind_ok hheader, bind_ok hheader]
      split
      · rw [mapResult_bind]
        rcases hread : readDataBlockMaybeCompressed env compressed s₁ with ⟨res, s'⟩
        cases res with
        | error e => rw [bind_error hread, bind_error hread]
        | ok block =>
          have hempty : ¬ block.rows > 0 := fun hrows =>
            hfree _ ⟨s₁, hheader, block, s', hread, hrows, rfl⟩
          rw [bind_ok hread, bind_ok hread, if_neg hempty, if_neg hempty]
          rfl
      all_goals
        simp only [mapResult_bind, mapResult_pure, mapResult_ite, turnMap]

/-! ## §5. The sync query. -/

section SyncQuery

variable {σ : Type} [ByteStream Error σ]

/-- An empty block has no payload. -/
def EmptyIsFree (block : Block) : Prop := block.rows = 0 → block.payloadBytes = 0

theorem readBodyColumn_nil (depth : Nat) :
    Gives (fun c : ColumnInfo => c.data = []) (readBodyColumn depth 0 : Read σ _) := by
  have hnothing : ∀ ct, readColumnDataInto depth ct 0 = (pure () : Read (Recorded σ) Unit) := by
    intro ct
    cases depth <;> rfl
  refine .bind fun header => ?_
  rw [hnothing]
  intro s c s' hrun
  cases hrun
  rfl

theorem readBlockBody_free (depth : Nat) :
    Gives EmptyIsFree (readBlockBody depth : Read σ Block) := by
  refine .bind fun _ => .bind fun counts => .ite (.pure fun _ => rfl) ?_
  intro s block s' hrun hrows
  obtain ⟨columns, s₁, hcolumns, hreturn⟩ := bind_eq_ok_iff.mp hrun
  cases hreturn
  have hnone : counts.2 = 0 := hrows
  rw [hnone] at hcolumns
  have hall : ∀ c ∈ columns, c.data = [] :=
    Gives.collect (fun _ => readBodyColumn_nil depth) _ s columns _ hcolumns
  have hzero : columns.map (fun c => c.data.length) = columns.map fun _ => 0 :=
    map_congr_left fun c hc => congrArg List.length (hall c hc)
  unfold Block.payloadBytes
  rw [hzero]
  simp

theorem decompressing_gives {α : Type} {P : α → Prop} (env : Env)
    {body : Read (Inflating σ) α} (h : Gives P body) :
    Gives P (Sync.decompressing env body) := by
  have hframes : ∀ buf plain produced, Gives P (Sync.throughFrames env body buf plain produced) := by
    intro buf plain produced s a s' hrun
    unfold Sync.throughFrames at hrun
    split at hrun
    rename_i res z hbody
    cases hrun
    exact h _ _ _ hbody
  refine .bind fun first => .bind fun rest => ?_
  dsimp only
  split
  · exact hframes _ _ _
  refine .bind fun tail => .ite (hframes _ _ _) (.ite nofun ?_)
  refine .bind fun rest => ?_
  split
  · exact nofun
  split
  · exact nofun
  · exact hframes _ _ _

theorem readBlockFrom_free (env : Env) (compressed : Bool) :
    Gives EmptyIsFree (Sync.readBlockFrom env compressed : Read σ Block) := by
  refine .bind fun _ => .ite ?_ (readBlockBody_free env.depth)
  exact decompressing_gives env (readBlockBody_free env.depth)

variable [Duplex σ]

variable {env : Env} {reply : Sync.Reply}

/-- A Data packet of the sync `query`: every block is kept, and one that is empty is free. -/
theorem blocksHandlers_onData {h : List Block × ResponseBudget} {s s' : σ} {block : Block}
    (hread : Sync.readBlockFrom env reply.compressed s = (.ok block, s')) :
    (Sync.blocksHandlers env reply).onData h s
      = (match chargeBlock h.2 block.payloadBytes with
        | .error e => .error (.error e)
        | .ok b => .ok (.more (h.1 ++ [block], b)), s') := by
  show (Sync.readBlockFrom env reply.compressed >>= _) s = _
  rw [bind_ok hread]
  cases chargeBlock h.2 block.payloadBytes <;> rfl

variable {packetType : Nat}

theorem syncTurn_header {h : List Block × ResponseBudget} {s s₁ : σ}
    (hheader : Sync.responseHeader s = (.ok packetType, s₁)) :
    (Sync.blocksHandlers env reply).turn env reply h s
      = (Sync.blocksHandlers env reply).packet env reply h packetType s₁ :=
  bind_ok hheader

theorem syncPacket_map (hdata : packetType ≠ 1) (b : ResponseBudget)
    (h : List Block × ResponseBudget) :
    (Sync.blocksHandlers env reply : Sync.Handlers σ _ _).packet env reply (h.1, b) packetType
      = mapResult (turnMap fun h => (h.1, b))
        ((Sync.blocksHandlers env reply).packet env reply h packetType) := by
  unfold Sync.Handlers.packet
  split
  · exact absurd rfl hdata
  · unfold Sync.readExceptionPacket
    rw [mapResult_bind]
    rfl
  all_goals
    simp only [mapResult_bind, mapResult_pure, mapResult_ite, mapResult_fail, turnMap]
    try rfl

/-- The sync `query`. -/
def syncMeter (σ : Type) [ByteStream Error σ] [Duplex σ] (env : Env) (reply : Sync.Reply) :
    Meter σ (List Block × ResponseBudget) (List Block) where
  turn := (Sync.blocksHandlers env reply).turn env reply
  budget h := h.2
  withBudget b h := (h.1, b)
  pays _ s n := ∃ s₁, Sync.responseHeader s = (.ok 1, s₁)
    ∧ Materialises (Sync.readBlockFrom env reply.compressed) Block.rows Block.payloadBytes s₁ n
  onBreach _ e := .error (.error e)
  rejects _ := False
  budget_withBudget _ _ := rfl
  withBudget_budget _ := rfl
  stops := nofun
  paid := by
    rintro h s n ⟨s₁, hheader, block, s', hread, _, rfl⟩
    refine ⟨s', ?_⟩
    have hturn := (syncTurn_header (h := h) hheader).trans (blocksHandlers_onData hread)
    rw [hturn]
    cases chargeBlock h.2 block.payloadBytes with
    | error e => rfl
    | ok b => exact .inl ⟨_, rfl, rfl⟩
  free := by
    intro h s hfree hrange b hb
    rcases hheader : (Sync.responseHeader : Read σ Nat) s with ⟨res, s₁⟩
    cases res with
    | error e =>
      unfold Sync.Handlers.turn
      rw [mapResult_bind]
      exact (bind_error hheader).trans (bind_error hheader).symm
    | ok packetType =>
      show _ = (Except.map _ ((Sync.blocksHandlers env reply).turn env reply h s).1,
        ((Sync.blocksHandlers env reply).turn env reply h s).2)
      rw [syncTurn_header hheader, syncTurn_header hheader]
      by_cases hdata : packetType = 1
      · subst hdata
        show (Sync.blocksHandlers env reply).onData (h.1, b) s₁
          = (Except.map _ ((Sync.blocksHandlers env reply).onData h s₁).1,
            ((Sync.blocksHandlers env reply).onData h s₁).2)
        rcases hread : Sync.readBlockFrom env reply.compressed s₁ with ⟨res, s'⟩
        cases res with
        | error e =>
          have hfails : ∀ h, (Sync.blocksHandlers env reply).onData h s₁
              = (.error e, s') := fun _ => bind_error hread
          rw [hfails, hfails]
          rfl
        | ok block =>
          -- only an empty block does not pay, and it is charged nothing
          have hempty : block.rows = 0 := Nat.eq_zero_of_not_pos fun hrows =>
            hfree _ ⟨s₁, hheader, block, s', hread, hrows, rfl⟩
          have hnothing : block.payloadBytes = 0 :=
            readBlockFrom_free env reply.compressed s₁ block s' hread hempty
          rw [blocksHandlers_onData hread, blocksHandlers_onData hread, hnothing,
            chargeBlock_zero hb, chargeBlock_zero hrange]
          rfl
      · rw [syncPacket_map hdata]
        rfl

end SyncQuery

/-! ## §6. All terminals. -/

/-- **The response budget is exact**, for every limit and every response, in all terminals that
    keep what they read; every response and every result set of a batch begins with nothing
    used, and a batch returns the results of all result sets or the first error. -/
theorem budget_exact (limit : UInt64) (env : Env) (lim : Limits) (callbacks : QueryCallbacks)
    (reply : Sync.Reply) :
    (∀ s, ExactBudget ((firstBlockMeter env lim.compressed).meter callbacks) limit.toNat
        ⟨none, false, ⟨limit.toNat, 0⟩⟩ s)
      ∧ (∀ s, ExactBudget ((blocksMeter env lim.compressed).meter callbacks) limit.toNat
        ([], ⟨limit.toNat, 0⟩) s)
      ∧ (∀ (T : Type) (readAll : Block → Result (List T)) s,
        ExactBudget ((allRowsMeter readAll env lim.compressed).meter callbacks) limit.toNat
          ([], ⟨limit.toNat, 0⟩) s)
      ∧ (∀ s, ExactBudget ((rawMeter env lim.compressed).meter callbacks) limit.toNat
        ([], ⟨limit.toNat, 0⟩) s)
      ∧ (∀ compressed idx sent s, ExactBudget (resultSetMeter env compressed idx) limit.toNat
        ⟨⟨limit.toNat, 0⟩, sent⟩ s)
      ∧ (∀ compressed fuel n s res s',
        batchExecute env compressed limit.toNat fuel n s = (res, s') →
          (∃ sent results, SetsRead env compressed limit.toNat fuel n 0 [] s sent s'
              ∧ res = .ok results)
            ∨ ∃ k sent₁ s₁, k < n ∧ SetsRead env compressed limit.toNat fuel k 0 [] s sent₁ s₁
              ∧ ((∃ sent₂ e, loop (resultSetTurn env compressed k) fuel ⟨⟨limit.toNat, 0⟩, sent₁⟩ s₁
                    = (.ok (false, sent₂ ++ [(k, .error e)]), s') ∧ res = .error (.error e))
                ∨ ∃ e, loop (resultSetTurn env compressed k) fuel ⟨⟨limit.toNat, 0⟩, sent₁⟩ s₁
                    = (.error e, s') ∧ res = .error e))
      ∧ ∀ (σ : Type) [ByteStream Error σ] [Duplex σ] (s : σ),
        ExactBudget (syncMeter σ env reply) limit.toNat ([], ⟨limit.toNat, 0⟩) s := by
  have hlimit : limit.toNat < usizeBound := limit.toNat_lt
  refine ⟨?_, ?_, ?_, ?_, ?_, ?_, ?_⟩
  · intro s
    exact Meter.exact hlimit rfl
  · intro s
    exact Meter.exact hlimit rfl
  · intro T readAll s
    exact Meter.exact hlimit rfl
  · intro s
    exact Meter.exact hlimit rfl
  · intro compressed idx sent s
    exact Meter.exact hlimit rfl
  · intro compressed fuel n s res s' hexecute
    exact batchExecute_cases hexecute
  · intro σ _ _ s
    exact Meter.exact hlimit rfl

end StClickHouse
