/-
  StClickHouse.Async.Batch
  **SEVERAL QUERIES IN ONE WRITE.**

  `BatchBuilder::execute` (`connection/batch.rs`) writes all queries at once.  A task reads
  the result sets one after the other and sends each non-empty block, tagged with the number
  of its query; the caller keeps the first block of each.
-/
import StClickHouse.Async.Select

namespace StClickHouse

open ByteReader RustText List

/-! ## §1. The reader task. -/

/-- What the task sends: `Some` block, `None` at the end of a result set, or an error. -/
abbrev BatchMessage := Nat × Result (Option Block)

/-- What is carried from packet to packet of a result set. -/
structure ResultSet where
  budget : ResponseBudget
  sent : List BatchMessage

/-- One packet of the inner loop of `read_n_result_sets`.  It ends with whether the task goes
on with the next result set. -/
def resultSetTurn (env : Env) (compressed : Bool) (idx : Nat) (h : ResultSet) :
    Read Net (Turn ResultSet (Bool × List BatchMessage)) := do
  match ← readVarintAsync with
  | 1 => do
    let block ← readDataBlockMaybeCompressed env compressed
    if block.rows > 0 then
      match chargeBlock h.budget block.payloadBytes with
      | .error e => return .done (false, h.sent ++ [(idx, .error e)])
      | .ok budget => return .more ⟨budget, h.sent ++ [(idx, .ok (some block))]⟩
    else return .more h
  | 2 => do
    let e ← readException
    return .done (false, h.sent ++ [(idx, .error e)])
  | 3 => do
    let _progress ← readProgressPacket
    return .more h
  | 4 => return .more h
  | 5 => return .done (true, h.sent ++ [(idx, .ok none)])
  | 6 => do
    let _profile ← readProfileInfoPacket
    return .more h
  | 10 => do
    let _block ← readDataBlock env.depth
    return .more h
  | 14 => do
    let _block ← readDataBlockMaybeCompressed env compressed
    return .more h
  | 12 => do
    let _uuids ← readPartUuidsPacket
    return .more h
  | 17 => do
    let _timezone ← readStringAsync
    return .more h
  | packetType => do
    if ← handleCoordinatorPacket packetType then return .more h
    else return .done (false, h.sent
      ++ [(idx, .error (.text ("unknown packet type: " ++ toString packetType)))])

/-- `read_n_result_sets`: so many result sets are left, and so many were read. -/
def readResultSets (env : Env) (compressed : Bool) (limit fuel : Nat) :
    Nat → Nat → List BatchMessage → Read Net (List BatchMessage)
  | 0, _, sent => return sent
  | left + 1, idx, sent => do
    -- `budget.reset()`
    let (goesOn, sent) ← loop (resultSetTurn env compressed idx) fuel ⟨⟨limit, 0⟩, sent⟩
    if goesOn then readResultSets env compressed limit fuel left (idx + 1) sent
    else return sent

/-! ## §2. The caller. -/

/-- What `execute` makes of the messages: the first block of each result set. -/
def collectResults : List BatchMessage → Nat → List (Option Block) → Result (List (Option Block))
  | [], _, results => .ok results
  | (_, .error e) :: _, _, _ => .error e
  | (idx, .ok (some block)) :: messages, remaining, results =>
    collectResults messages remaining
      (if results[idx]? = some none then results.set idx (some block) else results)
  | (_, .ok none) :: messages, remaining, results =>
    if remaining - 1 = 0 then .ok results
    else collectResults messages (remaining - 1) results

/-- `BatchBuilder::execute`, once `n` queries are on their way: an error of the task itself is
sent last. -/
def batchExecute (env : Env) (compressed : Bool) (limit fuel n : Nat) :
    Read Net (List (Option Block)) := do
  let messages ← readResultSets env compressed limit fuel n 0 []
  liftExcept (collectResults messages n (List.replicate n none))

/-! ## §3. Errors. -/

/-- The ends of result sets among the messages. -/
def setEnds (messages : List BatchMessage) : Nat :=
  messages.countP fun m => match m.2 with
    | .ok none => true
    | _ => false

/-- No error was sent. -/
def Unfailed (messages : List BatchMessage) : Prop := ∀ m ∈ messages, m.2.isOk = true

variable {messages : List BatchMessage} {s s' : Net}

variable {idx remaining : Nat} {results : List (Option Block)}

/-- **The first error that is sent is what the batch returns**, unless all result sets have
    ended before it. -/
theorem collectResults_error {e : Error} (hsent : Unfailed messages)
    (hends : setEnds messages < remaining) :
    collectResults (messages ++ [(idx, .error e)]) remaining results = .error e := by
  induction messages generalizing remaining results with
  | nil => rfl
  | cons m messages ih =>
    have htail : Unfailed messages := fun m' hm' => hsent m' (mem_cons_of_mem m hm')
    obtain ⟨i, res⟩ := m
    rcases res with e' | block
    · exact absurd (hsent _ mem_cons_self) Bool.false_ne_true
    cases block with
    | some block =>
      have hends' : setEnds messages < remaining := by
        unfold setEnds at hends ⊢
        rwa [countP_cons_of_neg (by simp)] at hends
      exact ih htail hends'
    | none =>
      have hends' : setEnds messages + 1 < remaining := by
        unfold setEnds at hends ⊢
        rwa [countP_cons_of_pos (by simp)] at hends
      have hleft : ¬ remaining - 1 = 0 := by omega
      show (if remaining - 1 = 0 then _ else _) = _
      rw [if_neg hleft]
      exact ih htail (by omega)

/-- A packet of a result set after which the task goes on: nothing or a block is sent. -/
def SentOn (idx : Nat) (h h' : ResultSet) : Prop :=
  h'.sent = h.sent ∨ ∃ block, h'.sent = h.sent ++ [(idx, .ok (some block))]

/-- What a packet of a result set can lead to. -/
def TurnSent (idx : Nat) (h : ResultSet) : Turn ResultSet (Bool × List BatchMessage) → Prop
  | .more h' => SentOn idx h h'
  | .done (true, sent) => sent = h.sent ++ [(idx, .ok none)]
  | .done (false, sent) => ∃ e, sent = h.sent ++ [(idx, .error e)]

theorem resultSetTurn_sent (env : Env) (compressed : Bool) (idx : Nat) (h : ResultSet) :
    Gives (TurnSent idx h) (resultSetTurn env compressed idx h) := by
  have hsame : TurnSent idx h (.more h) := .inl rfl
  refine .bind fun packetType => ?_
  split
  · refine .bind fun block => .ite ?_ (.pure hsame)
    split
    · exact .pure ⟨_, rfl⟩
    · exact .pure (.inr ⟨block, rfl⟩)
  · exact .bind fun e => .pure ⟨e, rfl⟩
  · exact .bind fun _ => .pure hsame
  · exact .pure hsame
  · exact .pure rfl
  · exact .bind fun _ => .pure hsame
  · exact .bind fun _ => .pure hsame
  · exact .bind fun _ => .pure hsame
  · exact .bind fun _ => .pure hsame
  · exact .bind fun _ => .pure hsame
  · exact .bind fun _ => .ite (.pure hsame) (.pure ⟨_, rfl⟩)

/-- So many result sets have ended, and nothing has failed. -/
def Sent (ended : Nat) (messages : List BatchMessage) : Prop :=
  Unfailed messages ∧ setEnds messages = ended

variable {ended : Nat}

theorem Sent.snoc (h : Sent ended messages) (block : Option Block) :
    Sent (ended + if block = none then 1 else 0) (messages ++ [(idx, .ok block)]) := by
  constructor
  · intro m hm
    rcases mem_append.mp hm with hm | hm
    · exact h.1 m hm
    · cases mem_singleton.mp hm
      rfl
  unfold setEnds
  rw [countP_append, ← h.2]
  cases block <;> rfl

theorem sent_of_turns {env : Env} {compressed : Bool} {h h' : ResultSet}
    (hturns : Turns (resultSetTurn env compressed idx) h s h' s') (hsent : Sent ended h.sent) :
    Sent ended h'.sent := by
  induction hturns with
  | refl => exact hsent
  | more hturn _ ih =>
    apply ih
    rcases resultSetTurn_sent env compressed idx _ _ _ _ hturn with hsame | ⟨block, hblock⟩
    · rw [hsame]
      exact hsent
    · rw [hblock]
      exact hsent.snoc (some block)

/-! ## §4. The whole batch. -/

theorem collectResults_ok (hsent : Unfailed messages) :
    ∃ results', collectResults messages remaining results = .ok results' := by
  induction messages generalizing remaining results with
  | nil => exact ⟨results, rfl⟩
  | cons m messages ih =>
    have htail : Unfailed messages := fun m' hm' => hsent m' (mem_cons_of_mem m hm')
    obtain ⟨i, res⟩ := m
    rcases res with e | block
    · exact absurd (hsent _ mem_cons_self) Bool.false_ne_true
    cases block with
    | some block => exact ih htail
    | none =>
      show ∃ results', (if remaining - 1 = 0 then _ else _) = Except.ok results'
      split
      · exact ⟨results, rfl⟩
      · exact ih htail

variable {env : Env} {compressed : Bool} {limit fuel : Nat}

/-- So many result sets are read to their end, each with a fresh budget. -/
inductive SetsRead (env : Env) (compressed : Bool) (limit fuel : Nat) :
    Nat → Nat → List BatchMessage → Net → List BatchMessage → Net → Prop
  | none (idx : Nat) (sent : List BatchMessage) (s : Net) :
      SetsRead env compressed limit fuel 0 idx sent s sent s
  | one {k idx : Nat} {sent sent₁ sent' : List BatchMessage} {s s₁ s' : Net} :
      loop (resultSetTurn env compressed idx) fuel ⟨⟨limit, 0⟩, sent⟩ s = (.ok (true, sent₁), s₁) →
      SetsRead env compressed limit fuel k (idx + 1) sent₁ s₁ sent' s' →
      SetsRead env compressed limit fuel (k + 1) idx sent s sent' s'

/-- A result set that ends sends its end; one that does not sends an error. -/
theorem resultSet_sent {sent sent' : List BatchMessage} {goesOn : Bool} (hsent : Sent ended sent)
    (hloop : loop (resultSetTurn env compressed idx) fuel ⟨⟨limit, 0⟩, sent⟩ s = (.ok (goesOn, sent'), s'))
    :
    (goesOn = true ∧ Sent (ended + 1) sent')
      ∨ goesOn = false ∧ ∃ sent₁ e, Sent ended sent₁ ∧ sent' = sent₁ ++ [(idx, .error e)] := by
  obtain ⟨h₁, s₁, hturns, hlast⟩ := loop_ok hloop
  have hbefore : Sent ended h₁.sent := sent_of_turns hturns hsent
  have hdone := resultSetTurn_sent env compressed idx h₁ s₁ _ _ hlast
  rcases goesOn with _ | _
  · obtain ⟨e, he⟩ := hdone
    exact .inr ⟨rfl, h₁.sent, e, hbefore, he⟩
  left
  refine ⟨rfl, ?_⟩
  rw [show sent' = h₁.sent ++ [(idx, .ok none)] from hdone]
  exact hbefore.snoc none

theorem readResultSets_cases {left : Nat} {sent : List BatchMessage}
    {res : Readout (List BatchMessage)} (hsent : Sent idx sent)
    (hread : readResultSets env compressed limit fuel left idx sent s = (res, s')) :
    (∃ sent', SetsRead env compressed limit fuel left idx sent s sent' s' ∧ res = .ok sent'
        ∧ Sent (idx + left) sent')
      ∨ ∃ k sent₁ s₁, k < left ∧ SetsRead env compressed limit fuel k idx sent s sent₁ s₁
        ∧ ((∃ sent₂ e, loop (resultSetTurn env compressed (idx + k)) fuel ⟨⟨limit, 0⟩, sent₁⟩ s₁
              = (.ok (false, sent₂ ++ [(idx + k, .error e)]), s')
            ∧ Sent (idx + k) sent₂ ∧ res = .ok (sent₂ ++ [(idx + k, .error e)]))
          ∨ ∃ e, loop (resultSetTurn env compressed (idx + k)) fuel ⟨⟨limit, 0⟩, sent₁⟩ s₁
              = (.error e, s') ∧ res = .error e) := by
  induction left generalizing idx sent s with
  | zero =>
    cases hread
    exact .inl ⟨sent, .none idx sent _, rfl, hsent⟩
  | succ left ih =>
    rw [readResultSets] at hread
    rcases hloop : loop (resultSetTurn env compressed idx) fuel ⟨⟨limit, 0⟩, sent⟩ s with ⟨out, s₁⟩
    rcases out with e | out
    · rw [bind_error hloop] at hread
      cases hread
      exact .inr ⟨0, sent, s, Nat.succ_pos left, .none idx sent s, .inr ⟨e, hloop, rfl⟩⟩
    obtain ⟨goesOn, sent₁⟩ := out
    rw [bind_ok hloop] at hread
    rcases resultSet_sent hsent hloop with ⟨rfl, hended⟩ | ⟨rfl, sent₂, e, hended, rfl⟩
    · -- the set has ended: the rest is read with one result set less to go
      have hrest := ih hended hread
      rw [show idx + 1 + left = idx + (left + 1) from by omega] at hrest
      rcases hrest with ⟨sent', hsets, hres, hall⟩ | ⟨k, sent', s₂, hk, hsets, hend⟩
      · exact .inl ⟨sent', .one hloop hsets, hres, hall⟩
      · rw [show idx + 1 + k = idx + (k + 1) from by omega] at hend
        exact .inr ⟨k + 1, sent', s₂, Nat.succ_lt_succ hk, .one hloop hsets, hend⟩
    · cases hread
      exact .inr ⟨0, sent, s, Nat.succ_pos left, .none idx sent s,
        .inl ⟨sent₂, e, hloop, hended, rfl⟩⟩

/-- **How a batch ends**: all result sets are read to their end, or the first that is not
    decides what the batch returns. -/
theorem batchExecute_cases {n : Nat} {res : Readout (List (Option Block))}
    (hexecute : batchExecute env compressed limit fuel n s = (res, s')) :
    (∃ sent results, SetsRead env compressed limit fuel n 0 [] s sent s' ∧ res = .ok results)
      ∨ ∃ k sent₁ s₁, k < n ∧ SetsRead env compressed limit fuel k 0 [] s sent₁ s₁
        ∧ ((∃ sent₂ e, loop (resultSetTurn env compressed k) fuel ⟨⟨limit, 0⟩, sent₁⟩ s₁
              = (.ok (false, sent₂ ++ [(k, .error e)]), s') ∧ res = .error (.error e))
          ∨ ∃ e, loop (resultSetTurn env compressed k) fuel ⟨⟨limit, 0⟩, sent₁⟩ s₁
              = (.error e, s') ∧ res = .error e) := by
  have hnothing : Sent 0 [] := ⟨nofun, rfl⟩
  unfold batchExecute at hexecute
  rcases hread : readResultSets env compressed limit fuel n 0 [] s with ⟨out, s₁⟩
  have hcases := readResultSets_cases hnothing hread
  simp only [Nat.zero_add] at hcases
  rcases hcases with ⟨sent, hsets, rfl, hall⟩ | ⟨k, sent₁, s₂, hk, hsets, hend⟩
  · rw [bind_ok hread] at hexecute
    obtain ⟨results, hok⟩ := collectResults_ok hall.1
    rw [hok] at hexecute
    cases hexecute
    exact .inl ⟨sent, results, hsets, rfl⟩
  rcases hend with ⟨sent₂, e, hloop, hended, rfl⟩ | ⟨e, hloop, rfl⟩
  · rw [bind_ok hread, collectResults_error hended.1 (hended.2 ▸ hk)] at hexecute
    cases hexecute
    exact .inr ⟨k, sent₁, s₂, hk, hsets, .inl ⟨sent₂, e, hloop, rfl⟩⟩
  rw [bind_error hread] at hexecute
  cases hexecute
  exact .inr ⟨k, sent₁, s₂, hk, hsets, .inr ⟨e, hloop, rfl⟩⟩

end StClickHouse
