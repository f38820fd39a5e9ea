/-
  StClickHouse.Pool.Cancel
  **QUERIES DROPPED AT AN AWAIT.**

  The async query paths, from the guard they have acquired to their return: the select
  terminals, `execute`, `begin_insert` with its session, `begin_select` with its
  stream, and `batch` up to the point where it takes the stream.  Each await of the
  source is a stage in which the owner of the guard may drop everything; how far a read
  or a write has come by then is arbitrary.

      dropped_safe       — a query dropped at any await leaves its slot empty or
                           without an unread response, where `execute` drains an
                           orderly response before it clears the schema cache
      alter_dropped      — one that is not
-/
import StClickHouse.Lib.Runs
import StClickHouse.Async.BlockStream
import StClickHouse.Pool.Hygiene

namespace StClickHouse

open ByteReader RustText

/-! ## §1. The mark of a stream. -/

namespace BlockStream

variable {α β : Type} {env : Env} {lim : Limits} {callbacks : QueryCallbacks}

/-- The response of a stream has been read through its terminal packet. -/
def Ended (env : Env) (lim : Limits) (callbacks : QueryCallbacks) (start net' : Net) : Prop :=
  ∃ bs net, Yields env lim callbacks start bs net ∧
    (streamHeader env lim net = (.ok 5, net') ∨
      ∃ net₁ e, streamHeader env lim net = (.ok 2, net₁) ∧ readException net₁ = (.ok e, net'))

/-- The mark stays as it is. -/
def KeepsMark (x : Read BlockStream α) : Prop := ∀ s, (x s).2.inFlight = s.inFlight

theorem KeepsMark.bind {x : Read BlockStream α} {f : α → Read BlockStream β}
    (hx : KeepsMark x) (hf : ∀ a, KeepsMark (f a)) : KeepsMark (x >>= f) := by
  intro s
  rw [bind_apply]
  rcases hrun : x s with ⟨res, s₁⟩
  have hmark : s₁.inFlight = s.inFlight := by rw [← hx s, hrun]
  cases res with
  | ok a => exact (hf a s₁).trans hmark
  | error e => exact hmark

theorem KeepsMark.ite {c : Prop} [Decidable c] {x y : Read BlockStream α}
    (hx : KeepsMark x) (hy : KeepsMark y) : KeepsMark (if c then x else y) := by
  split
  · exact hx
  · exact hy

theorem onNet_keepsMark (x : Read Net α) : KeepsMark (onNet x) := fun _ => rfl

theorem abandon_keepsMark (e : Error) : KeepsMark (abandon e : Read BlockStream α) :=
  fun _ => rfl

theorem expire_keepsMark : KeepsMark (expire env lim : Read BlockStream α) := fun _ => rfl

theorem header_keepsMark : KeepsMark (header env lim) := by
  refine .bind (.ite (onNet_keepsMark _) fun _ => rfl) fun elapsed => ?_
  refine .ite expire_keepsMark (.bind (onNet_keepsMark _) ?_)
  intro res
  split
  · exact fun _ => rfl
  · exact .ite expire_keepsMark (abandon_keepsMark _)
  · exact abandon_keepsMark _

/-- **One turn** of a stream that is marked: it goes on after a decoded packet, it ends
with the mark still set, or it has read the response through. -/
theorem turn_mark {start : Net} {bs : List Block} {s s' : BlockStream}
    (hyields : Yields env lim callbacks start bs s.net) (hmark : s.inFlight = true)
    {res : Readout (Turn Unit (Option Block))}
    (h : turn env lim callbacks s = (res, s')) :
    (res = .ok (.more ()) ∧ s'.inFlight = true ∧ ∃ bs', Yields env lim callbacks start bs' s'.net) ∨
    (res ≠ .ok (.more ()) ∧
      (s'.inFlight = true ∨ s'.done = true ∧ Ended env lim callbacks start s'.net)) := by
  unfold turn at h
  have hheadMark : (header env lim s).2.inFlight = s.inFlight := header_keepsMark s
  rcases hhead : header env lim s with ⟨r, s₁⟩
  rw [hhead] at hheadMark
  have hmark₁ : s₁.inFlight = true := hheadMark.trans hmark
  rcases r with e | packetType
  · rw [bind_error hhead] at h
    cases h
    exact .inr ⟨nofun, .inl hmark₁⟩
  obtain ⟨_, heq, hheader, _⟩ | ⟨_, heq, _⟩ | heq := header_cases hhead
  · cases heq
    rw [bind_ok hhead] at h
    split at h
    · cases h
      exact .inr ⟨nofun, .inr ⟨rfl, bs, s.net, hyields, .inl hheader⟩⟩
    · rcases hread : (readException : Read Net Error) s₁.net with ⟨r, net₂⟩
      have hon := onNet_run hread
      rcases r with e | e
      · rw [bind_error hon] at h
        cases h
        exact .inr ⟨nofun, .inl hmark₁⟩
      rw [bind_ok hon] at h
      cases h
      exact .inr ⟨nofun, .inr ⟨rfl, bs, s.net, hyields,
        .inr ⟨s₁.net, e, hheader, hread⟩⟩⟩
    · next hne5 hne2 =>
      rcases hread : body env lim callbacks packetType s₁.net with ⟨r, net₂⟩
      have hon := onNet_run hread
      rcases r with e | found
      · rw [bind_error hon] at h
        cases h
        exact .inr ⟨nofun, .inl hmark₁⟩
      rw [bind_ok hon] at h
      rcases found with _ | block
      · cases h
        exact .inl ⟨rfl, hmark₁, _, .packet hyields hheader hne5 hne2 hread⟩
      cases h
      exact .inr ⟨nofun, .inl hmark₁⟩
  · cases heq
  · cases heq

/-- **A call of `next_block`** that begins at a packet boundary of a marked stream, and
returns: the mark is still set, or the response has been read through. -/
theorem nextBlock_answered {start : Net} {bs : List Block} {fuel : Nat} {s s' : BlockStream}
    (hyields : Yields env lim callbacks start bs s.net) (hmark : s.inFlight = true)
    {res : Readout (Option Block)}
    (h : nextBlock env lim callbacks fuel s = (res, s')) (hres : res ≠ .error .depth) :
    s'.inFlight = true ∨ s'.done = true ∧ Ended env lim callbacks start s'.net := by
  unfold nextBlock at h
  split at h
  · cases h
    exact .inl hmark
  obtain ⟨_, s₁, hturns, hlast⟩ | hdepth := loop_cases h
  · have hreached : ∀ {u v : Unit} {s s₁ : BlockStream},
        Turns (fun _ => turn env lim callbacks) u s v s₁ →
        ∀ {bs}, Yields env lim callbacks start bs s.net → s.inFlight = true →
        s₁.inFlight = true ∧ ∃ bs', Yields env lim callbacks start bs' s₁.net := by
      intro u v s s₁ hturns
      induction hturns with
      | refl _ s => exact fun hy hm => ⟨hm, _, hy⟩
      | more hturn _ ih =>
        intro bs hy hm
        obtain ⟨_, hm', bs', hy'⟩ | ⟨hne, _⟩ := turn_mark hy hm hturn
        · exact ih hy' hm'
        · exact absurd rfl hne
    obtain ⟨hmark₁, bs₁, hyields₁⟩ := hreached hturns hyields hmark
    cases hlast with
    | done hturn | stopped hturn =>
      obtain ⟨hmore, _⟩ | ⟨_, hend⟩ := turn_mark hyields₁ hmark₁ hturn
      · cases hmore
      · exact hend
  · exact absurd hdepth hres

end BlockStream

/-! ## §2. Query paths. -/

/-- `query_may_change_schema`: the first word of the query. -/
def queryMayChangeSchema (query : Text) : Bool :=
  match (query.dropWhile isWhitespace).takeWhile (!isWhitespace ·) with
  | [] => false
  | first => String.ofList (first.map Char.toUpper) ∈
      ["ALTER", "ATTACH", "CREATE", "DETACH", "DROP", "EXCHANGE", "RENAME", "TRUNCATE"]

/-- The async query paths. -/
inductive Path (T : Type) where
  /-- The calls that read their response under the guard. -/
  | call (term : Terminal T)
  /-- `rows`: a background task reads the response. -/
  | rows
  | beginSelect
  /-- `batch`: a background task reads the responses. -/
  | batch

/-- A query. -/
structure Query (T : Type) where
  path : Path T
  text : Text
  request : Request

/-- Where a query stands; all but the first and the last are awaits, or leave the
guard to a caller that may await anything. -/
inductive Stage where
  /-- `get` has returned. -/
  | acquired
  /-- In the send phase. -/
  | sending
  /-- In the read phase. -/
  | reading
  /-- `execute`: in `clear_schema_cache`. -/
  | clearingCache
  /-- The caller has the `BlockStream`. -/
  | streaming
  /-- In `next_block`, reading a packet. -/
  | inNextBlock
  /-- In `next_block` past the deadline, or in `cancel`: the stream is latched. -/
  | closing
  /-- The caller has the `InsertSession`, or is in `send_data`. -/
  | inserting
  /-- In `InsertSession::end`. -/
  | ending
  /-- The guard is gone. -/
  | finished
  deriving DecidableEq

/-- A query in progress. -/
structure Task where
  /-- The guard, with the connection as it is now. -/
  slot : Guard
  stage : Stage
  /-- The connection as it was acquired. -/
  acquired : Net
  /-- The connection as it was when the awaited phase began. -/
  began : Net
  /-- `BlockStream::done`. -/
  done : Bool := false
  /-- `InsertSession::active`. -/
  active : Bool := false
  deriving DecidableEq

namespace Task

/-- A query that has just acquired a connection. -/
def start (net : Net) : Task where
  slot := { net := net }
  stage := .acquired
  acquired := net
  began := net

/-- The slot after everything the query owns is dropped where it stands: its
`BlockStream` or `InsertSession` if it has one, and the guard. -/
def dropped (t : Task) : Guard :=
  match t.stage with
  | .streaming | .inNextBlock | .closing =>
    if t.done then t.slot.drop else { t.slot with held := false }.drop
  | .inserting | .ending =>
    if t.active then { t.slot with held := false }.drop else t.slot.drop
  | .finished => t.slot
  | _ => t.slot.drop

/-- The connection is somewhere else. -/
def reaches (t : Task) (net : Net) : Task := { t with slot := { t.slot with net := net } }

/-- The query is over, and its guard is dropped. -/
def finish (t : Task) (slot : Guard) : Task := { t with slot := slot, stage := .finished }

/-- What can happen to a query in progress. -/
inductive Action where
  /-- The packets are built and the connection is marked. -/
  | begins
  /-- A pending read has taken some bytes, a pending write has written some. -/
  | progress (taken : Nat) (written : List Bytes)
  /-- The send phase ends. -/
  | sent
  /-- The read phase ends. -/
  | read (fuel : Nat)
  /-- The schema cache is cleared. -/
  | cleared
  /-- The caller calls `next_block`. -/
  | next
  /-- `next_block` returns. -/
  | returned (fuel : Nat)
  /-- `next_block` runs into its deadline, and cancels. -/
  | expired
  /-- The caller drops the future of `next_block`, and keeps the stream. -/
  | forgotten
  /-- The caller calls `cancel`. -/
  | cancel
  /-- The stream has been latched, and gives the connection up. -/
  | closed
  /-- The caller calls `end` on the insert session. -/
  | ends
  /-- `end` returns: its packet was not written, or the response has been drained. -/
  | ended (written : Result Unit) (fuel : Nat)

section

variable {T : Type} (env : Env) (lim : Limits) (callbacks : QueryCallbacks) (maxResponseSize : Nat)

variable (q : Query T)

/-- The query goes on after its send phase. -/
def afterSend (t : Task) (net : Net) : Task :=
  match q.path with
  | .call _ => { t.reaches net with stage := .reading, began := net }
  | .rows | .batch => t.finish { t.slot with net := net, held := false, inFlight := false }
  | .beginSelect => { t.reaches net with stage := .streaming, done := false }

/-- The query goes on after its read phase. -/
def afterRead (term : Terminal T) (t : Task) (result : Result Unit) (net : Net) : Task :=
  let slot := (Guard.finishResponse result { t.slot with net := net }).2
  match term, result with
  | .beginInsert, .ok () => { t with slot := slot, stage := .inserting, active := true }
  | .execute, .ok () =>
    if queryMayChangeSchema q.text then { t with slot := slot, stage := .clearingCache }
    else t.finish slot.drop
  | _, _ => t.finish slot.drop

/-- `end` returns. -/
def afterEnd (t : Task) (result : Result Unit) (net : Net) : Task :=
  let active := match result with
    | .ok () => false
    | .error _ => t.active
  let slot := (Guard.finishResponse result { t.slot with net := net }).2
  t.finish (if active then { slot with held := false }.drop else slot.drop)

/-- The phases in which a read or a write may be pending. -/
def onWire (t : Task) : Bool :=
  t.stage ∈ [.sending, .reading, .inNextBlock, .closing, .inserting, .ending]

/-- One step. -/
def step (t : Task) : Action → Option Task
  | .begins =>
    if t.stage = .acquired then
      some { t with
        stage := .sending
        began := t.slot.net
        slot := (Guard.markResponseInFlight t.slot).2 }
    else none
  | .progress taken written =>
    if t.onWire then
      some (t.reaches { t.slot.net with
        incoming := t.slot.net.incoming.drop taken
        sent := t.slot.net.sent ++ written })
    else none
  | .sent =>
    if t.stage = .sending then
      match q.request.send t.began with
      | (.ok (), net) => some (afterSend q t net)
      | (.error (.error e), net) =>
        -- a select gives a broken connection up itself; the mark does the rest
        match q.path with
        | .call term => some (t.finish (term.refuse e { t.slot with net := net }).2.drop)
        | .rows => some (t.finish ((Terminal.block (T := T)).refuse e
            { t.slot with net := net }).2.drop)
        | .beginSelect | .batch => some (t.finish { t.slot with net := net }.drop)
      | (.error .depth, _) => none
    else none
  | .read fuel =>
    match t.stage, q.path with
    | .reading, .call term =>
      match term.response env lim callbacks maxResponseSize fuel t.began with
      | (.ok (), net) => some (afterRead q term t (.ok ()) net)
      | (.error (.error e), net) => some (afterRead q term t (.error e) net)
      | (.error .depth, _) => none
    | _, _ => none
  | .cleared =>
    if t.stage = .clearingCache then some (t.finish t.slot.drop) else none
  | .next =>
    if t.stage = .streaming then
      -- a latched stream answers at once
      some (if t.done then t else { t with stage := .inNextBlock, began := t.slot.net })
    else none
  | .returned fuel =>
    if t.stage = .inNextBlock then
      match BlockStream.nextBlock env lim callbacks fuel
          ⟨t.began, false, !t.slot.held, t.slot.inFlight⟩ with
      | (.error .depth, _) => none
      | (_, s) =>
        some { t with
          stage := .streaming
          done := s.done
          slot := ⟨s.net, !s.taken, s.inFlight⟩ }
    else none
  | .expired =>
    if t.stage = .inNextBlock then some { t with stage := .closing, done := true } else none
  | .forgotten =>
    if t.stage = .inNextBlock ∨ t.stage = .closing then some { t with stage := .streaming }
    else none
  | .cancel =>
    if t.stage = .streaming ∧ t.done = false then
      some { t with stage := .closing, done := true }
    else none
  | .closed =>
    if t.stage = .closing then
      some { t with stage := .streaming, slot := (Guard.takeStream t.slot).2 }
    else none
  | .ends =>
    if t.stage = .inserting then some { t with stage := .ending } else none
  | .ended written fuel =>
    if t.stage = .ending then
      match written with
      | .error _ =>
        -- `?`: the session is dropped as it is
        some (t.finish t.dropped)
      | .ok () =>
        match drainResponse env lim fuel t.slot.net with
        | (.ok (), net) => some (afterEnd t (.ok ()) net)
        | (.error (.error e), net) => some (afterEnd t (.error e) net)
        | (.error .depth, _) => none
    else none

/-! ## §3. What a dropped query leaves. -/

/-- The response that began at `s` has been read through its terminal packet at `s'`. -/
def Answered (s s' : Net) : Prop :=
  match q.path with
  | .call term => term.ReadThrough env lim callbacks maxResponseSize s s'
  | .beginSelect => BlockStream.Ended env lim callbacks s s'
  | .rows | .batch => False

/-- The request was written, and its response has been read through. -/
def Settled (t : Task) (net : Net) : Prop :=
  ∃ s₀, q.request.send t.acquired = (.ok (), s₀) ∧ Answered env lim callbacks maxResponseSize q s₀ net

/-- **Safe to drop**: the slot is empty, or holds the connection as it was acquired, or
holds it with the response read through. -/
def Safe (t : Task) : Prop :=
  t.dropped.held = true →
    t.dropped.net = t.acquired ∨ Settled env lim callbacks maxResponseSize q t t.dropped.net

/-- **The condition on a step.**  `execute` of a query that may change the schema reads
an orderly response, and `next_block` is called at a packet boundary. -/
def Careful (t : Task) : Action → Prop
  | .read _ => q.path = .call .execute → queryMayChangeSchema q.text = true →
      (Terminal.execute (T := T)).Orderly env lim callbacks maxResponseSize t.began
  | .next => t.done = false → ∃ s₀ bs, q.request.send t.acquired = (.ok (), s₀) ∧
      BlockStream.Yields env lim callbacks s₀ bs t.slot.net
  | _ => True

/-- What is known of a query at each stage. -/
def Known (t : Task) : Prop :=
  match t.stage with
  | .acquired => t.slot = { net := t.acquired }
  | .sending => t.slot.inFlight = true ∧ t.began = t.acquired
  | .reading => t.slot.inFlight = true ∧ q.request.send t.acquired = (.ok (), t.began)
  | .clearingCache => Settled env lim callbacks maxResponseSize q t t.slot.net
  | .streaming => q.path = .beginSelect ∧
      (t.slot.inFlight = true ∨ t.done = true ∧
        (t.slot.held = false ∨ Settled env lim callbacks maxResponseSize q t t.slot.net))
  | .inNextBlock => q.path = .beginSelect ∧ t.slot.inFlight = true ∧
      ∃ s₀ bs, q.request.send t.acquired = (.ok (), s₀) ∧
        BlockStream.Yields env lim callbacks s₀ bs t.began
  | .closing => q.path = .beginSelect ∧ t.done = true ∧ t.slot.inFlight = true
  | .inserting | .ending => t.active = true
  | .finished => True

end

section

variable {T : Type} {env : Env} {lim : Limits} {callbacks : QueryCallbacks} {maxResponseSize : Nat}
  {q : Query T} {t t' : Task}

theorem drop_held {g : Guard} (h : g.drop.held = true) :
    g.held = true ∧ g.inFlight = false ∧ g.drop = g := by
  unfold Guard.drop at h ⊢
  by_cases hmark : g.inFlight = true
  · rw [if_pos hmark] at h
    cases h
  · rw [if_neg hmark] at h ⊢
    exact ⟨h, Bool.eq_false_iff.mpr hmark, rfl⟩

theorem Known.safe (h : Known env lim callbacks maxResponseSize q t) (hstage : t.stage ≠ .finished) :
    Safe env lim callbacks maxResponseSize q t := by
  intro hheld
  have hmarked : t.slot.inFlight = true → ¬ t.slot.drop.held = true := by
    intro hmark hdrop
    rw [(drop_held hdrop).2.1] at hmark
    cases hmark
  have htaken : ∀ g : Guard, ¬ ({ g with held := false } : Guard).drop.held = true := by
    intro g hdrop
    exact absurd (drop_held hdrop).1 Bool.false_ne_true
  -- a stream that is not latched takes the connection with it
  have hstream : ∀ {P : Prop}, (t.done = true → t.slot.drop.held = true → P) →
      (if t.done then t.slot.drop else { t.slot with held := false }.drop).held = true → P := by
    intro P hP hdrop
    split at hdrop
    · next hdone => exact hP hdone hdrop
    · exact absurd hdrop (htaken _)
  unfold Known at h
  unfold dropped at hheld ⊢
  cases hat : t.stage with
  | acquired =>
    rw [hat] at h
    rw [h]
    exact .inl rfl
  | sending | reading =>
    rw [hat] at h hheld
    exact absurd hheld (hmarked h.1)
  | clearingCache =>
    rw [hat] at h hheld
    rw [(drop_held hheld).2.2]
    exact .inr h
  | streaming =>
    rw [hat] at h hheld
    obtain ⟨_, hmark | ⟨hdone, hgone | hsettled⟩⟩ := h
    · exact hstream (fun _ hdrop => absurd hdrop (hmarked hmark)) hheld
    · rw [if_pos hdone] at hheld
      rw [(drop_held hheld).1] at hgone
      cases hgone
    rw [if_pos hdone] at hheld ⊢
    rw [(drop_held hheld).2.2]
    exact .inr hsettled
  | inNextBlock =>
    rw [hat] at h hheld
    exact hstream (fun _ hdrop => absurd hdrop (hmarked h.2.1)) hheld
  | closing =>
    rw [hat] at h hheld
    exact hstream (fun _ hdrop => absurd hdrop (hmarked h.2.2)) hheld
  | inserting | ending =>
    rw [hat] at h hheld
    rw [if_pos h] at hheld
    exact absurd hheld (htaken _)
  | finished => exact absurd hat hstage

theorem known_finish (slot : Guard) : Known env lim callbacks maxResponseSize q (t.finish slot) :=
  trivial

theorem reaches_known (h : Known env lim callbacks maxResponseSize q t) (hwire : t.onWire = true)
    (net : Net) : Known env lim callbacks maxResponseSize q (t.reaches net) := by
  obtain ⟨slot, stage, acquired, began, done, active⟩ := t
  cases stage with
  | sending | reading | inNextBlock | closing | inserting | ending => exact h
  | acquired | clearingCache | streaming | finished => exact absurd hwire Bool.false_ne_true

theorem afterSend_known {net : Net} (hmark : t.slot.inFlight = true)
    (hsend : q.request.send t.acquired = (.ok (), net)) :
    Known env lim callbacks maxResponseSize q (afterSend q t net) := by
  unfold afterSend
  cases hpath : q.path with
  | call term => exact ⟨hmark, hsend⟩
  | rows | batch => exact known_finish _
  | beginSelect => exact ⟨hpath, .inl hmark⟩

theorem afterRead_known {term : Terminal T} {result : Result Unit} {net : Net} {fuel : Nat}
    (hpath : q.path = .call term) (hsend : q.request.send t.acquired = (.ok (), t.began))
    (horderly : q.path = .call .execute → queryMayChangeSchema q.text = true →
      (Terminal.execute (T := T)).Orderly env lim callbacks maxResponseSize t.began)
    (hread : result = .ok () →
      term.response env lim callbacks maxResponseSize fuel t.began = (.ok (), net)) :
    Known env lim callbacks maxResponseSize q (afterRead q term t result net) := by
  unfold afterRead
  split
  · exact rfl
  · split
    · next hschema =>
      -- the response is orderly, so it has been read through
      have hthrough : (Terminal.execute (T := T)).ReadThrough env lim callbacks maxResponseSize
          t.began net :=
        (response_through .execute (hread rfl) trivial nofun).mpr (horderly hpath hschema)
      refine ⟨t.began, hsend, ?_⟩
      unfold Answered
      rw [hpath]
      exact hthrough
    · exact known_finish _
  · exact known_finish _

/-- **One step.** -/
theorem step_known {act : Action} (h : Known env lim callbacks maxResponseSize q t)
    (hcareful : Careful env lim callbacks maxResponseSize q t act)
    (hstep : step env lim callbacks maxResponseSize q t act = some t') :
    Known env lim callbacks maxResponseSize q t' := by
  cases act with
  | begins =>
    obtain ⟨hat, rfl⟩ := of_guard hstep
    unfold Known at h
    rw [hat] at h
    refine ⟨rfl, ?_⟩
    rw [h]
  | progress taken written =>
    obtain ⟨hwire, rfl⟩ := of_guard hstep
    exact reaches_known h hwire _
  | sent =>
    obtain ⟨hat, hstep⟩ := of_guard_then hstep
    unfold Known at h
    rw [hat] at h
    obtain ⟨hmark, hbegan⟩ := h
    split at hstep
    · next net hsend =>
      cases hstep
      rw [hbegan] at hsend
      exact afterSend_known hmark hsend
    · split at hstep <;> cases hstep <;> exact known_finish _
    · cases hstep
  | read fuel =>
    rw [step] at hstep
    split at hstep
    · next term hat hpath =>
      unfold Known at h
      rw [hat] at h
      obtain ⟨_, hsend⟩ := h
      split at hstep <;> cases hstep
      · next net hread =>
          exact afterRead_known hpath hsend hcareful fun _ => hread
      · exact @afterRead_known T env lim callbacks maxResponseSize q t term _ _ fuel hpath hsend
          hcareful nofun
    · cases hstep
  | cleared =>
    obtain ⟨-, rfl⟩ := of_guard hstep
    exact known_finish _
  | next =>
    obtain ⟨hat, rfl⟩ := of_guard hstep
    split
    · exact h
    · next hdone =>
      have hopen : t.done = false := Bool.eq_false_iff.mpr hdone
      unfold Known at h
      rw [hat] at h
      obtain ⟨hpath, hmark | ⟨hlatched, _⟩⟩ := h
      · exact ⟨hpath, hmark, hcareful hopen⟩
      · exact absurd hlatched hdone
  | returned fuel =>
    obtain ⟨hat, hstep⟩ := of_guard_then hstep
    unfold Known at h
    rw [hat] at h
    obtain ⟨hpath, hmark, s₀, bs, hsend, hyields⟩ := h
    split at hstep <;> cases hstep
    next res s hres hcall =>
      refine ⟨hpath, ?_⟩
      obtain hmark' | ⟨hdone, hended⟩ :=
        BlockStream.nextBlock_answered hyields hmark hcall hres
      · exact .inl hmark'
      refine .inr ⟨hdone, .inr ⟨s₀, hsend, ?_⟩⟩
      unfold Answered
      rw [hpath]
      exact hended
  | expired =>
    obtain ⟨hat, rfl⟩ := of_guard hstep
    unfold Known at h
    rw [hat] at h
    exact ⟨h.1, rfl, h.2.1⟩
  | forgotten =>
    obtain ⟨hat, rfl⟩ := of_guard hstep
    unfold Known at h
    obtain hat | hat := hat
    · rw [hat] at h
      exact ⟨h.1, .inl h.2.1⟩
    · rw [hat] at h
      exact ⟨h.1, .inl h.2.2⟩
  | cancel =>
    obtain ⟨hat, rfl⟩ := of_guard hstep
    unfold Known at h
    rw [hat.1] at h
    obtain ⟨hpath, hmark | ⟨hlatched, _⟩⟩ := h
    · exact ⟨hpath, rfl, hmark⟩
    · rw [hat.2] at hlatched
      cases hlatched
  | closed =>
    obtain ⟨hat, rfl⟩ := of_guard hstep
    unfold Known at h
    rw [hat] at h
    exact ⟨h.1, .inr ⟨h.2.1, .inl rfl⟩⟩
  | ends =>
    obtain ⟨hat, rfl⟩ := of_guard hstep
    unfold Known at h
    rw [hat] at h
    exact h
  | ended written fuel =>
    unfold step at hstep
    obtain ⟨-, hstep⟩ := of_guard_then hstep
    split at hstep
    · cases hstep
      exact known_finish _
    · split at hstep <;> cases hstep <;> exact known_finish _

/-- **A query dropped at any await.**  After any run of careful steps from the acquired
connection, as long as the query has its guard, dropping it leaves the slot empty or
without a request whose response is unread. -/
theorem dropped_safe {net : Net} {acts : List Action}
    (hrun : Run (step env lim callbacks maxResponseSize q)
      (Careful env lim callbacks maxResponseSize q) (start net) acts t)
    (hstage : t.stage ≠ .finished) : Safe env lim callbacks maxResponseSize q t := by
  have hknown : Known env lim callbacks maxResponseSize q t :=
    hrun.invariant (I := Known env lim callbacks maxResponseSize q)
      (fun _ _ _ h hcareful hstep => step_known h hcareful hstep) rfl
  exact hknown.safe hstage

/-- `execute` of a query that may change the schema. -/
def alter : Query Unit := ⟨.call .execute, "ALTER TABLE t ADD COLUMN c UInt8".toList, plainRequest⟩

/-- A Data block with a column of type `UInt8` whose name is not UTF-8, and EndOfStream.
The length of the type name stands where the next packet type would. -/
def badName : Net := { incoming := [1, 0, 0, 1, 1, 1, 0xFF, 5, 85, 73, 110, 116, 56, 0, 7, 5] }

theorem badName_undecodable :
    ((drainWalk plainEnv ⟨false, false⟩).body 1 ()
      { badName with incoming := badName.incoming.tail, sent := [[1]] }).1
    = .error (.error (.text "utf8: invalid utf-8 sequence of 1 bytes from index 0")) := by
  decide +kernel

/-- `execute` waiting for the schema cache after it. -/
def alterClearing : Task where
  slot := { net := { incoming := [85, 73, 110, 116, 56, 0, 7, 5], sent := [[1]] } }
  stage := .clearingCache
  acquired := badName
  began := { badName with sent := [[1]] }

/-- `drain_response` drops the error of the Data block and takes the length of the type
name for EndOfStream; `execute` then waits for the schema cache with the mark cleared.
Dropped there, it leaves a connection with the rest of the response unread. -/
theorem alter_dropped :
    exec (step plainEnv ⟨false, false⟩ {} 1000 alter) (start badName) [.begins, .sent, .read 3]
        = some alterClearing ∧ alterClearing.dropped.held = true ∧
      alterClearing.dropped.net.incoming = [85, 73, 110, 116, 56, 0, 7, 5] ∧
      ¬ Safe plainEnv ⟨false, false⟩ {} 1000 alter alterClearing := by
  refine ⟨by decide +kernel, rfl, rfl, ?_⟩
  intro hsafe
  obtain hsame | ⟨s₀, hsend, hthrough⟩ := hsafe rfl
  · exact absurd (congrArg (·.incoming.length) hsame) (by decide)
  cases hsend
  have hthrough' : (drainWalk plainEnv ⟨false, false⟩).ReadThrough ()
      { badName with sent := [[1]] } alterClearing.slot.net := hthrough
  have hheader : (drainWalk plainEnv ⟨false, false⟩).header { badName with sent := [[1]] }
      = (.ok 1, { badName with incoming := badName.incoming.tail, sent := [[1]] }) := by
    decide +kernel
  have hdecodes := ((hthrough'.orderly _ _ (.refl _ _)).2.2 1 _ hheader (by decide) (by decide)).2
  exact hdecodes rfl (.text "utf8: invalid utf-8 sequence of 1 bytes from index 0")
    badName_undecodable

/-- On a response without packets it may be dropped. -/
theorem dropped_safe_alter :
    ∃ t, Run (step plainEnv ⟨false, false⟩ {} 1000 alter)
        (Careful plainEnv ⟨false, false⟩ {} 1000 alter) (start { incoming := [5] })
        [.begins, .sent, .read 1] t ∧ t.stage ≠ .finished ∧
      Safe plainEnv ⟨false, false⟩ {} 1000 alter t := by
  have hthrough : (drainWalk plainEnv ⟨false, false⟩).ReadThrough ()
      { incoming := [5], sent := [[1]] } { incoming := [], sent := [[1]] } :=
    ⟨_, _, .refl _ _, .inl rfl⟩
  have hrun : ∃ t, Run (step plainEnv ⟨false, false⟩ {} 1000 alter)
      (Careful plainEnv ⟨false, false⟩ {} 1000 alter) (start { incoming := [5] })
      [.begins, .sent, .read 1] t ∧ t.stage = .clearingCache :=
    ⟨_, .cons trivial rfl (.cons trivial rfl (.cons (fun _ _ => hthrough.orderly) rfl (.nil _))), rfl⟩
  obtain ⟨t, hrun, hat⟩ := hrun
  have hstage : t.stage ≠ .finished := by
    rw [hat]
    decide
  exact ⟨t, hrun, hstage, dropped_safe hrun hstage⟩

end

end Task

end StClickHouse
