/-
  StClickHouse.Python.Forwarder
  **A STREAMED RESPONSE ON ITS WAY TO AN ASYNC GENERATOR.**

  `PyQueryStream::start` spawns a reader thread that sends what it reads through a
  channel; `AsyncClient.query_stream` spawns a forwarder thread that takes the blocks off
  the channel and submits one `queue.put` after the other to the event loop; the generator
  gets them off the queue and yields them.  The forwarder waits 100 ms for a submitted put
  and then submits the block again, and the first put stays where it is.

  What the native stream gives is a sequence of results of `read_next_block`.  The
  forwarder's loop leaves at the first result that is not a block, the reader's does not.
-/
import StClickHouse.Lib.Runs

namespace StClickHouse.Python

open List

variable {β E : Type}

/-! ## §1. The threads, the queue and the generator. -/

/-- What goes over the queue: a block, or `_SENTINEL`. -/
inductive Message (β : Type) where
  | block (b : β)
  | sentinel
deriving DecidableEq, Repr

/-- The task of a submitted `queue.put`: not run yet (or woken), or waiting for room. -/
inductive Place where
  | scheduled
  | parked
deriving DecidableEq, Repr

/-- A submitted `queue.put` that has not put its message yet. -/
structure Put (β : Type) where
  id : Nat
  message : Message β
  place : Place
deriving DecidableEq, Repr

/-- The reader thread: in `read_next_block`, or in `tx.send`. -/
inductive ReaderThread (β E : Type) where
  | reading
  | sending (item : Except E (Option β))

/-- The forwarder thread: at `next(stream)`, before a submission, at `fut.result`, and
    the same for the end of the stream. -/
inductive ForwarderThread (β : Type) where
  | receiving
  | trying (b : β)
  | waiting (b : β) (id : Nat)
  | signalling
  | signalled
  | released
deriving DecidableEq, Repr

/-- The generator: at `queue.get`, at `yield`, closed by its user, or at its end with the
    exception it raised. -/
inductive Generator (E : Type) where
  | awaiting
  | yielding
  | closed
  | ended (raised : Option E)
deriving DecidableEq, Repr

structure AsyncStream (β E : Type) where
  /-- How often `read_next_block` has returned. -/
  position : Nat
  reader : ReaderThread β E
  channel : List (Except E (Option β))
  forwarder : ForwarderThread β
  forwarderExc : Option E
  cancelEvent : Bool
  nextId : Nat
  pending : List (Put β)
  /-- Puts that have put their message and whose future is not set yet. -/
  ran : List Nat
  completed : List Nat
  queue : List (Message β)
  generator : Generator E
  yielded : List β

/-- Both the channel and the queue hold this many items. -/
def capacity : Nat := 32

/-- After the threads have been started. -/
def AsyncStream.start : AsyncStream β E where
  position := 0
  reader := .reading
  channel := []
  forwarder := .receiving
  forwarderExc := none
  cancelEvent := false
  nextId := 0
  pending := []
  ran := []
  completed := []
  queue := []
  generator := .awaiting
  yielded := []

inductive StreamAction where
  | read
  | send
  | receive
  | submit
  | confirm
  | retry
  | signal
  | release
  | runPut (id : Nat)
  | report (id : Nat)
  | get
  | resume
  | abandon
deriving DecidableEq, Repr

/-- `Queue._wakeup_next`: the first waiting put is scheduled again. -/
def wakeupNext : List (Put β) → List (Put β)
  | [] => []
  | p :: ps =>
    match p.place with
    | .parked => { p with place := .scheduled } :: ps
    | .scheduled => p :: wakeupNext ps

/-- The put with this number. -/
def findPut (id : Nat) (ps : List (Put β)) : Option (Put β) :=
  ps.find? fun p => p.id == id

/-- The other puts. -/
def removePut (id : Nat) (ps : List (Put β)) : List (Put β) :=
  ps.filter fun p => p.id != id

namespace AsyncStream

variable (reads : Nat → Except E (Option β)) (rowCount : β → Nat) (s : AsyncStream β E)

/-- `run_coroutine_threadsafe(queue.put(message), loop)`. -/
def submitPut (message : Message β) (next : ForwarderThread β) : AsyncStream β E :=
  { s with
    forwarder := next
    nextId := s.nextId + 1
    pending := s.pending ++ [⟨s.nextId, message, .scheduled⟩] }

/-- One turn of the reader's loop up to `tx.send`; a block without rows is not sent. -/
def readNext : AsyncStream β E :=
  match reads s.position with
  | .ok (some b) =>
    if rowCount b = 0 then { s with position := s.position + 1 }
    else { s with position := s.position + 1, reader := .sending (.ok (some b)) }
  | item => { s with position := s.position + 1, reader := .sending item }

/-- What the forwarder does with an item of the channel. -/
def received (rest : List (Except E (Option β))) : Except E (Option β) → AsyncStream β E
  | .ok (some b) =>
    if s.cancelEvent then { s with channel := rest, forwarder := .signalling }
    else { s with channel := rest, forwarder := .trying b }
  | .ok none => { s with channel := rest, forwarder := .signalling }
  | .error e =>
    { s with channel := rest, forwarder := .signalling, forwarderExc := some e }

/-- What the generator does with a message of the queue. -/
def got (rest : List (Message β)) : Message β → AsyncStream β E
  | .block b =>
    { s with
      queue := rest
      pending := wakeupNext s.pending
      generator := .yielding
      yielded := s.yielded ++ [b] }
  | .sentinel =>
    { s with
      queue := rest
      pending := wakeupNext s.pending
      generator := .ended s.forwarderExc
      cancelEvent := true }

/-- One turn of a put's task: `while self.full(): await putter`, then `put_nowait`. -/
def putTask (p : Put β) : AsyncStream β E :=
  if s.queue.length < capacity then
    { s with
      pending := removePut p.id s.pending
      ran := p.id :: s.ran
      queue := s.queue ++ [p.message] }
  else { s with pending := removePut p.id s.pending ++ [⟨p.id, p.message, .parked⟩] }

def step : StreamAction → Option (AsyncStream β E)
  | .read =>
    match s.reader with
    | .reading => some (readNext reads rowCount s)
    | .sending _ => none
  | .send =>
    match s.reader with
    | .reading => none
    | .sending item =>
      if s.channel.length < capacity then
        some { s with reader := .reading, channel := s.channel ++ [item] }
      else none
  | .receive =>
    match s.forwarder, s.channel with
    | .receiving, item :: rest => some (s.received rest item)
    | _, _ => none
  | .submit =>
    match s.forwarder with
    | .trying b =>
      if s.cancelEvent then some { s with forwarder := .signalling }
      else some (s.submitPut (.block b) (.waiting b s.nextId))
    | _ => none
  | .confirm =>
    match s.forwarder with
    | .waiting _ id =>
      if id ∈ s.completed then some { s with forwarder := .receiving } else none
    | _ => none
  -- The future is not cancelled: its put stays submitted.
  | .retry =>
    match s.forwarder with
    | .waiting b id =>
      if id ∈ s.completed then none else some { s with forwarder := .trying b }
    | _ => none
  | .signal =>
    match s.forwarder with
    | .signalling => some (s.submitPut .sentinel .signalled)
    | _ => none
  -- After the put of the sentinel, or after five seconds.
  | .release =>
    match s.forwarder with
    | .signalled => some { s with forwarder := .released }
    | _ => none
  | .runPut id =>
    match findPut id s.pending with
    | some p =>
      match p.place with
      | .scheduled => some (s.putTask p)
      | .parked => none
    | none => none
  | .report id =>
    if id ∈ s.ran then
      some { s with ran := s.ran.filter (· != id), completed := id :: s.completed }
    else none
  | .get =>
    match s.generator, s.queue with
    | .awaiting, message :: rest => some (s.got rest message)
    | _, _ => none
  | .resume =>
    match s.generator with
    | .yielding => some { s with generator := .awaiting }
    | _ => none
  -- `break`, cancellation and collection close the generator.
  | .abandon =>
    match s.generator with
    | .awaiting | .yielding => some { s with generator := .closed, cancelEvent := true }
    | _ => none

/-- What one step does, and when. -/
inductive Moves (s : AsyncStream β E) : StreamAction → AsyncStream β E → Prop
  | read (h : s.reader = .reading) : Moves s .read (readNext reads rowCount s)
  | send (item : Except E (Option β)) (h : s.reader = .sending item)
      (hroom : s.channel.length < capacity) :
      Moves s .send { s with reader := .reading, channel := s.channel ++ [item] }
  | receive (item : Except E (Option β)) (rest : List (Except E (Option β)))
      (hf : s.forwarder = .receiving) (hc : s.channel = item :: rest) :
      Moves s .receive (s.received rest item)
  | submit (b : β) (hf : s.forwarder = .trying b) (hcancel : s.cancelEvent = false) :
      Moves s .submit (s.submitPut (.block b) (.waiting b s.nextId))
  | giveUp (b : β) (hf : s.forwarder = .trying b) (hcancel : s.cancelEvent = true) :
      Moves s .submit { s with forwarder := .signalling }
  | confirm (b : β) (id : Nat) (hf : s.forwarder = .waiting b id) (hid : id ∈ s.completed) :
      Moves s .confirm { s with forwarder := .receiving }
  | retry (b : β) (id : Nat) (hf : s.forwarder = .waiting b id) (hid : id ∉ s.completed) :
      Moves s .retry { s with forwarder := .trying b }
  | signal (hf : s.forwarder = .signalling) : Moves s .signal (s.submitPut .sentinel .signalled)
  | release (hf : s.forwarder = .signalled) : Moves s .release { s with forwarder := .released }
  | runPut (p : Put β) (id : Nat) (hp : p ∈ s.pending) (hplace : p.place = .scheduled) :
      Moves s (.runPut id) (s.putTask p)
  | report (id : Nat) (hid : id ∈ s.ran) :
      Moves s (.report id)
        { s with ran := s.ran.filter (· != id), completed := id :: s.completed }
  | get (m : Message β) (rest : List (Message β)) (hg : s.generator = .awaiting)
      (hq : s.queue = m :: rest) : Moves s .get (s.got rest m)
  | resume (hg : s.generator = .yielding) : Moves s .resume { s with generator := .awaiting }
  | abandon (hg : s.generator = .awaiting ∨ s.generator = .yielding) :
      Moves s .abandon { s with generator := .closed, cancelEvent := true }

variable {reads rowCount} in
theorem moves_of_step {s s' : AsyncStream β E} {a : StreamAction}
    (hstep : s.step reads rowCount a = some s') : Moves reads rowCount s a s' := by
  cases a <;> simp only [step] at hstep
  case read =>
    split at hstep <;> cases hstep
    next hreader =>
      exact .read hreader
  case send =>
    split at hstep
    · cases hstep
    · next item hreader =>
      split at hstep <;> cases hstep
      next hroom =>
        exact .send item hreader hroom
  case receive =>
    split at hstep <;> cases hstep
    next item rest hf hc =>
      exact .receive item rest hf hc
  case submit =>
    split at hstep
    · next b hf =>
      split at hstep <;> cases hstep
      · next hcancel =>
          exact .giveUp b hf hcancel
      · next hcancel =>
          exact .submit b hf (Bool.eq_false_iff.mpr hcancel)
    · cases hstep
  case confirm =>
    split at hstep
    · next b id hf =>
      split at hstep <;> cases hstep
      next hid =>
        exact .confirm b id hf hid
    · cases hstep
  case retry =>
    split at hstep
    · next b id hf =>
      split at hstep <;> cases hstep
      next hid =>
        exact .retry b id hf hid
    · cases hstep
  case signal =>
    split at hstep <;> cases hstep
    next hf =>
      exact .signal hf
  case release =>
    split at hstep <;> cases hstep
    next hf =>
      exact .release hf
  case runPut id =>
    split at hstep
    · next p hfind =>
      split at hstep <;> cases hstep
      next hplace =>
        exact .runPut p id (mem_of_find?_eq_some hfind) hplace
    · cases hstep
  case report id =>
    split at hstep <;> cases hstep
    next hid =>
      exact .report id hid
  case get =>
    split at hstep <;> cases hstep
    next m rest hg hq =>
      exact .get m rest hg hq
  case resume =>
    split at hstep <;> cases hstep
    next hg =>
      exact .resume hg
  case abandon =>
    split at hstep <;> cases hstep
    · next hg =>
        exact .abandon (.inl hg)
    · next hg =>
        exact .abandon (.inr hg)

end AsyncStream

/-! ## §2. What the native stream yields. -/

section Native

variable (reads : Nat → Except E (Option β)) (rowCount : β → Nat)

/-- The result of `read_next_block` that is a block. -/
def asRead (b : β) : Except E (Option β) := .ok (some b)

/-- The native stream is finite: result `n` is the first that is not a block. -/
structure EndsAt (n : Nat) : Prop where
  blocks : ∀ k < n, ∃ b, reads k = asRead b
  last : ∀ b, reads n ≠ asRead b

/-- What the reader sends of one result. -/
def kept : Except E (Option β) → List (Except E (Option β))
  | .ok (some b) => if rowCount b = 0 then [] else [asRead b]
  | item => [item]

/-- What the reader sends of the first results. -/
def sent : Nat → List (Except E (Option β))
  | 0 => []
  | n + 1 => sent n ++ kept rowCount (reads n)

/-- The blocks with rows among the first results. -/
def nativeBlocks : Nat → List β
  | 0 => []
  | n + 1 =>
    nativeBlocks n ++
      match reads n with
      | .ok (some b) => if rowCount b = 0 then [] else [b]
      | _ => []

/-- The exception a result raises. -/
def raisedBy : Except E (Option β) → Option E
  | .error e => some e
  | .ok _ => none

theorem asRead_inj {b c : β} (h : (asRead b : Except E (Option β)) = asRead c) : b = c := by
  simpa [asRead] using h

variable {t : Except E (Option β)}

theorem kept_last (h : ∀ b, t ≠ asRead b) : kept rowCount t = [t] := by
  match t with
  | .ok (some b) => exact absurd rfl (h b)
  | .ok none => rfl
  | .error e => rfl

variable {reads rowCount}

variable {n : Nat}

theorem sent_blocks (hends : EndsAt reads n) {k : Nat} :
    k ≤ n → sent reads rowCount k = (nativeBlocks reads rowCount k).map asRead := by
  induction k with
  | zero =>
    intro _
    rfl
  | succ k ih =>
    intro hk
    obtain ⟨b, hb⟩ := hends.blocks k (by omega)
    simp only [sent, nativeBlocks, ih (by omega), map_append, hb, asRead, kept]
    by_cases hrows : rowCount b = 0
    · simp only [hrows, if_true, map_nil]
    · simp only [hrows, if_false, map_cons, map_nil, asRead]

theorem sent_past {n : Nat} (hends : EndsAt reads n) {p : Nat} :
    n < p → ∃ rest,
      sent reads rowCount p = (nativeBlocks reads rowCount n).map asRead ++ reads n :: rest := by
  induction p with
  | zero =>
    intro hn
    exact absurd hn (Nat.not_lt_zero _)
  | succ p ih =>
    intro hn
    by_cases hp : n < p
    · obtain ⟨rest, hrest⟩ := ih hp
      refine ⟨rest ++ kept rowCount (reads p), ?_⟩
      simp only [sent, hrest, append_assoc, cons_append]
    obtain rfl : p = n := by omega
    refine ⟨[], ?_⟩
    simp only [sent, sent_blocks hends le_rfl, kept_last rowCount hends.last]

theorem nativeBlocks_starts :
    ∀ {k : Nat}, k ≤ n → nativeBlocks reads rowCount k <+: nativeBlocks reads rowCount n := by
  intro k hk
  induction n, hk using Nat.le_induction with
  | base => exact prefix_refl _
  | succ n _ ih => exact ih.trans (prefix_append _ _)

variable {bs : List β}

/-- Blocks in front of an end: they are in front of every later end too. -/
theorem map_asRead_starts (ht : ∀ b, t ≠ asRead b) {as : List β}
    {xs ys : List (Except E (Option β))} :
    as.map asRead ++ xs = bs.map asRead ++ t :: ys → as <+: bs := by
  induction as generalizing bs xs ys with
  | nil =>
    intro _
    exact nil_prefix
  | cons a as ih =>
    intro h
    rcases bs with _ | ⟨b, bs⟩
    · simp only [map_cons, cons_append, map_nil, nil_append,
        List.cons.injEq] at h
      exact absurd h.1.symm (ht a)
    simp only [map_cons, cons_append, List.cons.injEq] at h
    rw [asRead_inj h.1]
    exact prefix_cons_inj _ |>.mpr (ih h.2)

theorem map_asRead_end {u : Except E (Option β)} (ht : ∀ b, t ≠ asRead b) (hu : ∀ b, u ≠ asRead b)
    {as : List β} {xs ys : List (Except E (Option β))}
    (h : as.map asRead ++ t :: xs = bs.map asRead ++ u :: ys) : as = bs ∧ t = u := by
  have hab := map_asRead_starts hu h
  have hba := map_asRead_starts ht h.symm
  obtain rfl := hab.eq_of_length (le_antisymm hab.length_le hba.length_le)
  have hrest := append_cancel_left h
  exact ⟨rfl, (List.cons.inj hrest).1⟩

variable {rest : List (Except E (Option β))}

/-- **Blocks that were read in a row are blocks of the native stream.** -/
theorem sent_starts {p : Nat} (hends : EndsAt reads n)
    (h : bs.map asRead ++ rest = sent reads rowCount p) :
    bs <+: nativeBlocks reads rowCount n := by
  by_cases hp : n < p
  · obtain ⟨rest', hrest'⟩ := @sent_past _ _ reads rowCount n hends p hp
    exact map_asRead_starts hends.last (h.trans hrest')
  have hpn : p ≤ n := by omega
  rw [sent_blocks hends hpn] at h
  have hlong : bs.map asRead <+: (nativeBlocks reads rowCount p).map
      (asRead : β → Except E (Option β)) := ⟨rest, h⟩
  have hshort := hlong.filterMap fun item : Except E (Option β) =>
    match item with
    | .ok (some b) => some b
    | _ => none
  simp only [filterMap_map, Function.comp_def, asRead, filterMap_some] at hshort
  exact hshort.trans (nativeBlocks_starts hpn)

/-- **The first end that was read is the end of the native stream.** -/
theorem sent_end {p : Nat} (hends : EndsAt reads n) (ht : ∀ b, t ≠ asRead b)
    (h : bs.map asRead ++ t :: rest = sent reads rowCount p) :
    bs = nativeBlocks reads rowCount n ∧ t = reads n := by
  by_cases hp : n < p
  · obtain ⟨rest', hrest'⟩ := @sent_past _ _ reads rowCount n hends p hp
    exact map_asRead_end ht hends.last (h.trans hrest')
  rw [sent_blocks hends (by omega)] at h
  have hmem : t ∈ (nativeBlocks reads rowCount p).map asRead := by
    rw [← h]
    exact mem_append_right _ mem_cons_self
  obtain ⟨b, _, hb⟩ := mem_map.mp hmem
  exact absurd hb.symm (ht b)

end Native

end StClickHouse.Python
