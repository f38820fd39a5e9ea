/-
  StClickHouse.Python.InOrder
  **WHAT IS ON ITS WAY STANDS IN THE ORDER IN WHICH IT WAS READ.**

  What the generator has yielded, the queue, the put that is submitted, what the forwarder
  holds, the channel and what the reader holds: one after the other they are what the
  reader has read.  There is one put at a time, as long as none is submitted twice.
-/
import StClickHouse.Python.Forwarder

namespace StClickHouse.Python

open List

variable {β E : Type}

/-! ## §1. What is on its way. -/

/-- What the reader has read and not sent. -/
def ReaderThread.toSend : ReaderThread β E → List (Except E (Option β))
  | .reading => []
  | .sending item => [item]

/-- What the forwarder has received and not submitted. -/
def ForwarderThread.held : ForwarderThread β → List (Message β)
  | .trying b => [.block b]
  | .signalling => [.sentinel]
  | _ => []

/-- The forwarder's loop is over. -/
def ForwarderThread.late : ForwarderThread β → Bool
  | .receiving => false
  | .trying _ => false
  | .waiting _ _ => false
  | _ => true

/-- The end of the stream, once the generator has got it. -/
def Generator.seen : Generator E → List (Message β)
  | .ended _ => [.sentinel]
  | _ => []

/-- The puts that are submitted: the one the forwarder waits for, or the sentinel's. -/
inductive Submitted (ran completed : List Nat) : ForwarderThread β → List (Put β) → Prop
  | none {f : ForwarderThread β} (h : ∀ b id, f ≠ .waiting b id) : Submitted ran completed f []
  | block (b : β) (id : Nat) (place : Place) (hran : id ∉ ran) (hcompleted : id ∉ completed) :
      Submitted ran completed (.waiting b id) [⟨id, .block b, place⟩]
  | put (b : β) (id : Nat) (h : id ∈ ran ∨ id ∈ completed) :
      Submitted ran completed (.waiting b id) []
  | signal (id : Nat) (place : Place) :
      Submitted ran completed .signalled [⟨id, .sentinel, place⟩]
  | released (id : Nat) (place : Place) :
      Submitted ran completed .released [⟨id, .sentinel, place⟩]

/-- The forwarder waits for no put and has submitted no sentinel. -/
def ForwarderThread.between : ForwarderThread β → Bool
  | .receiving => true
  | .trying _ => true
  | .signalling => true
  | _ => false

variable {ran completed : List Nat} {f : ForwarderThread β} {ps : List (Put β)} {p : Put β}

theorem Submitted.eq_nil (h : Submitted ran completed f ps) (hf : f.between = true) : ps = [] := by
  cases h with
  | none _ => rfl
  | block b id place _ _ | signal id place | released id place => exact absurd hf Bool.false_ne_true
  | put b id _ => rfl

theorem Submitted.eq_singleton (h : Submitted ran completed f ps) (hp : p ∈ ps) :
    ps = [p] := by
  cases h <;> simp_all

theorem Submitted.putNowait (h : Submitted ran completed f [p]) :
    Submitted (p.id :: ran) completed f [] := by
  cases h with
  | block b id place _ _ => exact .put b id (.inl mem_cons_self)
  | signal id place | released id place => exact .none (by intro b i h; cases h)

/-- The put of a submitted message starts or stops to wait for room. -/
theorem Submitted.moved (h : Submitted ran completed f [p]) (place : Place) :
    Submitted ran completed f [⟨p.id, p.message, place⟩] := by
  cases h with
  | block b id _ hran hcompleted => exact .block b id place hran hcompleted
  | signal id _ => exact .signal id place
  | released id _ => exact .released id place

variable {id : Nat}

theorem Submitted.report (h : Submitted ran completed f ps) (hid : id ∈ ran) :
    Submitted (ran.filter (· != id)) (id :: completed) f ps := by
  cases h with
  | none h => exact .none h
  | block b i place hran hcompleted =>
    refine .block b i place ?_ ?_
    · intro hi
      exact hran (mem_filter.mp hi).1
    intro hi
    obtain rfl | hi := mem_cons.mp hi
    · exact hran hid
    · exact hcompleted hi
  | put b i hi =>
    refine .put b i ?_
    by_cases heq : i = id
    · exact .inr (heq ▸ mem_cons_self)
    obtain hi | hi := hi
    · exact .inl (mem_filter.mpr ⟨hi, by simpa using heq⟩)
    · exact .inr (mem_cons_of_mem _ hi)
  | signal i place => exact .signal i place
  | released i place => exact .released i place

theorem Submitted.wakeupNext (h : Submitted ran completed f ps) :
    Submitted ran completed f (StClickHouse.Python.wakeupNext ps) ∧
      ∀ p ∈ StClickHouse.Python.wakeupNext ps, p.place = .scheduled := by
  match ps with
  | [] => exact ⟨h, by simp [StClickHouse.Python.wakeupNext]⟩
  | [p] =>
    simp only [StClickHouse.Python.wakeupNext]
    split
    · next hplace => exact ⟨h.moved .scheduled, by simp⟩
    · next hplace => exact ⟨h, by simp [hplace]⟩
  | p :: q :: ps =>
    have hone := h.eq_singleton mem_cons_self
    simp at hone

/-- The result behind a message, given the result the stream ends with. -/
def Message.item (t : Except E (Option β)) : Message β → Except E (Option β)
  | .block b => asRead b
  | .sentinel => t

namespace AsyncStream

variable (reads : Nat → Except E (Option β)) (rowCount : β → Nat) (s : AsyncStream β E)

/-- All messages past the channel, oldest first. -/
def messages : List (Message β) :=
  s.yielded.map .block ++ (s.generator.seen ++ (s.queue ++
    (s.pending.map (·.message) ++ s.forwarder.held)))

/-- With `t` for the end, what is on its way is what has been read, in that order. -/
structure InLine (s : AsyncStream β E) (t : Except E (Option β)) : Prop where
  last : ∀ b, t ≠ asRead b
  line : s.messages.map (Message.item t) ++ (s.channel ++ s.reader.toSend) =
    sent reads rowCount s.position
  exc : s.forwarder.late = true → s.forwarderExc = raisedBy t
  raised : ∀ e, s.generator = .ended e → e = raisedBy t

structure Sound (s : AsyncStream β E) : Prop where
  line : ∃ t, InLine reads rowCount s t
  early : s.forwarder.late = false →
    Message.sentinel ∉ s.messages ∧ s.cancelEvent = false ∧ s.forwarderExc = none
  late : s.forwarder.late = true → Message.sentinel ∈ s.messages
  puts : Submitted s.ran s.completed s.forwarder s.pending
  parked : ∀ p ∈ s.pending, p.place = .parked → capacity ≤ s.queue.length
  numbered : ∀ id, id ∈ s.ran ∨ id ∈ s.completed ∨ id ∈ s.pending.map (·.id) → id < s.nextId

/-- What the user of a closed generator has got. -/
def Kept : Prop :=
  ∃ rest, s.yielded.map asRead ++ rest = sent reads rowCount s.position

/-- A put is not submitted a second time. -/
def Prompt (_ : AsyncStream β E) (a : StreamAction) : Prop := a ≠ .retry

instance (s : AsyncStream β E) (a : StreamAction) : Decidable (Prompt s a) :=
  inferInstanceAs (Decidable (a ≠ .retry))

theorem wakeupNext_messages (ps : List (Put β)) :
    (wakeupNext ps).map (·.message) = ps.map (·.message) := by
  fun_induction wakeupNext ps with
  | case1 | case2 p ps hplace => rfl
  | case3 p ps hplace ih => simp only [map_cons, ih]

theorem wakeupNext_ids (ps : List (Put β)) :
    (wakeupNext ps).map (·.id) = ps.map (·.id) := by
  fun_induction wakeupNext ps with
  | case1 | case2 p ps hplace => rfl
  | case3 p ps hplace ih => simp only [map_cons, ih]

theorem readNext_toSend (h : s.reader = .reading) :
    (readNext reads rowCount s).reader.toSend = kept rowCount (reads s.position) := by
  unfold readNext
  split
  · next b hread =>
    rw [hread]
    by_cases hrows : rowCount b = 0
    · rw [h]
      simp only [ReaderThread.toSend, kept, hrows, if_true]
    · simp only [ReaderThread.toSend, kept, hrows, if_false, asRead]
  · next item hitem =>
    rw [kept_last rowCount fun b => hitem b]
    rfl

theorem readNext_rest :
    ∃ r, readNext reads rowCount s = { s with position := s.position + 1, reader := r } := by
  unfold readNext
  split
  · split
    · exact ⟨s.reader, rfl⟩
    · exact ⟨_, rfl⟩
  · exact ⟨_, rfl⟩

variable {reads rowCount}

theorem Sound.start : Sound reads rowCount (start : AsyncStream β E) where
  line := by
    refine ⟨.ok none, ?_, rfl, ?_, ?_⟩
    · intro b h
      simp [asRead] at h
    · intro h
      exact absurd h Bool.false_ne_true
    · intro exc h
      cases h
  early := by
    intro _
    exact ⟨by simp [messages, AsyncStream.start, Generator.seen, ForwarderThread.held], rfl, rfl⟩
  late := by
    intro h
    exact absurd h Bool.false_ne_true
  puts := .none (by intro b id h; cases h)
  parked := by
    intro p h
    cases h
  numbered := by
    intro id h
    simp [AsyncStream.start] at h

variable {s : AsyncStream β E} {rest : List (Except E (Option β))} {m : Message β}

/-- As long as the end has not been received, it does not matter what it is. -/
theorem map_item_congr (t u : Except E (Option β)) {ms : List (Message β)}
    (h : Message.sentinel ∉ ms) : ms.map (Message.item t) = ms.map (Message.item u) := by
  apply map_congr_left
  intro m hm
  cases m with
  | block b => rfl
  | sentinel => exact absurd hm h

theorem messages_forwarder (s : AsyncStream β E) (f : ForwarderThread β)
    (channel : List (Except E (Option β))) (exc : Option E) (h : s.forwarder.held = []) :
    messages { s with forwarder := f, channel := channel, forwarderExc := exc } =
      s.messages ++ f.held := by
  simp only [messages, h, append_nil, append_assoc]

/-- What a submission does: the message goes from the forwarder to the puts. -/
theorem messages_submitPut (s : AsyncStream β E) (m : Message β) (next : ForwarderThread β)
    (hheld : s.forwarder.held = [m]) (hnext : next.held = []) (hpending : s.pending = []) :
    (s.submitPut m next).messages = s.messages := by
  simp only [messages, submitPut, hheld, hnext, hpending, nil_append, map_nil,
    map_cons, append_nil]

theorem removePut_self (p : Put β) : removePut p.id [p] = [] := by
  simp [removePut]

theorem messages_putTask {p : Put β} (hpending : s.pending = [p]) :
    (s.putTask p).messages = s.messages := by
  unfold putTask
  split
  · simp only [messages, hpending, removePut_self, map_nil, map_cons, nil_append,
      append_assoc, cons_append]
  · simp only [messages, hpending, removePut_self, map_nil, map_cons, nil_append]

theorem messages_got (hg : s.generator = .awaiting)
    {rest : List (Message β)} (hq : s.queue = m :: rest) :
    (s.got rest m).messages = s.messages := by
  cases m with
  | block b =>
    simp only [got, messages, hg, hq, Generator.seen, wakeupNext_messages, map_append,
      map_cons, map_nil, append_assoc, nil_append, cons_append]
  | sentinel =>
    simp only [got, messages, hg, hq, Generator.seen, wakeupNext_messages, nil_append,
      cons_append]

variable (hs : Sound reads rowCount s)
include hs

theorem Sound.read (h : s.reader = .reading) :
    Sound reads rowCount (readNext reads rowCount s) := by
  have hsend := readNext_toSend reads rowCount s h
  obtain ⟨r, hr⟩ := readNext_rest reads rowCount s
  rw [hr] at hsend ⊢
  obtain ⟨t, ht⟩ := hs.line
  refine ⟨⟨t, ht.last, ?_, ht.exc, ht.raised⟩, hs.early, hs.late, hs.puts, hs.parked, hs.numbered⟩
  have hline := ht.line
  rw [h, ReaderThread.toSend, append_nil] at hline
  show s.messages.map (Message.item t) ++ (s.channel ++ r.toSend) =
    sent reads rowCount s.position ++ kept rowCount (reads s.position)
  rw [← hline, ← hsend, append_assoc]

theorem Sound.send {item : Except E (Option β)} (h : s.reader = .sending item) :
    Sound reads rowCount { s with reader := .reading, channel := s.channel ++ [item] } := by
  obtain ⟨t, ht⟩ := hs.line
  refine ⟨⟨t, ht.last, ?_, ht.exc, ht.raised⟩, hs.early, hs.late, hs.puts, hs.parked, hs.numbered⟩
  have hline := ht.line
  rw [h] at hline
  show s.messages.map (Message.item t) ++ ((s.channel ++ [item]) ++ []) = _
  rw [append_nil]
  exact hline

theorem Sound.receive_block (hf : s.forwarder = .receiving) {b : β}
    (hc : s.channel = .ok (some b) :: rest) :
    Sound reads rowCount { s with channel := rest, forwarder := .trying b } := by
  have hheld : s.forwarder.held = [] := by rw [hf]; rfl
  have hmsgs := messages_forwarder s (.trying b) rest s.forwarderExc hheld
  obtain ⟨hnone, hcancel, hexc⟩ := hs.early (by rw [hf]; rfl)
  have hpending := hs.puts.eq_nil (by rw [hf]; rfl)
  obtain ⟨t, ht⟩ := hs.line
  refine ⟨⟨t, ht.last, ?_, ?_, ht.raised⟩, ?_, ?_, ?_, hs.parked, hs.numbered⟩
  · have hline := ht.line
    rw [hc] at hline
    rw [hmsgs, map_append, append_assoc]
    exact hline
  · intro h
    exact absurd h Bool.false_ne_true
  · intro _
    rw [hmsgs]
    exact ⟨by simp [hnone, ForwarderThread.held], hcancel, hexc⟩
  · intro h
    exact absurd h Bool.false_ne_true
  rw [hpending]
  exact .none (by intro c id h; cases h)

theorem Sound.receive_end (hf : s.forwarder = .receiving) {t : Except E (Option β)}
    (hlast : ∀ b, t ≠ asRead b)
    (hc : s.channel = t :: rest) :
    Sound reads rowCount
      { s with channel := rest, forwarder := .signalling, forwarderExc := raisedBy t } := by
  have hheld : s.forwarder.held = [] := by rw [hf]; rfl
  have hmsgs := messages_forwarder s .signalling rest (raisedBy t) hheld
  obtain ⟨hnone, hcancel, hexc⟩ := hs.early (by rw [hf]; rfl)
  have hpending := hs.puts.eq_nil (by rw [hf]; rfl)
  obtain ⟨u, hu⟩ := hs.line
  refine ⟨⟨t, hlast, ?_, fun _ => rfl, ?_⟩, ?_, ?_, ?_, hs.parked, hs.numbered⟩
  · have hline := hu.line
    rw [hc, map_item_congr u t hnone] at hline
    rw [hmsgs, map_append, append_assoc]
    exact hline
  · intro e he
    -- A generator that has ended has got a sentinel.
    refine absurd ?_ hnone
    simp [messages, show s.generator = .ended e from he, Generator.seen]
  · intro h
    exact absurd h.symm Bool.false_ne_true
  · intro _
    rw [hmsgs]
    exact mem_append_right _ mem_cons_self
  rw [hpending]
  exact .none (by intro c id h; cases h)

theorem Sound.receive (hf : s.forwarder = .receiving) {item : Except E (Option β)}
    (hc : s.channel = item :: rest) :
    Sound reads rowCount (s.received rest item) := by
  obtain ⟨-, hcancel, hexc⟩ := hs.early (by rw [hf]; rfl)
  match item with
  | .ok (some b) =>
    have hreceived : s.received rest (.ok (some b)) =
        { s with channel := rest, forwarder := .trying b } :=
      if_neg (by rw [hcancel]; exact Bool.false_ne_true)
    rw [hreceived]
    exact hs.receive_block hf hc
  | .ok none =>
    have h := hs.receive_end hf (by intro b h; simp [asRead] at h) hc
    rw [raisedBy, ← hexc] at h
    exact h
  | .error e => exact hs.receive_end hf (by intro b h; simp [asRead] at h) hc

theorem Sound.submitPut {next : ForwarderThread β} (hheld : s.forwarder.held = [m])
    (hnext : next.held = [])
    (hbetween : s.forwarder.between = true) (hlate : next.late = s.forwarder.late)
    (hput : Submitted s.ran s.completed next [⟨s.nextId, m, .scheduled⟩]) :
    Sound reads rowCount (s.submitPut m next) := by
  have hpending := hs.puts.eq_nil hbetween
  have hmsgs := messages_submitPut s m next hheld hnext hpending
  obtain ⟨t, ht⟩ := hs.line
  refine ⟨⟨t, ht.last, ?_, ?_, ht.raised⟩, ?_, ?_, ?_, ?_, ?_⟩
  · rw [hmsgs]
    exact ht.line
  · intro h
    exact ht.exc (hlate ▸ h)
  · intro h
    rw [hmsgs]
    exact hs.early (hlate ▸ h)
  · intro h
    rw [hmsgs]
    exact hs.late (hlate ▸ h)
  · show Submitted s.ran s.completed next (s.pending ++ [⟨s.nextId, m, .scheduled⟩])
    rw [hpending]
    exact hput
  · intro p hp hparked
    have hp' : p ∈ s.pending ++ [⟨s.nextId, m, .scheduled⟩] := hp
    rw [hpending, nil_append, mem_singleton] at hp'
    rw [hp'] at hparked
    cases hparked
  intro id h
  have hold := hs.numbered id
  simp only [AsyncStream.submitPut, hpending, nil_append, map_cons, map_nil,
    mem_singleton] at h hold
  obtain hran | hcompleted | rfl := h
  · exact Nat.lt_succ_of_lt (hold (.inl hran))
  · exact Nat.lt_succ_of_lt (hold (.inr (.inl hcompleted)))
  · exact Nat.lt_succ_self _

theorem Sound.forwarder {next : ForwarderThread β} (hheld : next.held = s.forwarder.held)
    (hlate : next.late = s.forwarder.late) (hput : Submitted s.ran s.completed next s.pending) :
    Sound reads rowCount { s with forwarder := next } := by
  have hmsgs : messages { s with forwarder := next } = s.messages := by
    simp only [messages, hheld]
  obtain ⟨t, ht⟩ := hs.line
  refine ⟨⟨t, ht.last, ?_, ?_, ht.raised⟩, ?_, ?_, hput, hs.parked, hs.numbered⟩
  · rw [hmsgs]
    exact ht.line
  · intro h
    exact ht.exc (hlate ▸ h)
  · intro h
    rw [hmsgs]
    exact hs.early (hlate ▸ h)
  intro h
  rw [hmsgs]
  exact hs.late (hlate ▸ h)

theorem Sound.confirm {b : β} (hf : s.forwarder = .waiting b id) (hid : id ∈ s.completed) :
    Sound reads rowCount { s with forwarder := .receiving } := by
  have hpending : s.pending = [] := by
    have hputs := hs.puts
    rw [hf] at hputs
    generalize s.pending = ps at hputs ⊢
    cases hputs with
    | none _ => rfl
    | block _ _ _ _ hcompleted => exact absurd hid hcompleted
    | put _ _ _ => rfl
  apply hs.forwarder
  · rw [hf]
    rfl
  · rw [hf]
    rfl
  · rw [hpending]
    exact .none (by intro c i h; cases h)

theorem Sound.release (hf : s.forwarder = .signalled) :
    Sound reads rowCount { s with forwarder := .released } := by
  apply hs.forwarder
  · rw [hf]
    rfl
  · rw [hf]
    rfl
  have hputs := hs.puts
  rw [hf] at hputs
  generalize s.pending = ps at hputs ⊢
  cases hputs with
  | none _ => exact .none (by intro c i h; cases h)
  | signal id place => exact .released id place

theorem Sound.putTask {p : Put β} (hp : p ∈ s.pending) : Sound reads rowCount (s.putTask p) := by
  have hpending := hs.puts.eq_singleton hp
  have hputs := hs.puts
  rw [hpending] at hputs
  have hnumber := hs.numbered p.id (.inr (.inr (mem_map.mpr ⟨p, hp, rfl⟩)))
  obtain ⟨t, ht⟩ := hs.line
  have hline := ht.line
  have hearly := hs.early
  have hlate := hs.late
  rw [← messages_putTask hpending] at hline hearly hlate
  unfold AsyncStream.putTask at hline hearly hlate ⊢
  rw [hpending, removePut_self] at hline hearly hlate ⊢
  split at hline
  · next hroom =>
    rw [if_pos hroom] at hearly hlate ⊢
    refine ⟨⟨t, ht.last, hline, ht.exc, ht.raised⟩, hearly, hlate, hputs.putNowait, ?_, ?_⟩
    · nofun
    intro id h
    obtain h | h | h := h
    · obtain rfl | h := mem_cons.mp h
      · exact hnumber
      · exact hs.numbered id (.inl h)
    · exact hs.numbered id (.inr (.inl h))
    · cases h
  · next hroom =>
    rw [if_neg hroom] at hearly hlate ⊢
    refine ⟨⟨t, ht.last, hline, ht.exc, ht.raised⟩, hearly, hlate, hputs.moved .parked, ?_, ?_⟩
    · intro _ _ _
      exact Nat.le_of_not_lt hroom
    intro id h
    apply hs.numbered id
    rw [hpending]
    exact h

theorem Sound.report (hid : id ∈ s.ran) : Sound reads rowCount
      { s with ran := s.ran.filter (· != id), completed := id :: s.completed } := by
  obtain ⟨t, ht⟩ := hs.line
  refine ⟨⟨t, ht.last, ht.line, ht.exc, ht.raised⟩, hs.early, hs.late, hs.puts.report hid,
    hs.parked, ?_⟩
  intro i h
  obtain h | h | h := h
  · exact hs.numbered i (.inl (mem_filter.mp h).1)
  · obtain rfl | h := mem_cons.mp h
    · exact hs.numbered i (.inl hid)
    · exact hs.numbered i (.inr (.inl h))
  · exact hs.numbered i (.inr (.inr h))

theorem Sound.got (hg : s.generator = .awaiting) {rest : List (Message β)}
    (hq : s.queue = m :: rest) : Sound reads rowCount (s.got rest m) := by
  obtain ⟨hputs, hplaces⟩ := hs.puts.wakeupNext
  have hmsgs := messages_got hg hq
  obtain ⟨t, ht⟩ := hs.line
  have hline := ht.line
  have hearly := hs.early
  have hlate := hs.late
  have hnumbered := hs.numbered
  rw [← wakeupNext_ids] at hnumbered
  rw [← hmsgs] at hline hearly hlate
  cases m with
  | block b =>
    refine ⟨⟨t, ht.last, hline, ht.exc, ?_⟩, hearly, hlate, hputs, ?_, hnumbered⟩
    · nofun
    intro p hp hparked
    rw [hplaces p hp] at hparked
    cases hparked
  | sentinel =>
    -- A sentinel is submitted after the forwarder's loop.
    have hmem : Message.sentinel ∈ (s.got rest .sentinel).messages := by
      simp [AsyncStream.got, messages, Generator.seen]
    have hpast : s.forwarder.late = true := by
      by_contra hnot
      exact (hearly (Bool.eq_false_iff.mpr hnot)).1 hmem
    refine ⟨⟨t, ht.last, hline, ht.exc, ?_⟩, ?_, hlate, hputs, ?_, hnumbered⟩
    · intro e he
      rw [← Generator.ended.inj he]
      exact ht.exc hpast
    · intro h
      exact absurd (hpast.symm.trans h) (Bool.false_ne_true ·.symm)
    intro p hp hparked
    rw [hplaces p hp] at hparked
    cases hparked

theorem Sound.resume (hg : s.generator = .yielding) :
    Sound reads rowCount { s with generator := .awaiting } := by
  have hmsgs : messages { s with generator := .awaiting } = s.messages := by
    simp only [messages, hg, Generator.seen]
  obtain ⟨t, ht⟩ := hs.line
  refine ⟨⟨t, ht.last, ?_, ht.exc, ?_⟩, ?_, ?_, hs.puts, hs.parked, hs.numbered⟩
  · rw [hmsgs]
    exact ht.line
  · nofun
  · rw [hmsgs]
    exact hs.early
  · rw [hmsgs]
    exact hs.late

/-- **A step that closes nothing and submits nothing twice.** -/
theorem Sound.step {s' : AsyncStream β E} {a : StreamAction}
    (hprompt : Prompt s a) (habandon : a ≠ .abandon) (hmoves : Moves reads rowCount s a s') :
    Sound reads rowCount s' := by
  cases hmoves with
  | read h => exact hs.read h
  | send item h _ => exact hs.send h
  | receive item rest hf hc => exact hs.receive hf hc
  | submit b hf _ =>
    apply hs.submitPut
    · rw [hf]
      rfl
    · rfl
    · rw [hf]
      rfl
    · rw [hf]
      rfl
    refine .block b s.nextId .scheduled ?_ ?_
    · intro h
      exact lt_irrefl _ (hs.numbered _ (.inl h))
    · intro h
      exact lt_irrefl _ (hs.numbered _ (.inr (.inl h)))
  | giveUp b hf hcancel =>
    obtain ⟨-, hopen, -⟩ := hs.early (by rw [hf]; rfl)
    exact absurd (hopen.symm.trans hcancel) Bool.false_ne_true
  | confirm b id hf hid => exact hs.confirm hf hid
  | retry _ _ _ _ => exact absurd rfl hprompt
  | signal hf =>
    apply hs.submitPut
    · rw [hf]
      rfl
    · rfl
    · rw [hf]
      rfl
    · rw [hf]
      rfl
    · exact .signal s.nextId .scheduled
  | release hf => exact hs.release hf
  | runPut p id hp _ => exact hs.putTask hp
  | report id hid => exact hs.report hid
  | get m rest hg hq => exact hs.got hg hq
  | resume hg => exact hs.resume hg
  | abandon _ => exact absurd rfl habandon

end AsyncStream

end StClickHouse.Python
