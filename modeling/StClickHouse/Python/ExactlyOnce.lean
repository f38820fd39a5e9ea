/-
  StClickHouse.Python.ExactlyOnce
  **EVERY BLOCK ONCE, IN ORDER, AND THEN THE END.**

  In a run in which no wait for a put times out, every step that is not the reader's
  brings the end of the stream closer and until the generator has ended there is one.  A
  wait that times out submits a second put of the same block beside the first.

      exactly_once        — the generator yields what the native stream yields
      block_yielded_twice — a put that is waited for too long is put twice
-/
import StClickHouse.Python.InOrder

namespace StClickHouse.Python

open List

variable {β E : Type}

/-! ## §1. How far the end is. -/

/-- How many more steps a put takes, at most, before a get helps it on. -/
def Place.steps : Place → Nat
  | .scheduled => 6
  | .parked => 5

def ForwarderThread.steps : ForwarderThread β → Nat
  | .receiving => 0
  | .trying _ => 9
  | .waiting _ _ => 2
  | .signalling => 9
  | .signalled => 1
  | .released => 0

def Generator.steps : Generator E → Nat
  | .yielding => 1
  | _ => 0

/-- The steps of a list of puts. -/
def putSteps (ps : List (Put β)) : Nat := (ps.map (·.place.steps)).sum

theorem putSteps_wakeupNext (ps : List (Put β)) : putSteps (wakeupNext ps) ≤ putSteps ps + 1 := by
  fun_induction wakeupNext ps with
  | case1 => exact Nat.zero_le _
  | case2 p ps hplace =>
    simp only [putSteps, map_cons, sum_cons, hplace, Place.steps]
    omega
  | case3 p ps hplace ih =>
    simp only [putSteps, map_cons, sum_cons] at ih ⊢
    omega

theorem exists_blocks {ms : List (Message β)} :
    Message.sentinel ∉ ms →
    ∃ bs : List β, ms = bs.map .block := by
  induction ms with
  | nil =>
    intro _
    exact ⟨[], rfl⟩
  | cons m ms ih =>
    intro hnone
    obtain ⟨bs, rfl⟩ := ih fun h => hnone (mem_cons_of_mem _ h)
    cases m with
    | block b => exact ⟨b :: bs, rfl⟩
    | sentinel => exact absurd mem_cons_self hnone

namespace AsyncStream

variable (reads : Nat → Except E (Option β)) (rowCount : β → Nat)

/-- A bound on the steps left, for a stream whose last result is number `n`. -/
def distance (n : Nat) (s : AsyncStream β E) : Nat :=
  (n + 1 - s.position) +
  ((sent reads rowCount (n + 1)).length - (s.messages.length + s.channel.length)) +
  10 * ((sent reads rowCount (n + 1)).length - s.messages.length) +
  s.forwarder.steps + putSteps s.pending + s.ran.length + 3 * s.queue.length +
  s.generator.steps

variable {reads rowCount}

variable {s s' : AsyncStream β E} {n : Nat} {a : StreamAction}

/-- Before the end is received, fewer messages are past the channel than there will be. -/
theorem Sound.messages_lt (hs : Sound reads rowCount s)
    (hends : EndsAt reads n) (hearly : s.forwarder.late = false) :
    s.messages.length < (sent reads rowCount (n + 1)).length := by
  obtain ⟨hnone, -, -⟩ := hs.early hearly
  obtain ⟨t, ht⟩ := hs.line
  obtain ⟨bs, hbs⟩ := exists_blocks hnone
  have hline := ht.line
  rw [hbs, map_map] at hline
  have hle := (sent_starts hends (show bs.map asRead ++ _ = _ from hline)).length_le
  have hlen : (sent reads rowCount (n + 1)).length =
      (nativeBlocks reads rowCount n).length + 1 := by
    rw [sent, sent_blocks hends le_rfl, kept_last rowCount hends.last]
    simp
  rw [hbs, length_map]
  omega

theorem received_eq (s : AsyncStream β E) (item : Except E (Option β))
    (rest : List (Except E (Option β))) : ∃ f exc, f.held.length = 1 ∧ f.steps = 9 ∧
      s.received rest item =
        { s with forwarder := f, channel := rest, forwarderExc := exc } := by
  match item with
  | .ok (some b) =>
    by_cases hcancel : s.cancelEvent = true
    · exact ⟨.signalling, s.forwarderExc, rfl, rfl, if_pos hcancel⟩
    · exact ⟨.trying b, s.forwarderExc, rfl, rfl, if_neg hcancel⟩
  | .ok none => exact ⟨.signalling, s.forwarderExc, rfl, rfl, rfl⟩
  | .error e => exact ⟨.signalling, some e, rfl, rfl, rfl⟩

theorem distance_read (n : Nat) (s : AsyncStream β E) :
    distance reads rowCount n (readNext reads rowCount s) ≤ distance reads rowCount n s ∧
      (s.position ≤ n →
        distance reads rowCount n (readNext reads rowCount s) < distance reads rowCount n s) := by
  obtain ⟨r, hr⟩ := readNext_rest reads rowCount s
  rw [hr]
  have hmsgs : messages { s with position := s.position + 1, reader := r } = s.messages := rfl
  simp only [distance, hmsgs]
  constructor
  · omega
  · intro h
    omega

theorem distance_send (n : Nat) (s : AsyncStream β E) (item : Except E (Option β)) :
    let s' := { s with reader := ReaderThread.reading, channel := s.channel ++ [item] }
    distance reads rowCount n s' ≤ distance reads rowCount n s ∧
      (s.messages.length + s.channel.length < (sent reads rowCount (n + 1)).length →
        distance reads rowCount n s' < distance reads rowCount n s) := by
  intro s'
  have hmsgs : s'.messages = s.messages := rfl
  simp only [distance, hmsgs, s', length_append, length_cons, length_nil]
  constructor
  · omega
  · intro h
    omega

theorem distance_receive (hends : EndsAt reads n)
    (hs : Sound reads rowCount s) {item : Except E (Option β)}
    {rest : List (Except E (Option β))} (hf : s.forwarder = .receiving)
    (hc : s.channel = item :: rest) :
    distance reads rowCount n (s.received rest item) < distance reads rowCount n s := by
  have hlt := hs.messages_lt hends (by rw [hf]; rfl)
  obtain ⟨f, exc, hheld, hsteps, heq⟩ := received_eq s item rest
  have hmsgs := messages_forwarder s f rest exc (by rw [hf]; rfl)
  have hnone : s.forwarder.steps = 0 := by rw [hf]; rfl
  rw [heq]
  simp only [distance, hmsgs, hsteps, hnone, hc, length_append, length_cons, hheld]
  omega

theorem distance_submitPut (n : Nat) (hs : Sound reads rowCount s)
    {m : Message β} {next : ForwarderThread β} (hheld : s.forwarder.held = [m])
    (hnext : next.held = []) (hbetween : s.forwarder.between = true)
    (hsteps : next.steps + 6 < s.forwarder.steps) :
    distance reads rowCount n (s.submitPut m next) < distance reads rowCount n s := by
  have hpending := hs.puts.eq_nil hbetween
  have hmsgs := messages_submitPut s m next hheld hnext hpending
  simp only [distance, hmsgs]
  simp only [AsyncStream.submitPut, hpending, nil_append, putSteps, map_cons,
    map_nil, sum_cons, sum_nil, Place.steps]
  omega

theorem distance_forwarder (n : Nat) (s : AsyncStream β E) {next : ForwarderThread β}
    (hheld : next.held = s.forwarder.held) (hsteps : next.steps < s.forwarder.steps) :
    distance reads rowCount n { s with forwarder := next } < distance reads rowCount n s := by
  have hmsgs : messages { s with forwarder := next } = s.messages := by
    simp only [messages, hheld]
  simp only [distance, hmsgs]
  omega

theorem distance_putTask (n : Nat) (hs : Sound reads rowCount s)
    {p : Put β} (hp : p ∈ s.pending) (hplace : p.place = .scheduled) :
    distance reads rowCount n (s.putTask p) < distance reads rowCount n s := by
  have hpending := hs.puts.eq_singleton hp
  have hmsgs := messages_putTask hpending
  simp only [distance, hmsgs]
  unfold AsyncStream.putTask
  split
  · simp only [hpending, removePut_self, putSteps, map_cons, map_nil, sum_cons,
      sum_nil, hplace, Place.steps, length_append, length_cons, length_nil]
    omega
  simp only [hpending, removePut_self, putSteps, map_cons, map_nil, sum_cons,
    sum_nil, hplace, Place.steps, nil_append]
  omega

theorem distance_report (n : Nat) {id : Nat} (hid : id ∈ s.ran) :
    distance reads rowCount n
      { s with ran := s.ran.filter (· != id), completed := id :: s.completed } <
      distance reads rowCount n s := by
  have hlt : (s.ran.filter (· != id)).length < s.ran.length := by
    rw [length_filter_lt_length_iff_exists]
    exact ⟨id, hid, by simp⟩
  have hmsgs : messages { s with
      ran := s.ran.filter (· != id), completed := id :: s.completed } = s.messages := rfl
  simp only [distance, hmsgs]
  omega

theorem distance_got (n : Nat) (hg : s.generator = .awaiting)
    {m : Message β} {rest : List (Message β)} (hq : s.queue = m :: rest) :
    distance reads rowCount n (s.got rest m) < distance reads rowCount n s := by
  have hmsgs := messages_got hg hq
  have hwake := putSteps_wakeupNext s.pending
  simp only [distance, hmsgs]
  cases m with
  | block b | sentinel =>
    simp only [AsyncStream.got, hg, hq, Generator.steps, length_cons]
    omega

theorem distance_resume (n : Nat) (hg : s.generator = .yielding) :
    distance reads rowCount n { s with generator := .awaiting } < distance reads rowCount n s := by
  have hmsgs : messages { s with generator := .awaiting } = s.messages := by
    simp only [messages, hg, Generator.seen]
  simp only [distance, hmsgs, hg, Generator.steps]
  omega

/-- **Every step brings the end closer, or is a step of the reader.** -/
theorem distance_step (hends : EndsAt reads n)
    (hs : Sound reads rowCount s) (hprompt : Prompt s a)
    (habandon : a ≠ .abandon) (hmoves : Moves reads rowCount s a s') :
    distance reads rowCount n s' ≤ distance reads rowCount n s ∧
      (a ≠ .read → a ≠ .send → distance reads rowCount n s' < distance reads rowCount n s) := by
  have hall : distance reads rowCount n s' < distance reads rowCount n s →
      distance reads rowCount n s' ≤ distance reads rowCount n s ∧
        (a ≠ .read → a ≠ .send →
          distance reads rowCount n s' < distance reads rowCount n s) :=
    fun h => ⟨le_of_lt h, fun _ _ => h⟩
  cases hmoves with
  | read h => exact ⟨(distance_read n s).1, fun hread => absurd rfl hread⟩
  | send item h _ => exact ⟨(distance_send n s item).1, fun _ hsend => absurd rfl hsend⟩
  | receive item rest hf hc => exact hall (distance_receive hends hs hf hc)
  | submit b hf _ | signal hf =>
    apply hall
    apply distance_submitPut n hs
    · rw [hf]
      rfl
    · rfl
    · rw [hf]
      rfl
    rw [hf]
    simp only [ForwarderThread.steps]
    omega
  | giveUp b hf hcancel =>
    obtain ⟨-, hopen, -⟩ := hs.early (by rw [hf]; rfl)
    exact absurd (hopen.symm.trans hcancel) Bool.false_ne_true
  | confirm b id hf hid | release hf =>
    apply hall
    apply distance_forwarder
    · rw [hf]
      rfl
    rw [hf]
    simp only [ForwarderThread.steps]
    omega
  | retry _ _ _ _ => exact absurd rfl hprompt
  | runPut p id hp hplace => exact hall (distance_putTask n hs hp hplace)
  | report id hid => exact hall (distance_report n hid)
  | get m rest hg hq => exact hall (distance_got n hg hq)
  | resume hg => exact hall (distance_resume n hg)
  | abandon _ => exact absurd rfl habandon

/-- Some step other than a resubmission brings the end closer. -/
def Closer (reads : Nat → Except E (Option β)) (rowCount : β → Nat) (n : Nat)
    (s : AsyncStream β E) : Prop :=
  ∃ a s', Prompt s a ∧ a ≠ .abandon ∧ s.step reads rowCount a = some s' ∧
    distance reads rowCount n s' < distance reads rowCount n s

section Progress

variable (hends : EndsAt reads n) (hs : Sound reads rowCount s)
include hends hs

theorem Sound.closer (hprompt : Prompt s a)
    (habandon : a ≠ .abandon) (hread : a ≠ .read) (hsend : a ≠ .send)
    (hstep : s.step reads rowCount a = some s') : Closer reads rowCount n s :=
  ⟨a, s', hprompt, habandon, hstep,
    (distance_step hends hs hprompt habandon (moves_of_step hstep)).2 hread hsend⟩

theorem Sound.closer_put (hq : s.queue = []) {p : Put β} (hp : p ∈ s.pending) :
    Closer reads rowCount n s := by
  have hplace : p.place = .scheduled := by
    cases hplace : p.place with
    | scheduled => rfl
    | parked =>
      have hfull := hs.parked p hp hplace
      rw [hq, length_nil] at hfull
      exact absurd hfull (by decide)
  have hfind : findPut p.id s.pending = some p := by
    rw [hs.puts.eq_singleton hp]
    simp [findPut]
  have hstep : s.step reads rowCount (.runPut p.id) = some (s.putTask p) := by
    simp only [AsyncStream.step, hfind, hplace]
  exact hs.closer hends (by simp [Prompt]) (by simp) (by simp) (by simp) hstep

/-- While the forwarder waits for the channel, the reader has something to do. -/
theorem Sound.closer_reader (hf : s.forwarder = .receiving) (hc : s.channel = []) :
    Closer reads rowCount n s := by
  have hearly : s.forwarder.late = false := by rw [hf]; rfl
  have hlt := hs.messages_lt hends hearly
  cases hreader : s.reader with
  | sending item =>
    refine ⟨.send, _, (by decide : StreamAction.send ≠ .retry), by decide, ?_,
      (distance_send n s item).2 (by rw [hc]; exact hlt)⟩
    have hroom : s.channel.length < capacity := by
      rw [hc, length_nil]
      decide
    simp only [AsyncStream.step, hreader, hroom, if_true]
  | reading =>
    refine ⟨.read, _, (by decide : StreamAction.read ≠ .retry), by decide, ?_,
      (distance_read n s).2 ?_⟩
    · simp only [AsyncStream.step, hreader]
    -- Everything that was read is past the channel, so the end was not read yet.
    · by_contra hpast
      obtain ⟨rest, hrest⟩ : ∃ rest, sent reads rowCount s.position =
          (nativeBlocks reads rowCount n).map asRead ++ reads n :: rest :=
        sent_past hends (by omega)
      obtain ⟨t, ht⟩ := hs.line
      obtain ⟨bs, hbs⟩ := exists_blocks (hs.early hearly).1
      have hline := ht.line
      rw [hc, hreader, hbs, map_map, ReaderThread.toSend, append_nil,
        append_nil, hrest] at hline
      have hmem : reads n ∈ bs.map (Message.item t ∘ .block) := by
        rw [hline]
        exact mem_append_right _ mem_cons_self
      obtain ⟨b, _, hb⟩ := mem_map.mp hmem
      exact hends.last b hb.symm

/-- **Until the generator has ended, some step brings the end closer.** -/
theorem Sound.progress (hopen : s.generator = .awaiting ∨ s.generator = .yielding) :
    Closer reads rowCount n s := by
  have hother : ∀ {a : StreamAction} {s' : AsyncStream β E}, a ≠ .retry → a ≠ .abandon →
      a ≠ .read → a ≠ .send → s.step reads rowCount a = some s' → Closer reads rowCount n s :=
    fun hprompt habandon hread hsend hstep =>
      hs.closer hends hprompt habandon hread hsend hstep
  obtain hg | hg := hopen
  · cases hq : s.queue with
    | cons m rest =>
      exact hother (a := .get) (by decide) (by decide) (by decide) (by decide)
        (by simp only [AsyncStream.step, hg, hq]; rfl)
    | nil =>
      cases hpending : s.pending with
      | cons p ps => exact hs.closer_put hends hq (hpending ▸ mem_cons_self)
      | nil =>
        -- Nothing is on its way, so the forwarder or the reader goes on.
        have hmsgs : s.messages = s.yielded.map .block ++ s.forwarder.held := by
          simp [messages, hg, hq, hpending, Generator.seen]
        cases hf : s.forwarder with
        | receiving =>
          rcases hc : s.channel with _ | ⟨item, rest⟩
          · exact hs.closer_reader hends hf hc
          exact hother (a := .receive) (by decide) (by decide) (by decide) (by decide)
            (by simp only [AsyncStream.step, hf, hc]; rfl)
        | trying b =>
          have hcancel := (hs.early (by rw [hf]; rfl)).2.1
          exact hother (a := .submit) (by decide) (by decide) (by decide) (by decide)
            (by simp only [AsyncStream.step, hf, hcancel]; rfl)
        | waiting b id =>
          have hputs := hs.puts
          rw [hf, hpending] at hputs
          cases hputs with
          | none h => exact absurd rfl (h b id)
          | put _ _ hid =>
            obtain hid | hid := hid
            · exact hother (a := .report id) (by simp) (by simp) (by simp) (by simp)
                (by simp only [AsyncStream.step, hid, if_true]; rfl)
            · exact hother (a := .confirm) (by decide) (by decide) (by decide)
                (by decide) (by simp only [AsyncStream.step, hf, hid, if_true]; rfl)
        | signalling =>
          exact hother (a := .signal) (by decide) (by decide) (by decide) (by decide)
            (by simp only [AsyncStream.step, hf]; rfl)
        | signalled | released =>
          have hmem := hs.late (by rw [hf]; rfl)
          rw [hmsgs, hf] at hmem
          simp [ForwarderThread.held] at hmem
  · exact hother (a := .resume) (by decide) (by decide) (by decide) (by decide)
      (by simp only [AsyncStream.step, hg]; rfl)

end Progress

/-! ## §2. Whole runs. -/

/-- What holds in every state of a run without a resubmission. -/
inductive Good (reads : Nat → Except E (Option β)) (rowCount : β → Nat) (s : AsyncStream β E) :
    Prop
  | running (hopen : s.generator ≠ .closed) (hs : Sound reads rowCount s)
  | closed (hclosed : s.generator = .closed) (hkept : Kept reads rowCount s)

theorem Sound.kept (hs : Sound reads rowCount s) :
    Kept reads rowCount s := by
  obtain ⟨t, ht⟩ := hs.line
  have hline := ht.line
  rw [messages, map_append, map_map, append_assoc] at hline
  exact ⟨_, hline⟩

theorem Moves.closed (h : Moves reads rowCount s a s') (hclosed : s.generator = .closed)
    (hkept : Kept reads rowCount s) : s'.generator = .closed ∧ Kept reads rowCount s' := by
  cases h with
  | read _ =>
    obtain ⟨r, hr⟩ := readNext_rest reads rowCount s
    rw [hr]
    obtain ⟨rest, hrest⟩ := hkept
    refine ⟨hclosed, rest ++ kept rowCount (reads s.position), ?_⟩
    show s.yielded.map asRead ++ _ = sent reads rowCount s.position ++ _
    rw [← hrest, append_assoc]
  | receive item rest _ _ =>
    obtain ⟨f, exc, _, _, heq⟩ := received_eq s item rest
    rw [heq]
    exact ⟨hclosed, hkept⟩
  | runPut p id _ _ =>
    unfold AsyncStream.putTask
    split
    · exact ⟨hclosed, hkept⟩
    · exact ⟨hclosed, hkept⟩
  | get m rest hg _ | resume hg => exact absurd (hclosed.symm.trans hg) (by simp)
  | abandon hg => exact ⟨rfl, hkept⟩
  | _ => exact ⟨hclosed, hkept⟩

theorem Moves.open (h : Moves reads rowCount s a s')
    (habandon : a ≠ .abandon) (hopen : s.generator ≠ .closed) : s'.generator ≠ .closed := by
  cases h with
  | read _ =>
    obtain ⟨r, hr⟩ := readNext_rest reads rowCount s
    rw [hr]
    exact hopen
  | receive item rest _ _ =>
    obtain ⟨f, exc, _, _, heq⟩ := received_eq s item rest
    rw [heq]
    exact hopen
  | runPut p id _ _ =>
    unfold AsyncStream.putTask
    split
    · exact hopen
    · exact hopen
  | get m rest _ _ =>
    cases m with
    | block b | sentinel => nofun
  | resume _ => nofun
  | abandon _ => exact absurd rfl habandon
  | _ => exact hopen

theorem Good.step (hs : Good reads rowCount s)
    (hprompt : Prompt s a) (hstep : s.step reads rowCount a = some s') :
    Good reads rowCount s' := by
  have hmoves := moves_of_step hstep
  cases hs with
  | closed hclosed hkept =>
    obtain ⟨hclosed', hkept'⟩ := hmoves.closed hclosed hkept
    exact .closed hclosed' hkept'
  | running hopen hs =>
    by_cases habandon : a = .abandon
    · subst habandon
      cases hmoves
      exact .closed rfl hs.kept
    · exact .running (hmoves.open habandon hopen) (hs.step hprompt habandon hmoves)

theorem Good.run {as : List StreamAction}
    (hrun : Run (AsyncStream.step reads rowCount) Prompt AsyncStream.start as s) :
    Good reads rowCount s :=
  hrun.invariant (fun _ _ _ hs hprompt hstep => hs.step hprompt hstep) (.running nofun .start)

/-- **Exactly once.**  In every run in which no wait for a put times out, the generator has
    yielded a first part of what the native stream yields; when it has ended it has yielded
    all of it and raised the stream's error; until then it can always come closer to its
    end, and every step does that, apart from what the reader reads past the end. -/
theorem exactly_once {n : Nat} (hends : EndsAt reads n) {as : List StreamAction}
    {s : AsyncStream β E} (hrun : Run (step reads rowCount) Prompt AsyncStream.start as s) :
    s.yielded <+: nativeBlocks reads rowCount n ∧
    (∀ raised, s.generator = .ended raised →
      s.yielded = nativeBlocks reads rowCount n ∧ raised = raisedBy (reads n)) ∧
    (s.generator = .awaiting ∨ s.generator = .yielding → Closer reads rowCount n s) ∧
    (s.generator ≠ .closed → ∀ a s', Prompt s a → a ≠ .abandon →
      s.step reads rowCount a = some s' →
      distance reads rowCount n s' ≤ distance reads rowCount n s ∧
        (a ≠ .read → a ≠ .send →
          distance reads rowCount n s' < distance reads rowCount n s)) := by
  have hgood := Good.run hrun
  have hkept : Kept reads rowCount s := by
    cases hgood with
    | running _ hs => exact hs.kept
    | closed _ hkept => exact hkept
  have hsound : s.generator ≠ .closed → Sound reads rowCount s := by
    intro hopen
    cases hgood with
    | running _ hs => exact hs
    | closed hclosed _ => exact absurd hclosed hopen
  refine ⟨?_, ?_, ?_, ?_⟩
  · obtain ⟨rest, hrest⟩ := hkept
    exact sent_starts hends hrest
  · intro raised hended
    obtain ⟨t, ht⟩ := (hsound (by rw [hended]; nofun)).line
    have hline := ht.line
    rw [messages, hended, Generator.seen, map_append, map_map, append_assoc]
      at hline
    obtain ⟨hall, hlast⟩ := sent_end hends ht.last hline
    rw [← hlast]
    exact ⟨hall, ht.raised raised hended⟩
  · intro hopen
    refine (hsound ?_).progress hends hopen
    intro hclosed
    obtain h | h := hopen
    · exact absurd (hclosed.symm.trans h) (by simp)
    · exact absurd (hclosed.symm.trans h) (by simp)
  · intro hopen a s' hprompt habandon hstep
    exact distance_step hends (hsound hopen) hprompt habandon (moves_of_step hstep)

/-- A stream of one block, of one row. -/
def oneBlock : Nat → Except Unit (Option Nat)
  | 0 => .ok (some 1)
  | _ => .ok none

theorem oneBlock_ends : EndsAt oneBlock 1 where
  blocks := by
    intro k hk
    obtain rfl : k = 0 := by omega
    exact ⟨1, rfl⟩
  last := by
    intro b h
    simp [oneBlock, asRead] at h

/-- The event loop comes to the put in time. -/
def inTime : List StreamAction :=
  [.read, .send, .receive, .submit, .read, .send, .runPut 0, .report 0, .confirm, .receive, .get,
    .signal, .runPut 1, .resume, .get]

theorem exactly_once_oneBlock :
    ∃ s, Run (step oneBlock id) Prompt AsyncStream.start inTime s ∧ s.yielded = [1] ∧
      s.generator = .ended none ∧ s.yielded <+: nativeBlocks oneBlock id 1 := by
  obtain ⟨s, hs, hend⟩ := Option.map_eq_some_iff.mp
    (show (exec (step oneBlock id) AsyncStream.start inTime).map
      (fun s => (s.yielded, s.generator)) = some ([1], .ended none) by decide +kernel)
  simp only [Prod.mk.injEq] at hend
  have hrun : Run (step oneBlock id) Prompt AsyncStream.start inTime s :=
    .of_exec_ok (fun _ ha _ hretry => absurd (hretry ▸ ha) (by decide)) hs
  exact ⟨s, hrun, hend.1, hend.2, (exactly_once oneBlock_ends hrun).1⟩

/-- The event loop is busy for longer than 100 ms before it comes to the put. -/
def busyLoop : List StreamAction :=
  [.read, .send, .receive, .submit, .retry, .submit, .runPut 0, .runPut 1, .report 0, .report 1,
    .confirm, .read, .send, .receive, .signal, .runPut 2, .get, .resume, .get, .resume, .get]

/-- **A put that is waited for too long is put twice.** -/
theorem block_yielded_twice :
    EndsAt oneBlock 1 ∧ nativeBlocks oneBlock id 1 = [1] ∧
      ∃ s, Run (step oneBlock id) (fun _ _ => True) AsyncStream.start busyLoop s ∧
        s.generator = .ended none ∧ s.yielded = [1, 1] := by
  obtain ⟨s, hs, hend⟩ := Option.map_eq_some_iff.mp
    (show (exec (step oneBlock id) AsyncStream.start busyLoop).map
      (fun s => (s.yielded, s.generator)) = some ([1, 1], .ended none) by decide +kernel)
  simp only [Prod.mk.injEq] at hend
  exact ⟨oneBlock_ends, by decide, s, .of_exec_ok (fun _ _ _ => trivial) hs, hend.2, hend.1⟩

end AsyncStream

end StClickHouse.Python
