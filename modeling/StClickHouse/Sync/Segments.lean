/-
  StClickHouse.Sync.Segments
  **A STREAMED RESPONSE AND HOW ITS BYTES ARE SPLIT.**

  The bytes of a response come in pieces (`Sync.Pieces`).  `packet` reads a packet that
  lies before the reader as a whole; a `Response` is read by it packet after packet.  The
  stream returns the blocks of the response whatever the pieces are, unless a piece ends at
  a `fragile` place of a packet.

      stream_of_response   — the results of the calls
-/
import StClickHouse.Sync.Pieces
import StClickHouse.Sync.StreamTurn

namespace StClickHouse

open ByteReader RustText List

namespace Sync

/-! ## §1. The bytes behind the buffer. -/

/-- The bytes before the stream: those of the buffer, and the pieces to come. -/
structure Before (cfg : Config) (c : Control) (pieces : List Bytes) (b : StreamBytes)
    (flat : Bytes) : Prop where
  config : b.cfg = cfg
  control : b.transport.control = c
  pulls : Pulls cfg b.transport pieces
  bytes : flat = b.rest ++ pieces.flatten

/-- The same, where the pieces to come are the last of `all`. -/
def Among (cfg : Config) (c : Control) (all : List Bytes) (b : StreamBytes)
    (flat : Bytes) : Prop :=
  ∃ pieces, pieces <:+ all ∧ Before cfg c pieces b flat

variable {cfg : Config} {c : Control} {all pieces : List Bytes} {b : StreamBytes}
  {flat : Bytes}

theorem Before.pull {piece : Bytes} (h : Before cfg c (piece :: pieces) b flat) :
    piece ≠ [] ∧ ∃ t, Sync.pull b.cfg b.transport = (.bytes piece, t) ∧
      Before cfg c pieces { b with rest := b.rest ++ piece, transport := t } flat := by
  obtain ⟨hcfg, hcontrol, hpulls, hbytes⟩ := h
  cases hpulls with
  | more hmore hlater =>
    rw [← hcfg] at hmore
    refine ⟨pull_ne_nil hmore, _, hmore, hcfg, ?_, hlater, ?_⟩
    · exact (pull_control hmore).trans hcontrol
    · rw [hbytes, flatten_cons, append_assoc]

theorem readExact_parts {got flat : Bytes} {n : Nat} (hn : got.length ≤ n) :
    (readExact n : Read Bytes Bytes) (got ++ flat)
      = match (readExact (n - got.length) : Read Bytes Bytes) flat with
        | (.ok rest, flat') => (.ok (got ++ rest), flat')
        | (.error e, flat') => (.error e, flat') := by
  by_cases hlen : n - got.length ≤ flat.length
  · have hall : n ≤ (got ++ flat).length := by
      rw [length_append]
      omega
    rw [readExact_list hlen, readExact_list hall, take_append, drop_append,
      take_of_length_le hn, drop_of_length_le hn, nil_append]
  have hfail : (readExact (n - got.length) : Read Bytes Bytes) flat
      = (.error (.error endOfInput), []) := if_neg hlen
  have hall : (readExact n : Read Bytes Bytes) (got ++ flat)
      = (.error (.error endOfInput), []) := if_neg (by rw [length_append]; omega)
  rw [hfail, hall]

theorem Among.read (h : Among cfg c all b flat) (n : Nat) :
    (∃ got b', StreamBytes.read (n + 1) b = (.ok got, b') ∧ got ≠ [] ∧ got.length ≤ n + 1 ∧
        ∃ flat', flat = got ++ flat' ∧ Among cfg c all b' flat') ∨
      (flat = [] ∧ ∃ b', Among cfg c all b' [] ∧ ((StreamBytes.read (n + 1) b = (.ok [], b')) ∨
        StreamBytes.read (n + 1) b = (.error (.error (.io .unexpectedEof)), b'))) := by
  obtain ⟨pieces, hsuffix, hbefore⟩ := h
  -- what the buffer has is served
  have hserve : ∀ {b : StreamBytes} {pieces : List Bytes}, pieces <:+ all →
      Before cfg c pieces b flat → b.rest ≠ [] →
      b.rest.take (n + 1) ≠ [] ∧ (b.rest.take (n + 1)).length ≤ n + 1 ∧
        ∃ flat', flat = b.rest.take (n + 1) ++ flat' ∧
          Among cfg c all { b with rest := b.rest.drop (n + 1) } flat' := by
    intro b pieces hsuffix hbefore hne
    refine ⟨?_, length_take_le _ _, b.rest.drop (n + 1) ++ pieces.flatten, ?_,
      pieces, hsuffix, hbefore.config, hbefore.control, hbefore.pulls, rfl⟩
    · obtain ⟨x, xs, hrest⟩ := exists_cons_of_ne_nil hne
      rw [hrest, take_succ_cons]
      exact cons_ne_nil _ _
    · rw [← append_assoc, take_append_drop]
      exact hbefore.bytes
  by_cases hrest : b.rest = []
  · cases pieces with
    | nil =>
      refine .inr ⟨?_, ?_⟩
      · rw [hbefore.bytes, hrest]
        rfl
      have hend : AtEnd cfg b.transport := by
        cases hbefore.pulls with
        | done hend => exact hend
      obtain ⟨t', hend, hstays⟩ := hend
      have hcontrol : t'.control = c := (pull_control hend).trans hbefore.control
      rw [← hbefore.config] at hend
      refine ⟨{ b with transport := t' }, ⟨[], hsuffix, hbefore.config, hcontrol,
        .done ⟨t', hstays, hstays⟩, ?_⟩, ?_⟩
      · rw [hrest]
        rfl
      unfold StreamBytes.read
      rw [if_neg (Nat.succ_ne_zero n), if_pos hrest, bind_apply]
      unfold StreamBytes.refill
      rw [hend]
      unfold endPull
      by_cases hchunked : b.cfg.chunkedRecv = true
      · rw [if_pos hchunked]
        exact .inr rfl
      · rw [if_neg hchunked]
        exact .inl rfl
    | cons piece pieces =>
      obtain ⟨hne, t, hpull, hafter⟩ := hbefore.pull
      have hrefill : StreamBytes.refill b
          = (.ok true, { b with rest := b.rest ++ piece, transport := t }) := by
        unfold StreamBytes.refill
        rw [hpull]
      obtain ⟨hgot, hlen, flat', hflat, hamong⟩ := hserve
        (List.IsSuffix.trans (suffix_cons piece pieces) hsuffix) hafter
        (by rw [hrest]; exact hne)
      refine .inl ⟨_, _, ?_, hgot, hlen, flat', hflat, hamong⟩
      unfold StreamBytes.read
      rw [if_neg (Nat.succ_ne_zero n), if_pos hrest, bind_ok hrefill]
      rfl
  · obtain ⟨hgot, hlen, flat', hflat, hamong⟩ := hserve hsuffix hbefore hrest
    refine .inl ⟨_, _, ?_, hgot, hlen, flat', hflat, hamong⟩
    unfold StreamBytes.read
    rw [if_neg (Nat.succ_ne_zero n), if_neg hrest]
    rfl

/-- **The bytes behind the buffer are read through it.** -/
theorem readsAlike_bytes (cfg : Config) (c : Control) (all : List Bytes) :
    ReadsAlike Error (Among cfg c all) := by
  have hloop : ∀ fuel n, n ≤ fuel → Lock (Among cfg c all) (readExactBy StreamBytes.read fuel n)
      (readExact n : Read Bytes Bytes) := by
    intro fuel
    induction fuel with
    | zero =>
      intro n hn b flat h
      obtain rfl : n = 0 := by omega
      exact ⟨rfl, h⟩
    | succ fuel ih =>
      intro n hn b flat h
      rcases n with _ | n
      · exact ⟨rfl, h⟩
      unfold readExactBy
      obtain ⟨got, b', hread, hne, hlen, flat', rfl, hamong⟩ | ⟨rfl, b', hafter, hend⟩ := h.read n
      · rw [bind_ok hread, if_neg hne, readExact_parts hlen]
        have hpos : 0 < got.length := length_pos_iff.mpr hne
        obtain ⟨hres, hrel⟩ := ih (n + 1 - got.length) (by omega) b' flat' hamong
        rw [bind_apply]
        generalize readExactBy StreamBytes.read fuel (n + 1 - got.length) b' = out at hres hrel ⊢
        generalize (readExact (n + 1 - got.length) : Read Bytes Bytes)
          flat' = out' at hres hrel ⊢
        obtain ⟨res, b''⟩ := out
        obtain ⟨res', flat''⟩ := out'
        obtain rfl : res = res' := hres
        cases res <;> exact ⟨rfl, hrel⟩
      · have hlist : (readExact (n + 1) : Read Bytes Bytes) []
            = (.error (.error (.io .unexpectedEof)), []) := rfl
        obtain hend | hend := hend
        · rw [bind_ok hend, if_pos rfl]
          exact ⟨rfl, hafter⟩
        · rw [bind_error hend]
          exact ⟨rfl, hafter⟩
  exact fun n => hloop n n (Nat.le_refl n)

/-! ## §2. Responses. -/

/-- A response: its Data blocks in order, and what it ends with, `None` or the exception of
    the server.  The answers to the server are taken by the connection. -/
inductive Response (cfg : Config) :
    Control → Bytes → List Block → Readout (Option Block) → Prop
  | finished {c : Control} {flat rest : Bytes} :
      packet cfg flat = (.ok .finished, rest) → Response cfg c flat [] (.ok none)
  | exception {c : Control} {flat rest : Bytes} {e : Error} :
      packet cfg flat = (.ok (.exception e), rest) → Response cfg c flat [] (.error (.error e))
  | block {c : Control} {flat rest : Bytes} {b : Block} {blocks : List Block}
      {ending : Readout (Option Block)} :
      packet cfg flat = (.ok (.block b), rest) → Response cfg c rest blocks ending →
      Response cfg c flat (b :: blocks) ending
  | skipped {c : Control} {flat rest : Bytes} {blocks : List Block}
      {ending : Readout (Option Block)} :
      packet cfg flat = (.ok .skipped, rest) → Response cfg c rest blocks ending →
      Response cfg c flat blocks ending
  | answered {c c' : Control} {flat rest : Bytes} {answer : Bytes}
      {blocks : List Block} {ending : Readout (Option Block)} :
      packet cfg flat = (.ok (.answered answer), rest) →
      Control.writeNative answer c = (.ok (), c') → Response cfg c' rest blocks ending →
      Response cfg c flat blocks ending

/-- The places a packet starts at, with the bytes from there on. -/
inductive Starts (cfg : Config) : Bytes → Bytes → Prop
  | here (flat : Bytes) : Starts cfg flat flat
  | next {flat rest start : Bytes} {p : Packet} :
      packet cfg flat = (.ok p, rest) → Starts cfg rest start → Starts cfg flat start

/-- A place of a packet the stream does not come back from, given by the bytes of the
    packet before it: inside the name of a compressed packet, or before one of the first
    two flags of a ProfileInfo packet that has the last two fields. -/
def fragile (cfg : Config) (arrived : Bytes) : Bool :=
  match parseVarint arrived with
  | (.ok packetType, body) =>
    if cfg.reply.compressed = true ∧ compressedType packetType = true then
      packetType ≠ 11 && !body.isEmpty && !(parseString body).1.isOk
    else packetType = 6 && rowsBeforeAggregation ≤ cfg.reply.rev && endsBeforeFlag body
  | _ => false

theorem cutBeforeFlag_of_not_fragile {q : QueryStream}
    (h : fragile q.bytes.cfg q.bytes.rest = false) : q.cutBeforeFlag = false := by
  unfold QueryStream.cutBeforeFlag
  split
  · rename_i body htype
    unfold fragile at h
    rw [htype] at h
    dsimp only at h
    rw [if_neg (fun hframed => by cases hframed.2)] at h
    exact h
  · rfl

/-- No piece ends at such a place of a packet of these bytes. -/
def Uncut (cfg : Config) (pieces : List Bytes) (flat : Bytes) : Prop :=
  ∀ start, Starts cfg flat start → ∀ after, after <:+ pieces →
    after.flatten.length < start.length →
    fragile cfg (start.take (start.length - after.flatten.length)) = false

/-- The place is not fragile, whichever of the pieces ends there. -/
def uncutAt (cfg : Config) (pieces : List Bytes) (start : Bytes) : Bool :=
  pieces.tails.all fun after =>
    start.length ≤ after.flatten.length ||
      !fragile cfg (start.take (start.length - after.flatten.length))

theorem not_fragile_of_uncutAt {start : Bytes} (h : uncutAt cfg pieces start = true) :
    ∀ after, after <:+ pieces → after.flatten.length < start.length →
      fragile cfg (start.take (start.length - after.flatten.length)) = false := by
  intro after hafter hless
  have hall := all_eq_true.mp h after ((mem_tails _ _).mpr hafter)
  rw [Bool.or_eq_true, decide_eq_true_eq, Bool.not_eq_true'] at hall
  exact hall.resolve_left (not_le.mpr hless)

variable {rest : Bytes}

theorem Uncut.of_packet {p : Packet} (h : uncutAt cfg pieces flat = true)
    (hpacket : packet cfg flat = (.ok p, rest)) (hrest : Uncut cfg pieces rest) :
    Uncut cfg pieces flat := by
  intro start hstart
  cases hstart with
  | here => exact not_fragile_of_uncutAt h
  | next hfirst hlater =>
    cases hpacket.symm.trans hfirst
    exact hrest start hlater

/-- Where the first packet cannot be read there is one start. -/
theorem Uncut.of_none (h : uncutAt cfg pieces flat = true)
    (hnone : ∀ p rest, packet cfg flat ≠ (.ok p, rest)) : Uncut cfg pieces flat := by
  intro start hstart
  cases hstart with
  | here => exact not_fragile_of_uncutAt h
  | next hfirst _ => exact absurd hfirst (hnone _ _)

theorem Uncut.next {flat : Bytes} {p : Packet} (h : Uncut cfg all flat)
    (hpacket : packet cfg flat = (.ok p, rest)) : Uncut cfg all rest :=
  fun start hstart => h start (.next hpacket hstart)

/-- Where a piece ends inside a packet, the packet has arrived up to there. -/
theorem Uncut.arrived (h : Uncut cfg all (rest ++ pieces.flatten)) (hsuffix : pieces <:+ all)
    (hne : rest ≠ []) : fragile cfg rest = false := by
  have hlen : 0 < rest.length := length_pos_iff.mpr hne
  have hfragile := h _ (.here _) pieces hsuffix (by rw [length_append]; omega)
  rwa [length_append, Nat.add_sub_cancel, take_left] at hfragile

/-! ## §3. A turn. -/

namespace QueryStream

variable {q : QueryStream} {n packetType : Nat} {body rest : Bytes} {p : Packet}

/-- The stream stands before these bytes, with so many pieces to come. -/
structure Stands (cfg : Config) (c : Control) (all : List Bytes) (n : Nat) (q : QueryStream)
    (flat : Bytes) : Prop where
  opened : q.done = false
  before : ∃ pieces, pieces <:+ all ∧ pieces.length = n ∧ Before cfg c pieces q.bytes flat

/-- The same with these pieces. -/
structure Ahead (cfg : Config) (c : Control) (all pieces : List Bytes) (q : QueryStream)
    (flat : Bytes) : Prop extends Before cfg c pieces q.bytes flat where
  opened : q.done = false
  suffix : pieces <:+ all

/-- What a turn does before a packet: it adds a piece, or it handles the packet. -/
inductive TurnOf (cfg : Config) (c : Control) (all : List Bytes) (n : Nat)
    (flat : Bytes) (p : Packet) (rest : Bytes) :
    Readout StreamTurn × QueryStream → Prop
  | more {q' : QueryStream} {m : Nat} : m < n → Stands cfg c all m q' flat →
      TurnOf cfg c all n flat p rest (.ok (.more ()), q')
  | handled {q' : QueryStream} {m : Nat} : m ≤ n → Stands cfg c all m q' rest →
      TurnOf cfg c all n flat p rest (handle p q')

theorem withPending_lock {σ τ α : Type} {r : σ → τ → Prop} {x : Read (Inflating σ) α}
    {y : Read (Inflating τ) α} (h : Lock (inflatingAlike r) x y) :
    Lock (inflatingAlike r) (withPending x) (withPending y) := by
  refine .bind h fun a => ?_
  rintro z _ ⟨t, hrel, rfl⟩
  exact ⟨rfl, t, hrel, rfl⟩

theorem onBytes_stands {α : Type} {x : Read StreamBytes α} {y : Read Slice α}
    (hlock : ∀ all, Lock (Among cfg c all) x y) (hstands : Stands cfg c all n q flat) {a : α}
    (hy : y flat = (.ok a, rest)) :
    ∃ q' m, onBytes x q = (.ok a, q') ∧ m ≤ n ∧ Stands cfg c all m q' rest := by
  obtain ⟨hopen, pieces, hsuffix, rfl, hbefore⟩ := hstands
  obtain ⟨hres, hrel⟩ := hlock pieces q.bytes flat ⟨pieces, suffix_rfl, hbefore⟩
  unfold onBytes
  rcases hx : x q.bytes with ⟨res, b⟩
  rw [hx, hy] at hres hrel
  obtain rfl : res = .ok a := hres
  obtain ⟨later, hlater, hafter⟩ := hrel
  exact ⟨_, later.length, rfl, hlater.length_le, hopen, later, hlater.trans hsuffix, rfl, hafter⟩

theorem fillBuffer_piece {piece : Bytes} (h : Ahead cfg c all (piece :: pieces) q flat) :
    ∃ q', fillBuffer q = (.ok (), q') ∧ q'.bytes.rest = q.bytes.rest ++ piece ∧ piece ≠ [] ∧
      Ahead cfg c all pieces q' flat := by
  obtain ⟨hne, t, hpull, hafter⟩ := h.pull
  refine ⟨⟨⟨q.bytes.cfg, q.bytes.rest ++ piece, t⟩, q.done⟩, ?_, rfl, hne, hafter, h.opened,
    List.IsSuffix.trans (suffix_cons piece pieces) h.suffix⟩
  unfold fillBuffer
  rw [hpull]

section Turn

variable (h : Ahead cfg c all pieces q flat)

include h

/-- Where more is to come, a packet that is not complete is waited for. -/
theorem fill_more (hmore : pieces.flatten ≠ []) :
    ∃ q', fillBuffer q = (.ok (), q') ∧ q.bytes.rest.length < q'.bytes.rest.length ∧
      ∃ m, m < pieces.length ∧ Stands cfg c all m q' flat := by
  rcases pieces with _ | ⟨piece, pieces⟩
  · exact absurd rfl hmore
  obtain ⟨q', hfill, hrest, hne, hafter⟩ := fillBuffer_piece h
  refine ⟨q', hfill, ?_, pieces.length, Nat.lt_succ_self _, hafter.opened, pieces, hafter.suffix,
    rfl, hafter.toBefore⟩
  rw [hrest, length_append]
  have hpos : 0 < piece.length := length_pos_iff.mpr hne
  omega

theorem stands_moved (rest : Bytes) :
    Stands cfg c all pieces.length (q.moved rest) (rest ++ pieces.flatten) :=
  ⟨h.opened, pieces, h.suffix, rfl, h.config, h.control, h.pulls, rfl⟩

/-- The name of a compressed packet, where no piece ends inside it. -/
theorem compressedName_stands (huncut : Uncut cfg all flat)
    (htype : parseVarint q.bytes.rest = (.ok packetType, body))
    (hframed : cfg.reply.compressed = true ∧ compressedType packetType = true)
    (hnamed : packetType ≠ 11) {name : Text}
    (hname : parseString (body ++ pieces.flatten) = (.ok name, rest)) :
    ∃ q' m, compressedName (q.moved body) = (.ok (), q') ∧ m ≤ pieces.length ∧
      Stands cfg c all m q' rest := by
  -- at a fragile place the packet has not arrived
  have hfragile : ∀ {arrived body : Bytes}, parseVarint arrived = (.ok packetType, body) →
      body ≠ [] → (∃ e r, parseString body = (.error e, r)) → fragile cfg arrived = true := by
    intro arrived body hrun hne ⟨e, r, hfails⟩
    unfold fragile
    rw [hrun]
    dsimp only
    rw [if_pos hframed, hfails]
    simp [hnamed, hne, Except.isOk, Except.toBool]
  have hstart : q.bytes.rest ≠ [] := by
    intro hnil
    rw [hnil] at htype
    cases htype
  have hflat := h.bytes
  unfold compressedName
  obtain ⟨rest', hrun, rfl⟩ | ⟨msg, rest', hrun, _⟩ := parseString_cut.cases hname
  · refine ⟨(q.moved body).moved rest', pieces.length, ?_, le_rfl, stands_moved h rest'⟩
    rw [show parseString (q.moved body).bytes.rest = (.ok name, rest') from hrun]
  · -- the piece before has ended behind the packet type
    have hbody : body = [] := by
      by_contra hne
      rw [hflat] at huncut
      have hclear := huncut.arrived h.suffix hstart
      rw [hfragile htype hne ⟨_, _, hrun⟩] at hclear
      cases hclear
    subst hbody
    have hempty : parseString [] = (.error (.error (.text
        "unexpected end of buffer parsing varint")), []) := rfl
    rw [show parseString (q.moved []).bytes.rest = _ from hempty]
    dsimp only
    rcases pieces with _ | ⟨piece, pieces⟩
    · cases hname
    have hmoved : Ahead cfg c all (piece :: pieces) ((q.moved []).moved [])
        (piece :: pieces).flatten := ⟨⟨h.config, h.control, h.pulls, rfl⟩, h.opened, h.suffix⟩
    obtain ⟨q', hfill, hrest, hne, hafter⟩ := fillBuffer_piece hmoved
    have hpiece : q'.bytes.rest = piece := hrest
    have hwhole : parseString (piece ++ pieces.flatten) = (.ok name, rest) := by
      exact hname
    rw [hfill]
    dsimp only
    rw [hpiece]
    obtain ⟨rest', hrun, rfl⟩ | ⟨msg, rest', hrun, _⟩ := parseString_cut.cases hwhole
    · refine ⟨q'.moved rest', pieces.length, ?_, Nat.le_succ _, stands_moved hafter rest'⟩
      rw [hrun]
    have hsplit : flat = (q.bytes.rest ++ piece) ++ pieces.flatten := by
      rw [hflat, flatten_cons, append_assoc]
    rw [hsplit] at huncut
    have hclear := huncut.arrived hafter.suffix (append_ne_nil_of_left_ne_nil hstart _)
    rw [hfragile (parseVarint_cut.extend htype piece) hne ⟨_, _, hrun⟩] at hclear
    cases hclear

theorem compressedPacket_turn (huncut : Uncut cfg all flat)
    (htype : parseVarint q.bytes.rest = (.ok packetType, body))
    (hframed : cfg.reply.compressed = true ∧ compressedType packetType = true)
    (hpacket : framedPacket cfg packetType (body ++ pieces.flatten) = (.ok p, rest)) :
    TurnOf cfg c all pieces.length flat p rest (compressedPacket packetType (q.moved body)) := by
  have hcfg : (q.moved body).bytes.cfg = cfg := h.config
  unfold compressedPacket
  unfold framedPacket at hpacket
  by_cases hcolumns : packetType = 11
  · rw [if_pos hcolumns] at hpacket ⊢
    obtain ⟨_, r, hread, hdone⟩ := bind_eq_ok_iff.mp hpacket
    cases hdone
    have hlock : ∀ all, Lock (Among cfg c all) (decompressing cfg.env readTableColumns)
        (decompressing cfg.env readTableColumns) := fun all =>
      decompressing_lock (readsAlike_bytes cfg c all) _
        (readTableColumns_lock (readsAlike_inflating (readsAlike_bytes cfg c all)))
    obtain ⟨q', m, hrun, hm, hstands⟩ :=
      onBytes_stands hlock (stands_moved h body) hread
    have hcall : readCompressedTableColumns (q.moved body) = (.ok (), q') := by
      unfold readCompressedTableColumns
      rw [hcfg, hrun]
    rw [bind_ok hcall]
    exact .handled hm hstands
  · rw [if_neg hcolumns] at hpacket ⊢
    obtain ⟨name, r₁, hname, hpacket⟩ := bind_eq_ok_iff.mp hpacket
    obtain ⟨out, r₂, hread, hpacket⟩ := bind_eq_ok_iff.mp hpacket
    obtain ⟨_, r₃, hfront, hpacket⟩ := bind_eq_ok_iff.mp hpacket
    cases hfront
    cases hpacket
    have hlock : ∀ all, Lock (Among cfg c all)
        (decompressing cfg.env (withPending (readBlockBody cfg.env.depth)))
        (decompressing cfg.env (withPending (readBlockBody cfg.env.depth))) := fun all =>
      decompressing_lock (readsAlike_bytes cfg c all) _ (withPending_lock
        (readBlockBody_lock (readsAlike_inflating (readsAlike_bytes cfg c all)) _))
    obtain ⟨q₁, m₁, hrun₁, hm₁, hstands₁⟩ :=
      compressedName_stands h huncut htype hframed hcolumns hname
    obtain ⟨q₂, m₂, hrun₂, hm₂, hstands₂⟩ := onBytes_stands hlock hstands₁ hread
    have hcall : readCompressedBlock (q.moved body)
        = (.ok out.1, q₂.moved (out.2 ++ q₂.bytes.rest)) := by
      unfold readCompressedBlock
      rw [hcfg, bind_ok hrun₁, bind_ok hrun₂]
      rfl
    have hstands : Stands cfg c all m₂ (q₂.moved (out.2 ++ q₂.bytes.rest)) (out.2 ++ r₂) := by
      obtain ⟨hopen₂, later, hlater, hlen, hbefore⟩ := hstands₂
      refine ⟨hopen₂, later, hlater, hlen, hbefore.config, hbefore.control, hbefore.pulls, ?_⟩
      rw [hbefore.bytes]
      exact (append_assoc _ _ _).symm
    rw [bind_ok hcall]
    have hm : m₂ ≤ pieces.length := le_trans hm₂ hm₁
    by_cases hdata : packetType = 1
    · rw [if_pos hdata, if_pos hdata]
      exact .handled hm hstands
    · rw [if_neg hdata, if_neg hdata]
      exact .handled hm hstands

end Turn

/-- **One turn before a packet**: the packet is handled, or a piece is added. -/
theorem turn_packet (hstands : Stands cfg c all n q flat) (huncut : Uncut cfg all flat)
    (hpacket : packet cfg flat = (.ok p, rest)) :
    TurnOf cfg c all n flat p rest (turn q) := by
  obtain ⟨hopen, pieces, hsuffix, rfl, hbefore⟩ := hstands
  have h : Ahead cfg c all pieces q flat := ⟨hbefore, hopen, hsuffix⟩
  by_cases hframed : Framed q
  · obtain ⟨hcompressed, packetType, body, htype, htagged⟩ := hframed
    have hboth : cfg.reply.compressed = true ∧ compressedType packetType = true :=
      ⟨hbefore.config ▸ hcompressed, htagged⟩
    have hbehind : framedPacket cfg packetType (body ++ pieces.flatten) = (.ok p, rest) := by
      rw [hbefore.bytes] at hpacket
      unfold packet at hpacket
      rwa [bind_ok (parseVarint_cut.extend htype _), if_pos hboth] at hpacket
    rw [turn_framed htype (by rwa [hbefore.config])]
    exact compressedPacket_turn h huncut htype hboth hbehind
  rw [hbefore.bytes, ← hbefore.config] at hpacket
  obtain ⟨rest', hreads, rfl⟩ | ⟨hlacks, hmore⟩ := buffered_cut hframed hpacket
  · rw [turn_reads hreads]
    exact .handled le_rfl (stands_moved h rest')
  · obtain ⟨q', hfill, hlonger, m, hm, hstands⟩ := fill_more h hmore
    have hclear : q.cutBeforeFlag = false := by
      by_cases hempty : q.bytes.rest = []
      · unfold cutBeforeFlag
        rw [hempty]
        rfl
      rw [hbefore.bytes] at huncut
      exact cutBeforeFlag_of_not_fragile (hbefore.config ▸ huncut.arrived hsuffix hempty)
    rw [turn_waits hlacks hclear hfill fun _ => .inl (ne_of_gt hlonger)]
    exact .more hm hstands

/-! ## §4. The calls. -/

/-- The stream after something has been written. -/
def withControl (q : QueryStream) (c : Control) : QueryStream :=
  { q with bytes := { q.bytes with transport := { q.bytes.transport with control := c } } }

/-- The loop of `read_next_block`. -/
def reading (fuel : Nat) : Read QueryStream (Option Block) := loop (fun _ => turn) fuel ()

/-- The loop after a turn. -/
def afterTurn (fuel : Nat) : StreamTurn → Read QueryStream (Option Block)
  | .more () => reading fuel
  | .done result => return result

theorem reading_succ (fuel : Nat) (q : QueryStream) :
    reading (fuel + 1) q = (turn >>= afterTurn fuel) q := by
  show (loop (fun _ => turn) (fuel + 1) () : Read QueryStream (Option Block)) q = _
  unfold loop
  rw [bind_apply, bind_apply]
  cases turn q with
  | mk res q' =>
    cases res with
    | error e => rfl
    | ok t => cases t <;> rfl

/-- **The loop before a packet** reads the pieces it needs and handles the packet. -/
theorem reading_packet : ∀ (n : Nat) {q : QueryStream}, Stands cfg c all n q flat →
    Uncut cfg all flat → packet cfg flat = (.ok p, rest) →
    ∃ k m q', m ≤ n ∧ Stands cfg c all m q' rest ∧
      ∀ fuel, reading (fuel + k + 1) q = (handle p >>= afterTurn fuel) q' := by
  intro n
  induction n using Nat.strong_induction_on with
  | _ n ih =>
    intro q hstands huncut hpacket
    have hturn := turn_packet hstands huncut hpacket
    generalize hout : turn q = out at hturn
    cases hturn with
    | @more q₁ m hm hstands₁ =>
      obtain ⟨k, m', q', hm', hstands', hrun⟩ := ih m hm hstands₁ huncut hpacket
      refine ⟨k + 1, m', q', by omega, hstands', fun fuel => ?_⟩
      rw [← Nat.add_assoc, reading_succ, bind_ok hout]
      exact hrun fuel
    | @handled q' m hm hstands' =>
      refine ⟨0, m, q', hm, hstands', fun fuel => ?_⟩
      rw [Nat.add_zero, reading_succ, bind_apply, hout]
      rfl

/-- The results of calls, each with so many turns. -/
def results (fuel : Nat) : Nat → QueryStream → List (Readout (Option Block))
  | 0, _ => []
  | n + 1, q => (readNextBlock fuel q).1 :: results fuel n (readNextBlock fuel q).2

/-- What a response makes the calls return. -/
def returned (blocks : List Block) (ending : Readout (Option Block)) :
    List (Readout (Option Block)) :=
  blocks.map (fun b => .ok (some b)) ++ [ending]

/-- The results of calls, the first of which is inside its loop. -/
def resultsFrom (first fuel : Nat) : Nat → QueryStream → List (Readout (Option Block))
  | 0, _ => []
  | n + 1, q => (reading first q).1 :: results fuel n (reading first q).2

/-- What the calls return from before these bytes on, once they have turns enough. -/
def Yields (cfg : Config) (c : Control) (all : List Bytes) (flat : Bytes)
    (outcomes : List (Readout (Option Block))) : Prop :=
  ∀ (n : Nat) (q : QueryStream), Stands cfg c all n q flat → Uncut cfg all flat →
    ∃ enough, ∀ first, enough ≤ first → ∀ fuel, enough ≤ fuel →
      resultsFrom first fuel outcomes.length q = outcomes

section Yields

variable {c' : Control} {r : Readout (Option Block)}
  {outcomes : List (Readout (Option Block))}

theorem results_open (hopen : q.done = false) (fuel n : Nat) :
    results fuel n q = resultsFrom fuel fuel n q := by
  rcases n with _ | n
  · rfl
  have hcall : readNextBlock fuel q = reading fuel q := by
    unfold readNextBlock
    rw [hopen]
    rfl
  rw [results, resultsFrom, hcall]

theorem results_done (hdone : q.done = true) (fuel n : Nat) :
    results fuel n q = List.replicate n (.ok none) := by
  induction n with
  | zero => rfl
  | succ n ih =>
    have hcall : readNextBlock fuel q = (.ok none, q) := by
      unfold readNextBlock
      rw [hdone]
      rfl
    rw [results, hcall, ih, replicate_succ]

theorem Yields.last (hpacket : packet cfg flat = (.ok p, rest))
    (hhandle : ∀ q', ∃ q'', q''.done = true ∧ ∀ fuel, (handle p >>= afterTurn fuel) q' = (r, q''))
    (n : Nat) : Yields cfg c all flat (r :: List.replicate n (.ok none)) := by
  intro m q hstands huncut
  obtain ⟨k, _, q', _, _, hrun⟩ := reading_packet m hstands huncut hpacket
  obtain ⟨q'', hdone, hresult⟩ := hhandle q'
  refine ⟨k + 1, fun first hfirst fuel _ => ?_⟩
  obtain ⟨first, rfl⟩ := Nat.exists_eq_add_of_le' hfirst
  rw [length_cons, length_replicate, resultsFrom, ← Nat.add_assoc, hrun, hresult,
    results_done hdone]

/-- A packet with which a call returns; the next call goes on behind it. -/
theorem Yields.block {b : Block} (hpacket : packet cfg flat = (.ok (.block b), rest))
    (hlater : Yields cfg c all rest outcomes) :
    Yields cfg c all flat (.ok (some b) :: outcomes) := by
  intro n q hstands huncut
  obtain ⟨k, m, q', _, hstands', hrun⟩ := reading_packet n hstands huncut hpacket
  obtain ⟨enough, hnext⟩ := hlater _ _ hstands' (huncut.next hpacket)
  refine ⟨enough + k + 1, fun first hfirst fuel hfuel => ?_⟩
  obtain ⟨first, rfl⟩ := Nat.exists_eq_add_of_le' (Nat.le_trans (by omega : k + 1 ≤ _) hfirst)
  have hresult : (handle (.block b) >>= afterTurn first) q' = (.ok (some b), q') := rfl
  rw [length_cons, resultsFrom, ← Nat.add_assoc, hrun, hresult,
    results_open hstands'.opened, hnext fuel (by omega) fuel (by omega)]

theorem Yields.continues (hpacket : packet cfg flat = (.ok p, rest))
    (hhandle : ∀ {m : Nat} {q' : QueryStream}, Stands cfg c all m q' rest →
      ∃ q'', Stands cfg c' all m q'' rest ∧
        ∀ fuel, (handle p >>= afterTurn fuel) q' = reading fuel q'')
    (hlater : Yields cfg c' all rest outcomes) : Yields cfg c all flat outcomes := by
  intro n q hstands huncut
  obtain ⟨k, m, q', _, hstands', hrun⟩ := reading_packet n hstands huncut hpacket
  obtain ⟨q'', hstands'', hresult⟩ := hhandle hstands'
  obtain ⟨enough, hnext⟩ := hlater _ _ hstands'' (huncut.next hpacket)
  refine ⟨enough + k + 1, fun first hfirst fuel hfuel => ?_⟩
  obtain ⟨first, rfl⟩ := Nat.exists_eq_add_of_le' (le_trans (by omega : k + 1 ≤ _) hfirst)
  have hsame : reading (first + (k + 1)) q = reading first q'' := by
    rw [← Nat.add_assoc, hrun, hresult]
  have hfrom := hnext first (by omega) fuel (by omega)
  rcases outcomes with _ | ⟨r, outcomes⟩
  · rfl
  rw [length_cons, resultsFrom] at hfrom ⊢
  rw [hsame]
  exact hfrom

theorem stands_written {m : Nat} {q' : QueryStream} {answer : Bytes}
    {res : Readout Unit} (hwrite : Control.writeNative answer c = (res, c'))
    (hstands : Stands cfg c all m q' rest) :
    onControl (Control.writeNative answer) q' = (res, q'.withControl c') ∧
      Stands cfg c' all m (q'.withControl c') rest := by
  obtain ⟨hopen, pieces, hsuffix, hlen, hbefore⟩ := hstands
  refine ⟨?_, hopen, pieces, hsuffix, hlen, hbefore.config, rfl, hbefore.pulls.withControl c',
    hbefore.bytes⟩
  unfold onControl Transport.onControl
  rw [hbefore.control, hwrite]
  rfl

theorem Yields.answered {answer : Bytes}
    (hpacket : packet cfg flat = (.ok (.answered answer), rest))
    (hwrite : Control.writeNative answer c = (.ok (), c'))
    (hlater : Yields cfg c' all rest outcomes) : Yields cfg c all flat outcomes := by
  refine .continues hpacket (fun {m q'} hstands => ?_) hlater
  obtain ⟨htaken, hstands'⟩ := stands_written hwrite hstands
  refine ⟨_, hstands', fun fuel => ?_⟩
  show ((onControl (Control.writeNative answer) >>= fun _ => pure (Turn.more ())) >>= _) q' = _
  rw [bind_apply, bind_ok htaken]
  rfl

end Yields

/-- **The results of a response.** -/
theorem yields_response {blocks : List Block} {ending : Readout (Option Block)}
    (hresponse : Response cfg c flat blocks ending) :
    Yields cfg c all flat (returned blocks ending) := by
  induction hresponse with
  | finished hpacket | exception hpacket => exact .last hpacket (fun q' => ⟨_, rfl, fun _ => rfl⟩) 0
  | block hpacket _ ih => exact .block hpacket ih
  | skipped hpacket _ ih =>
    exact .continues hpacket (fun {_ q'} hstands => ⟨q', hstands, fun _ => rfl⟩) ih
  | answered hpacket hwrite _ ih => exact .answered hpacket hwrite ih

/-- **The results do not depend on how the bytes are split**: whatever the pieces, as long
    as none ends at a fragile place of a packet, the calls return the blocks of the response
    in order, and then its end. -/
theorem stream_of_response {t : Transport} {pieces : List Bytes} {blocks : List Block}
    {ending : Readout (Option Block)} (hpulls : Pulls cfg t pieces)
    (hresponse : Response cfg t.control pieces.flatten blocks ending)
    (huncut : Uncut cfg pieces pieces.flatten) :
    ∃ enough, ∀ fuel, enough ≤ fuel →
      results fuel (blocks.length + 1) (new cfg t) = returned blocks ending := by
  have hstands : Stands cfg t.control pieces pieces.length (new cfg t) pieces.flatten :=
    ⟨rfl, pieces, suffix_rfl, rfl, rfl, rfl, hpulls, rfl⟩
  obtain ⟨enough, hrun⟩ := yields_response hresponse _ _ hstands huncut
  refine ⟨enough, fun fuel hfuel => ?_⟩
  have hlen : (returned blocks ending).length = blocks.length + 1 := by simp [returned]
  rw [results_open rfl, ← hlen]
  exact hrun fuel hfuel fuel hfuel

/-- A client of a current server, without compression and without chunks. -/
def streamConfig : Config := ⟨⟨copyCodec, 6⟩, 8, ⟨54483, false⟩, false, 8192, 1000⟩

/-- The block of one row, a ProfileInfo packet and the end, cut inside the block and inside
    the ProfileInfo packet. -/
theorem stream_of_response_cut : ∃ enough, ∀ fuel, enough ≤ fuel →
    results fuel 2 (new streamConfig (openSocket [.bytes 1 [0, 0, 1, 1, 1, 120],
        .bytes 5 [85, 73, 110, 116], .bytes 56 [0, 7, 6, 1], .bytes 1 [1, 0],
        .bytes 1 [0, 0, 0, 5]]))
      = returned [⟨[⟨"x".toList, "UInt8".toList, [7]⟩], 1⟩] (.ok none) := by
  have hblock : packet streamConfig
      [1, 0, 0, 1, 1, 1, 120, 5, 85, 73, 110, 116, 56, 0, 7, 6, 1, 1, 1, 0, 1, 0, 0, 0, 5]
      = (.ok (.block ⟨[⟨"x".toList, "UInt8".toList, [7]⟩], 1⟩), [6, 1, 1, 1, 0, 1, 0, 0, 0, 5]) := by
    decide +kernel
  have hprofile : packet streamConfig [6, 1, 1, 1, 0, 1, 0, 0, 0, 5] = (.ok .skipped, [5]) := by
    decide +kernel
  have hend : packet streamConfig [5] = (.ok .finished, []) := by
    decide +kernel
  have hfinal : pull streamConfig (openSocket []) = (endPull streamConfig, openSocket []) := rfl
  refine @stream_of_response streamConfig _
    [[1, 0, 0, 1, 1, 1, 120], [5, 85, 73, 110, 116], [56, 0, 7, 6, 1], [1, 1, 0], [1, 0, 0, 0, 5]]
    _ _ (.more rfl (.more rfl (.more rfl (.more rfl (.more rfl (.done ⟨_, hfinal, hfinal⟩))))))
    (.block hblock (.skipped hprofile (.finished hend))) ?_
  exact .of_packet (by decide +kernel) hblock (.of_packet (by decide +kernel) hprofile
    (.of_packet (by decide +kernel) hend (.of_none (by decide +kernel) nofun)))

/-- **A ProfileInfo packet that is cut behind its third number** is read again from its
    start, but for its last two fields only: the rest of it is taken for a block of five
    rows without columns.  In one piece it is passed over. -/
theorem profileInfo_cut_differs :
    (results 8 1 (new streamConfig (openSocket [.bytes 6 [1, 1, 1, 0, 1, 0, 0, 0, 5]]))
        = [.ok none]) ∧
      results 8 1 (new streamConfig (openSocket [.bytes 6 [1, 1, 1], .bytes 0 [1, 0, 0, 0, 5]]))
        = [.ok (some ⟨[], 5⟩)] := by
  decide +kernel

end QueryStream

end Sync

end StClickHouse
