/-
  StClickHouse.Sync.Pieces
  **THE PIECES A STREAMED RESPONSE IS READ IN.**

  A stream gets its bytes piece by piece: what one read returns, or the payload of a chunk.
  `Pulls` says which pieces a socket is read in.  A piece is never empty, and reading one
  does not look at what the client has written.
-/
import StClickHouse.Sync.QueryStream

namespace StClickHouse

open ByteReader RustText List

namespace Sync

/-! ## §1. Pieces. -/

/-- What a read at the end of the stream gives. -/
def endPull (cfg : Config) : Pull :=
  if cfg.chunkedRecv then .failed (.error (.io .unexpectedEof)) else .closed

/-- The stream has nothing more to read, empty chunks apart. -/
def AtEnd (cfg : Config) (t : Transport) : Prop :=
  ∃ t', pull cfg t = (endPull cfg, t') ∧ pull cfg t' = (endPull cfg, t')

/-- The pieces the socket is read in. -/
inductive Pulls (cfg : Config) : Transport → List Bytes → Prop
  | done {t : Transport} : AtEnd cfg t → Pulls cfg t []
  | more {t t' : Transport} {piece : Bytes} {pieces : List Bytes} :
      pull cfg t = (.bytes piece, t') → Pulls cfg t' pieces → Pulls cfg t (piece :: pieces)

/-- What depends on what arrives alone, and leaves the rest of the socket as it is. -/
def Blind {β : Type} (f : Transport → β × Transport) : Prop :=
  ∀ arrivals, ∃ b arrivals', ∀ c, f ⟨arrivals, c⟩ = (b, ⟨arrivals', c⟩)

theorem read_blind (room : Nat) : Blind (Transport.read room) := by
  intro arrivals
  cases arrivals with
  | nil => exact ⟨_, _, fun _ => rfl⟩
  | cons seg later => cases seg <;> exact ⟨_, _, fun _ => rfl⟩

/-- `read_exact` with and without the bytes of a read that fails. -/
theorem readExactBy_eq_readInto : ∀ fuel n t, readExactBy Transport.read fuel n t
    = match readInto fuel n t with
      | (.ok (), got, t') => (.ok got, t')
      | (.error e, _, t') => (.error e, t') := by
  intro fuel
  induction fuel with
  | zero =>
    intro n t
    cases n <;> rfl
  | succ fuel ih =>
    intro n t
    rcases n with _ | n
    · rfl
    unfold readExactBy readInto
    rw [bind_apply]
    rcases Transport.read (n + 1) t with ⟨res, t₁⟩
    rcases res with e | got
    · rfl
    rcases got with _ | ⟨b, bs⟩
    · rfl
    dsimp only
    rw [if_neg (cons_ne_nil b bs), bind_apply, ih]
    rcases readInto fuel (n + 1 - (b :: bs).length) t₁ with ⟨res, more, t₂⟩
    cases res <;> rfl

theorem readInto_blind : ∀ fuel n arrivals, ∃ res got arrivals',
    ∀ c, readInto fuel n ⟨arrivals, c⟩ = (res, got, ⟨arrivals', c⟩) := by
  intro fuel
  induction fuel with
  | zero =>
    intro n arrivals
    cases n <;> exact ⟨_, _, _, fun _ => rfl⟩
  | succ fuel ih =>
    intro n arrivals
    rcases n with _ | n
    · exact ⟨_, _, _, fun _ => rfl⟩
    obtain ⟨res, arrivals₁, hread⟩ := read_blind (n + 1) arrivals
    unfold readInto
    rcases res with e | got
    · refine ⟨.error e, [], arrivals₁, fun c => ?_⟩
      rw [hread c]
    rcases got with _ | ⟨b, bs⟩
    · refine ⟨.error (.error (.io .unexpectedEof)), [], arrivals₁, fun c => ?_⟩
      rw [hread c]
    obtain ⟨res, more, arrivals₂, hrest⟩ :=
      ih (n + 1 - (b :: bs).length) arrivals₁
    refine ⟨res, (b :: bs) ++ more, arrivals₂, fun c => ?_⟩
    rw [hread c]
    dsimp only
    rw [hrest c]

theorem pullChunk_blind : ∀ turns, Blind (pullChunk turns) := by
  intro turns
  induction turns with
  | zero => exact fun _ => ⟨_, _, fun _ => rfl⟩
  | succ turns ih =>
    intro arrivals
    obtain ⟨res, header, arrivals₁, hread⟩ := readInto_blind 4 4 arrivals
    have hheader : ∀ c, (readExact 4 : Read Transport Bytes) ⟨arrivals, c⟩
        = (res.map fun _ => header, ⟨arrivals₁, c⟩) := by
      intro c
      show readExactBy Transport.read 4 4 ⟨arrivals, c⟩ = _
      rw [readExactBy_eq_readInto, hread c]
      cases res <;> rfl
    unfold pullChunk
    rcases res with e | _
    · refine ⟨.failed e, arrivals₁, fun c => ?_⟩
      rw [hheader c]
      rfl
    have hheader : ∀ c, (readExact 4 : Read Transport Bytes) ⟨arrivals, c⟩
        = (.ok header, ⟨arrivals₁, c⟩) := hheader
    by_cases hzero : leNat header = 0
    · obtain ⟨p, arrivals₂, hrest⟩ := ih arrivals₁
      refine ⟨p, arrivals₂, fun c => ?_⟩
      rw [hheader c]
      dsimp only
      rw [if_pos hzero, hrest c]
    by_cases hlong : leNat header > maxChunkLen
    · refine ⟨.tooLong (leNat header), arrivals₁, fun c => ?_⟩
      rw [hheader c]
      dsimp only
      rw [if_neg hzero, if_pos hlong]
    obtain ⟨res, got, arrivals₂, hinto⟩ :=
      readInto_blind (leNat header) (leNat header) arrivals₁
    cases res with
    | ok _ =>
      refine ⟨.bytes got, arrivals₂, fun c => ?_⟩
      rw [hheader c]
      dsimp only
      rw [if_neg hzero, if_neg hlong, hinto c]
    | error e =>
      refine ⟨.torn (got ++ .replicate (leNat header - got.length) 0) e, arrivals₂,
        fun c => ?_⟩
      rw [hheader c]
      dsimp only
      rw [if_neg hzero, if_neg hlong, hinto c]

theorem pull_blind (cfg : Config) : Blind (pull cfg) := by
  intro arrivals
  unfold pull
  by_cases hchunked : cfg.chunkedRecv = true
  · obtain ⟨p, arrivals', hpull⟩ := pullChunk_blind cfg.fuel arrivals
    refine ⟨p, arrivals', fun c => ?_⟩
    rw [if_pos hchunked, hpull c]
  obtain ⟨res, arrivals', hread⟩ := read_blind cfg.readBufferSize arrivals
  rcases res with e | got
  · refine ⟨.failed e, arrivals', fun c => ?_⟩
    rw [if_neg hchunked, hread c]
  rcases got with _ | ⟨b, bs⟩
  · refine ⟨.closed, arrivals', fun c => ?_⟩
    rw [if_neg hchunked, hread c]
  refine ⟨.bytes (b :: bs), arrivals', fun c => ?_⟩
  rw [if_neg hchunked, hread c]

variable {cfg : Config} {t t' : Transport}

theorem pull_withControl {p : Pull} (h : pull cfg t = (p, t')) (c : Control) :
    pull cfg { t with control := c } = (p, { t' with control := c }) := by
  obtain ⟨p', arrivals', hpull⟩ := pull_blind cfg t.arrivals
  have hsame : pull cfg t = (p', ⟨arrivals', t.control⟩) := hpull t.control
  rw [hsame] at h
  cases h
  exact hpull c

theorem pull_control {p : Pull} (h : pull cfg t = (p, t')) :
    t'.control = t.control :=
  congrArg (fun run => run.2.control) (h.symm.trans (pull_withControl h t.control))

theorem Pulls.withControl {pieces : List Bytes} (h : Pulls cfg t pieces) (c : Control) :
    Pulls cfg { t with control := c } pieces := by
  induction h with
  | @done t hend =>
    obtain ⟨t', hend, hstays⟩ := hend
    exact .done ⟨{ t' with control := c }, pull_withControl hend c, pull_withControl hstays c⟩
  | @more t t' piece pieces hmore _ ih =>
    exact .more (pull_withControl hmore c) ih

theorem readInto_length {fuel n : Nat} {got : Bytes} :
    readInto fuel n t = (.ok (), got, t') → n ≤ got.length := by
  induction fuel generalizing n t t' got with
  | zero =>
    intro h
    cases n with
    | zero => exact Nat.zero_le _
    | succ n => cases h
  | succ fuel ih =>
    intro h
    rcases n with _ | n
    · exact Nat.zero_le _
    unfold readInto at h
    split at h
    · cases h
    · rename_i b bs t₁ _
      rcases hrest : readInto fuel (n + 1 - (b :: bs).length) t₁ with ⟨res, out⟩
      rw [hrest] at h
      cases h
      have hlen := ih hrest
      rw [length_append]
      omega
    · cases h

theorem pullChunk_ne_nil : ∀ {turns : Nat} {t t' : Transport} {piece : Bytes},
    pullChunk turns t = (.bytes piece, t') → piece ≠ [] := by
  intro turns
  induction turns with
  | zero =>
    nofun
  | succ turns ih =>
    intro t t' piece h
    unfold pullChunk at h
    split at h
    · cases h
    · rename_i header t₁ _
      split at h
      · exact ih h
      · rename_i hzero
        split at h
        · cases h
        split at h
        · rename_i got t₂ hinto
          cases h
          have hlen := readInto_length hinto
          intro hnil
          rw [hnil, length_nil] at hlen
          omega
        · cases h

theorem pull_ne_nil {piece : Bytes} (h : pull cfg t = (.bytes piece, t')) : piece ≠ [] := by
  unfold pull at h
  split at h
  · exact pullChunk_ne_nil h
  · split at h <;> cases h
    exact cons_ne_nil _ _

end Sync

end StClickHouse
