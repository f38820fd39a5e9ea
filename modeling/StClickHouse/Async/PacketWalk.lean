/-
  StClickHouse.Async.PacketWalk
  **READ THROUGH TO THE END.**

  The response loops of the client have one shape: a header, the body of a packet
  that does not end the response, and the two packets that do, EndOfStream and
  Exception.  For that shape this module says when a loop that has returned has read
  the response through.
-/
import StClickHouse.Async.Packets

namespace StClickHouse

open ByteReader RustText

/-- A response loop. -/
structure PacketWalk (H R : Type) where
  header : Read Net Nat
  /-- The packets that do not end the response. -/
  body : Nat → H → Read Net (Turn H R)
  /-- The packet types whose errors are dropped. -/
  lenient : Nat → Bool
  /-- The result at EndOfStream. -/
  finish : H → Result R

namespace PacketWalk

variable {H R : Type}

/-- A dropped error: the loop goes on as it was. -/
def orGoOn (h : H) : Result (Turn H R) → Turn H R
  | .ok t => t
  | .error _ => .more h

/-- One packet. -/
def turn (w : PacketWalk H R) (h : H) : Read Net (Turn H R) := do
  match ← w.header with
  | 5 => do
    let r ← liftExcept (w.finish h)
    return .done r
  | 2 => do
    let e ← readException
    fail e
  | packetType =>
    if w.lenient packetType then do
      let t ← attempt (w.body packetType h)
      return orGoOn h t
    else w.body packetType h

variable {w : PacketWalk H R} {h : H} {s s₁ s' : Net} {packetType : Nat}

theorem turn_body (hheader : w.header s = (.ok packetType, s₁)) (hne5 : packetType ≠ 5)
    (hne2 : packetType ≠ 2) (hstrict : w.lenient packetType = false) :
    w.turn h s = w.body packetType h s₁ := by
  unfold turn
  rw [bind_ok hheader]
  split
  · exact absurd rfl hne5
  · exact absurd rfl hne2
  · rw [if_neg (by rw [hstrict]; decide)]

theorem turn_endOfStream (hheader : w.header s = (.ok 5, s₁)) :
    w.turn h s = (liftExcept (w.finish h) >>= fun r => pure (.done r)) s₁ := by
  unfold turn
  rw [bind_ok hheader]
  rfl

theorem turn_exception {s₂ : Net} {e : Error} (hheader : w.header s = (.ok 2, s₁))
    (hread : readException s₁ = (.ok e, s₂)) :
    w.turn h s = (.error (.error e), s₂) := by
  unfold turn
  rw [bind_ok hheader]
  show (readException >>= fun e => fail e) s₁ = _
  rw [bind_ok hread]
  rfl

/-- Packets that decode one after the other. -/
inductive Passed (w : PacketWalk H R) : H → Net → H → Net → Prop
  | refl (h : H) (s : Net) : Passed w h s h s
  | packet {packetType : Nat} {h h₁ h₂ : H} {s s₁ s₂ s₃ : Net} :
      w.header s = (.ok packetType, s₁) → packetType ≠ 5 → packetType ≠ 2 →
      w.body packetType h s₁ = (.ok (.more h₁), s₂) → Passed w h₁ s₂ h₂ s₃ → Passed w h s h₂ s₃

/-- The packet that ends the response: EndOfStream, or an exception chain. -/
def Ends (w : PacketWalk H R) (s s' : Net) : Prop :=
  w.header s = (.ok 5, s') ∨
    ∃ s₁ e, w.header s = (.ok 2, s₁) ∧ readException s₁ = (.ok e, s')

/-- The response is read through its terminal packet. -/
def ReadThrough (w : PacketWalk H R) (h : H) (s s' : Net) : Prop :=
  ∃ h₁ s₁, Passed w h s h₁ s₁ ∧ w.Ends s₁ s'

/-- A read succeeds, or fails in a way that breaks the connection. -/
def OrBreaks {α : Type} (x : Readout α × Net) : Prop :=
  ∀ e, x.1 = .error (.error e) → e.isBrokenConnection = true

/-- **The condition**: wherever decoded packets lead, the header, the exception chain or
the body decodes or is refused with an error that breaks the connection; and where
errors are dropped, the body decodes. -/
def Orderly (w : PacketWalk H R) (h : H) (s : Net) : Prop :=
  ∀ h₁ s₁, Passed w h s h₁ s₁ →
    OrBreaks (w.header s₁) ∧
    (∀ s₂, w.header s₁ = (.ok 2, s₂) → OrBreaks (readException s₂)) ∧
    ∀ packetType s₂, w.header s₁ = (.ok packetType, s₂) → packetType ≠ 5 → packetType ≠ 2 →
      OrBreaks (w.body packetType h₁ s₂) ∧
        (w.lenient packetType = true →
          ∀ e, (w.body packetType h₁ s₂).1 ≠ .error (.error e))

/-- The bodies whose errors are dropped have none, wherever decoded packets lead. -/
def DropsNothing (w : PacketWalk H R) (h : H) (s : Net) : Prop :=
  ∀ h₁ s₁ packetType s₂, Passed w h s h₁ s₁ → w.header s₁ = (.ok packetType, s₂) →
    packetType ≠ 5 → packetType ≠ 2 → w.lenient packetType = true →
    ∀ e, (w.body packetType h₁ s₂).1 ≠ .error (.error e)

theorem ReadThrough.of_passed {h h₁ : H} (hpassed : Passed w h s h₁ s₁)
    (hthrough : ReadThrough w h s s') : ReadThrough w h₁ s₁ s' := by
  induction hpassed with
  | refl h s => exact hthrough
  | packet hheader hne5 hne2 hbody _ ih =>
    obtain ⟨h₂, s₂, hsteps, hends⟩ := hthrough
    cases hsteps with
    | refl =>
      obtain hend | ⟨_, _, hend, _⟩ := hends
      · rw [hheader] at hend
        cases hend
        exact absurd rfl hne5
      rw [hheader] at hend
      cases hend
      exact absurd rfl hne2
    | packet hheader' _ _ hbody' hsteps' =>
      rw [hheader] at hheader'
      cases hheader'
      rw [hbody] at hbody'
      cases hbody'
      exact ih ⟨h₂, s₂, hsteps', hends⟩

theorem OrBreaks.of_ok {α : Type} {x : Readout α × Net} {a : α} (h : x = (.ok a, s)) :
    OrBreaks x := by
  intro e he
  rw [h] at he
  cases he

theorem ReadThrough.orderly (hthrough : ReadThrough w h s s') :
    Orderly w h s := by
  intro h₁ s₁ hpassed
  obtain ⟨h₂, s₂, hsteps, hends⟩ := hthrough.of_passed hpassed
  cases hsteps with
  | refl =>
    obtain hend | ⟨s₃, e, hend, hread⟩ := hends
    · refine ⟨.of_ok hend, ?_, ?_⟩
      · intro s₂ hheader
        rw [hend] at hheader
        cases hheader
      intro packetType s₂ hheader hne5
      rw [hend] at hheader
      cases hheader
      exact absurd rfl hne5
    · refine ⟨.of_ok hend, ?_, ?_⟩
      · intro s₂ hheader
        rw [hend] at hheader
        cases hheader
        exact .of_ok hread
      intro packetType s₂ hheader _ hne2
      rw [hend] at hheader
      cases hheader
      exact absurd rfl hne2
  | packet hheader hne5 hne2 hbody _ =>
    refine ⟨.of_ok hheader, ?_, ?_⟩
    · intro s₃ hheader'
      rw [hheader] at hheader'
      cases hheader'
      exact absurd rfl hne2
    intro packetType' s₃ hheader' _ _
    rw [hheader] at hheader'
    cases hheader'
    refine ⟨.of_ok hbody, fun _ e he => ?_⟩
    rw [hbody] at he
    cases he

/-- **What a turn can do**: the header fails; EndOfStream; an exception, read or not; or
the body of another packet, whose error may be dropped. -/
inductive Outcome (w : PacketWalk H R) (h : H) (s : Net) : Readout (Turn H R) → Net → Prop
  | header {e : Stop Error} {s' : Net} : w.header s = (.error e, s') → Outcome w h s (.error e) s'
  | finished {r : R} {s' : Net} : w.header s = (.ok 5, s') → Outcome w h s (.ok (.done r)) s'
  | unfinished {e : Error} {s' : Net} : w.header s = (.ok 5, s') →
      Outcome w h s (.error (.error e)) s'
  | exception {e : Error} {s₁ s' : Net} : w.header s = (.ok 2, s₁) →
      readException s₁ = (.ok e, s') → Outcome w h s (.error (.error e)) s'
  | noException {e : Stop Error} {s₁ s' : Net} : w.header s = (.ok 2, s₁) →
      readException s₁ = (.error e, s') → Outcome w h s (.error e) s'
  | body {packetType : Nat} {t : Turn H R} {s₁ s' : Net} : w.header s = (.ok packetType, s₁) →
      packetType ≠ 5 → packetType ≠ 2 → w.body packetType h s₁ = (.ok t, s') →
      Outcome w h s (.ok t) s'
  | noBody {packetType : Nat} {e : Stop Error} {s₁ s' : Net} :
      w.header s = (.ok packetType, s₁) → packetType ≠ 5 → packetType ≠ 2 →
      w.body packetType h s₁ = (.error e, s') → Outcome w h s (.error e) s'
  | dropped {packetType : Nat} {e : Error} {s₁ s' : Net} : w.header s = (.ok packetType, s₁) →
      packetType ≠ 5 → packetType ≠ 2 → w.lenient packetType = true →
      w.body packetType h s₁ = (.error (.error e), s') → Outcome w h s (.ok (.more h)) s'

theorem outcome_body {res : Readout (Turn H R)}
    (hheader : w.header s = (.ok packetType, s₁)) (hne5 : packetType ≠ 5) (hne2 : packetType ≠ 2)
    (hrun : (if w.lenient packetType then do
        let t ← attempt (w.body packetType h)
        return orGoOn h t
      else w.body packetType h) s₁ = (res, s')) : Outcome w h s res s' := by
  rcases hbody : w.body packetType h s₁ with ⟨r, s₂⟩
  by_cases hlenient : w.lenient packetType = true
  · rw [if_pos hlenient, bind_apply] at hrun
    unfold attempt at hrun
    rw [hbody] at hrun
    cases r with
    | ok t =>
      cases hrun
      exact .body hheader hne5 hne2 hbody
    | error stop =>
      cases stop with
      | error e =>
        cases hrun
        exact .dropped hheader hne5 hne2 hlenient hbody
      | depth =>
        cases hrun
        exact .noBody hheader hne5 hne2 hbody
  · rw [if_neg hlenient, hbody] at hrun
    cases hrun
    cases res with
    | ok t => exact .body hheader hne5 hne2 hbody
    | error stop => exact .noBody hheader hne5 hne2 hbody

theorem turn_outcome {res : Readout (Turn H R)}
    (hturn : w.turn h s = (res, s')) : Outcome w h s res s' := by
  unfold turn at hturn
  rcases hheader : w.header s with ⟨r, s₁⟩
  rcases r with e | packetType
  · rw [bind_apply, hheader] at hturn
    cases hturn
    exact .header hheader
  rw [bind_ok hheader] at hturn
  split at hturn
  · rcases hfinish : w.finish h with e | r
    · rw [hfinish] at hturn
      cases hturn
      exact .unfinished hheader
    rw [hfinish] at hturn
    cases hturn
    exact .finished hheader
  · rcases hread : (readException : Read Net Error) s₁ with ⟨r, s₂⟩
    rcases r with e | e
    · rw [bind_apply, hread] at hturn
      cases hturn
      exact .noException hheader hread
    rw [bind_ok hread] at hturn
    cases hturn
    exact .exception hheader hread
  · next hne5 hne2 => exact outcome_body hheader hne5 hne2 hturn

theorem passed_of_turns {h h' : H} (hturns : Turns w.turn h s h' s')
    (hdrops : DropsNothing w h s) : Passed w h s h' s' := by
  induction hturns with
  | refl h s => exact .refl h s
  | more hturn _ ih =>
    cases turn_outcome hturn with
    | body hheader hne5 hne2 hbody =>
      refine .packet hheader hne5 hne2 hbody (ih fun h₁ s₁ packetType s₂ hpassed => ?_)
      exact hdrops h₁ s₁ packetType s₂ (.packet hheader hne5 hne2 hbody hpassed)
    | dropped hheader hne5 hne2 hlenient hbody =>
      have hdecodes := hdrops _ _ _ _ (.refl _ _) hheader hne5 hne2 hlenient
      rw [hbody] at hdecodes
      exact absurd rfl (hdecodes _)

/-- The connection is kept after this result. -/
def Keeps (res : Readout R) : Prop :=
  match res with
  | .ok _ => True
  | .error (.error e) => e.isBrokenConnection = false
  | .error .depth => False

/-- **A response loop that has returned.**  Where the connection is kept, the response
has been read through if and only if it is orderly.  (A result that comes from the
body of a packet is not the end of the response, so it is left out.) -/
theorem walk_through {fuel : Nat} {res : Readout R}
    (hloop : loop w.turn fuel h s = (res, s')) (hkeeps : Keeps res)
    (hbody : ∀ packetType h s r s', res = .ok r → w.body packetType h s ≠ (.ok (.done r), s')) :
    ReadThrough w h s s' ↔ Orderly w h s := by
  refine ⟨ReadThrough.orderly, fun horderly => ?_⟩
  obtain ⟨h₁, s₁, hturns, hlast⟩ | hdepth := loop_cases hloop
  · have hpassed := passed_of_turns hturns fun h₁ s₁ packetType s₂ hp hheader hne5 hne2 =>
      ((horderly h₁ s₁ hp).2.2 packetType s₂ hheader hne5 hne2).2
    obtain ⟨hheaders, hexceptions, hbodies⟩ := horderly h₁ s₁ hpassed
    refine ⟨h₁, s₁, hpassed, ?_⟩
    have hbreaks : ∀ {e : Stop Error}, res = .error e →
        (∀ e', e = .error e' → e'.isBrokenConnection = true) → False := by
      intro e hres hbroken
      rw [hres] at hkeeps
      cases e with
      | error e' => exact absurd ((hbroken e' rfl).symm.trans hkeeps) (by decide)
      | depth => exact hkeeps
    cases hlast with
    | done hturn =>
      cases turn_outcome hturn with
      | finished hheader => exact .inl hheader
      | body hheader _ _ hdone => exact absurd hdone (hbody _ _ _ _ _ rfl)
    | stopped hturn =>
      cases turn_outcome hturn with
      | header hheader =>
        exact (hbreaks rfl fun e' he => hheaders e' (by rw [hheader, he])).elim
      | unfinished hheader => exact .inl hheader
      | exception hheader hread => exact .inr ⟨_, _, hheader, hread⟩
      | noException hheader hread =>
        exact (hbreaks rfl fun e' he => hexceptions _ hheader e' (by rw [hread, he])).elim
      | noBody hheader hne5 hne2 hread =>
        exact (hbreaks rfl fun e' he =>
          (hbodies _ _ hheader hne5 hne2).1 e' (by rw [hread, he])).elim
  · rw [hdepth] at hkeeps
    exact hkeeps.elim

end PacketWalk

end StClickHouse
