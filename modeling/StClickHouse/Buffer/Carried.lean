/-
  StClickHouse.Buffer.Carried
  **THE RAW WALKER OF THE SKIPPER, AND THE TYPES IT MEETS.**

  Whether the skipper lays a raw column out like the two stream readers depends
  on the types the column carries.  For a Variant they are declared; a Dynamic
  column names them in its bytes, so the condition is one on the walk
  (`CarriesOnly`): the walk that refuses other types does not stop at one.
-/
import StClickHouse.Buffer.SkipColumn
import StClickHouse.Wire.RawSim

namespace StClickHouse

open ByteReader RustText List

/-! ## §1. Refusing carried types. -/

/-- The same walk, where the right one also stops at types it does not accept. -/
def refusing : Corr Error Error Slice Slice where
  state := Eq
  left := fun _ => False
  right := fun e => e = .error notCarried

theorem carrying_simulates (ops : RawOps Slice) (accept : ColumnType → Bool) :
    ops.Simulates refusing.logic (fun _ => True) (ops.carrying accept) where
  field := fun n => .refl rfl (ops.field n)
  bytes := fun n => .refl rfl (ops.bytes n)
  varint := .refl rfl ops.varint
  jsonPath := .mono (.refl rfl ops.jsonPath) fun _ _ _ => trivial
  typeName := .refl rfl ops.typeName
  columnLen := fun rows width what => .liftExcept_same (ops.columnLen rows width what)
  offsets := fun rows name => .refl rfl (ops.offsets rows name)
  strings := fun rows name => .mono (.refl rfl (ops.strings rows name)) fun _ _ _ => trivial
  leaf := fun ct rows _ _ => .mono (.refl rfl (ops.leaf ct rows)) fun _ _ _ => trivial
  dynamicType := by
    intro name
    show Sim _ _ (liftExcept (ops.dynamicType name))
      (liftExcept (ops.dynamicType name >>= fun ct =>
        if accept ct then .ok ct else .error notCarried))
    rcases ops.dynamicType name with e | ct
    · exact .fail_fail
    show Sim _ _ (pure ct) (liftExcept (if accept ct then .ok ct else .error notCarried))
    by_cases hct : accept ct = true
    · rw [if_pos hct]
      exact .pure ⟨rfl, trivial⟩
    · rw [if_neg hct]
      exact .fail_right rfl
  variantType := fun _ _ compact t _ =>
    .mono (.liftExcept_same (ops.variantType compact t)) fun _ _ heq => ⟨heq, trivial⟩
  lcHeader := fun header => .liftExcept_same (ops.lcHeader header)
  below := fun _ _ _ _ => trivial

theorem skipColumnWith_sim {c : Corr Error Error Slice Slice} (hc : c.state = Eq)
    {A B : RawOps Slice} (h : A.Simulates c.logic (fun _ => True) B) : ∀ depth ct rows,
      Sim c Any (skipColumnWith A depth ct rows) (skipColumnWith B depth ct rows) := by
  intro depth
  induction depth with
  | zero =>
    intro ct rows
    exact .ite (fun _ => .pure trivial) (fun _ => .tooDeep_tooDeep)
  | succ depth ih =>
    intro ct rows
    refine .ite (fun _ => .pure trivial) (fun _ => ?_)
    have hstateOf := statePrefix_sim h depth
    have hbody := bodyRaw_sim h depth
    -- offsets are skipped alike, whatever the raw operations
    have hnested : ∀ {name : String} {below below' : Nat → Read Slice Unit},
        (∀ total, Sim c Any (below total) (below' total)) →
        Sim c Any
          (skipOffsets rows name >>= fun total => if total = 0 then pure () else below total)
          (skipOffsets rows name >>= fun total => if total = 0 then pure () else below' total) := by
      intro name below below' hbelow
      refine bind_both (.refl hc (skipOffsets rows name)) fun total => ?_
      exact .ite (fun _ => .pure trivial) (fun _ => hbelow total)
    have hleaf : Sim c Any (skipLeaf ct rows) (skipLeaf ct rows) :=
      .mono (.refl hc (skipLeaf ct rows)) fun _ _ _ => trivial
    cases ct with
    | nullable inner => exact .bind (.refl hc _) fun _ _ _ => ih inner rows
    | array inner => exact hnested fun total => ih inner total
    | map key value =>
      exact hnested fun total => .bind (ih key total) fun _ _ _ => ih value total
    | tuple elems => exact c.logic.forEach fun elem _ => ih elem rows
    | point => exact .bind (ih .float64 rows) fun _ _ _ => ih .float64 rows
    | ring | polygon | multiPolygon => exact ih _ rows
    | lowCardinality inner =>
      exact lcBody_sim h (fun n => hbody inner trivial .none rfl n) rows
    | variant types =>
      refine .bind (c.logic.collect fun t _ => hstateOf t trivial) fun states _ hstates => ?_
      obtain ⟨rfl, hknown⟩ := hstates
      exact variantBody_sim h hbody trivial (knownStates_iff.mpr hknown) rows
    | dynamic =>
      refine .bind (dynamicState_sim h hstateOf) fun state _ hstate => ?_
      obtain ⟨rfl, hknown⟩ := hstate
      exact dynamicBody_sim h hbody hknown rows
    | _ => exact hleaf

variable {ct : ColumnType}

/-- **On bytes that carry only accepted types, refusing other types makes no
difference** to where skipping succeeds. -/
theorem carries_iff {accept : ColumnType → Bool} {depth : Nat} {rows : Nat} {s s' : Slice}
    (h : CarriesOnly accept depth ct rows s) :
    skipColumnData depth ct rows s = (.ok (), s')
      ↔ skipColumnWith (skipOps.carrying accept) depth ct rows s = (.ok (), s') := by
  have hout := skipColumnWith_sim rfl (carrying_simulates skipOps accept) depth ct rows s s rfl
  unfold skipColumnData
  rcases hskip : skipColumnWith skipOps depth ct rows s with ⟨r, t⟩
  rcases hrefuse : skipColumnWith (skipOps.carrying accept) depth ct rows s with ⟨q, t'⟩
  rw [hskip, hrefuse] at hout
  rcases r with e | a
  · cases q with
    | ok b => exact absurd hout id
    | error e' => constructor <;> (intro heq; cases heq)
  rcases q with e | b
  · cases hout
    exact absurd hrefuse (h t')
  obtain ⟨hst, _⟩ := hout
  cases hst
  exact .rfl

/-! ## §2. The types the raw walkers lay out alike. -/

namespace ColumnType

mutual

/-- Both raw walkers lay the type out alike: a Nothing column has no bytes in
the recording reader and one a row in the skipper, and the elements of a Variant
are parsed again from their printed form by the reader alone. -/
def rawAlike : ColumnType → Bool
  | .nothing => false
  | .nullable inner | .array inner | .lowCardinality inner => inner.rawAlike
  | .map k v => k.rawAlike && v.rawAlike
  | .tuple types => rawAlikeAll types
  | .variant types => rawAlikeAll types && !dropsParamsAny types
  | _ => true

/-- All types of a list. -/
def rawAlikeAll : List ColumnType → Bool
  | [] => true
  | t :: ts => t.rawAlike && rawAlikeAll ts

end

mutual

/-- No JSON, Dynamic or Variant column inside: the column has no state prefix. -/
def stateless : ColumnType → Bool
  | .json | .dynamic | .variant _ => false
  | .nullable inner | .array inner | .lowCardinality inner => inner.stateless
  | .map k v => k.stateless && v.stateless
  | .tuple types => statelessAll types
  | _ => true

/-- All types of a list. -/
def statelessAll : List ColumnType → Bool
  | [] => true
  | t :: ts => t.stateless && statelessAll ts

end

variable {types : List ColumnType}

theorem rawAlikeAll_iff :
    rawAlikeAll types = true ↔ ∀ t ∈ types, t.rawAlike = true := by
  induction types with
  | nil => simp [rawAlikeAll]
  | cons t ts ih => simp [rawAlikeAll, ih]

theorem dropsParamsAny_eq_false :
    dropsParamsAny types = false ↔ ∀ t ∈ types, t.dropsParams = false := by
  induction types with
  | nil => simp [dropsParamsAny]
  | cons t ts ih => simp [dropsParamsAny, ih]

theorem statelessAll_iff :
    statelessAll types = true ↔ ∀ t ∈ types, t.stateless = true := by
  induction types with
  | nil => simp [statelessAll]
  | cons t ts ih => simp [statelessAll, ih]

/-- Going down stays within the types the raw walkers lay out alike. -/
theorem rawAlike_child (h : ct.rawAlike = true) :
    ∀ t ∈ ct.children, t.rawAlike = true := by
  cases ct with
  | nullable | array | lowCardinality => exact forall_mem_singleton.mpr h
  | map k v =>
    have hboth : (k.rawAlike && v.rawAlike) = true := h
    rw [Bool.and_eq_true] at hboth
    exact forall_mem_cons.mpr ⟨hboth.1, forall_mem_singleton.mpr hboth.2⟩
  | tuple types => exact rawAlikeAll_iff.mp h
  | variant types =>
    have hboth : (rawAlikeAll types && !dropsParamsAny types) = true := h
    rw [Bool.and_eq_true] at hboth
    exact rawAlikeAll_iff.mp hboth.1
  | point | ring | polygon | multiPolygon => exact forall_mem_singleton.mpr rfl
  | _ => intro t ht; cases ht

end ColumnType

/-- The types on which the raw walkers are compared. -/
def RawAlike (ct : ColumnType) : Prop := ct.Parsed ∧ ct.rawAlike = true

/-! ## §3. Columns without a state prefix. -/

/-- The operations of the skipper, with a condition on carried types. -/
abbrev skipOpsAlike : RawOps Slice := skipOps.carrying ColumnType.rawAlike

/-- **The raw walker of the skipper and the skipper itself agree** on a column
without a state prefix. -/
theorem bodyRaw_stateless (depth : Nat) :
    ct.stateless = true →
    ∀ {rows : Nat}, rows ≠ 0 →
      skipOpsAlike.bodyRaw depth ct .none rows = skipColumnWith skipOpsAlike depth ct rows := by
  induction depth generalizing ct with
  | zero =>
    intro _ rows hrows
    exact (if_neg hrows).symm
  | succ depth ih =>
    intro hct rows hrows
    unfold RawOps.bodyRaw skipColumnWith
    rw [if_neg hrows, if_neg hrows]
    have hnested : ∀ {inner : ColumnType}, inner.stateless = true →
        (fun total => if total = 0 then pure () else skipOpsAlike.bodyRaw depth inner .none total)
          = fun total => if total = 0 then pure () else
              skipColumnWith skipOpsAlike depth inner total := by
      intro inner hinner
      funext total
      by_cases htotal : total = 0
      · rw [if_pos htotal, if_pos htotal]
      · rw [if_neg htotal, if_neg htotal, ih hinner htotal]
    cases ct with
    | nullable inner =>
      have hinner : inner.stateless = true := hct
      exact congrArg (advancePos rows >>= ·) (funext fun _ => ih hinner hrows)
    | array inner => exact congrArg (skipOffsets rows "array offset" >>= ·) (hnested hct)
    | map k v =>
      have hboth : (k.stateless && v.stateless) = true := hct
      rw [Bool.and_eq_true] at hboth
      refine congrArg (skipOffsets rows "map offset" >>= ·) (funext fun total => ?_)
      by_cases htotal : total = 0
      · rw [if_pos htotal, if_pos htotal]
      rw [if_neg htotal, if_neg htotal]
      show (skipOpsAlike.bodyRaw depth k .none total >>= fun _ =>
        skipOpsAlike.bodyRaw depth v .none total) = _
      rw [ih hboth.1 htotal, ih hboth.2 htotal]
    | tuple types =>
      have hall : ∀ t ∈ types, t.stateless = true := ColumnType.statelessAll_iff.mp hct
      exact forEach_zipIdx types 0 fun t i h =>
        ih (hall t (fst_mem_of_mem_zipIdx h)) hrows
    | lowCardinality inner => rfl
    | point =>
      rw [ih rfl hrows]
      rfl
    | ring | polygon | multiPolygon => exact ih rfl hrows
    | variant | dynamic | json => cases hct
    | _ => rfl

end StClickHouse
