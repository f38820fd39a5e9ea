/-
  StClickHouse.Async.RawInStep
  **RAW CAPTURE AND MATERIALISED READS OF A COLUMN.**

  `read_column_raw_recorded` reads all state prefixes of a column first and then
  the bodies, dispatched on the parsed type.  `read_column_async` goes down
  through printed type names, which are parsed again, and reads a state prefix
  where it meets the column it belongs to.

  Main results:
    * `staysInStep_exact`       — a column that is captured within its budget is read, up to
                                  the same position, where the two lay it out alike; and
                                  where they do not, they part at a column on the way
    * `readColumnAsync_nothing` — one that is captured and not read
    * `display_parse_idem`      — printing and parsing again changes a type name once
-/
import StClickHouse.Async.RawCapture

namespace StClickHouse

open ByteReader RustText List

/-! ## §1. State prefixes without bytes. -/

variable {types : List ColumnType}

namespace ColumnType

mutual

/-- No Dynamic and no JSON column inside: the state prefix has no bytes. -/
def prefixFree : ColumnType → Bool
  | .dynamic | .json => false
  | .nullable inner | .array inner | .lowCardinality inner => inner.prefixFree
  | .map k v => k.prefixFree && v.prefixFree
  | .tuple types | .variant types => prefixFreeAll types
  | _ => true

/-- All types of a list. -/
def prefixFreeAll : List ColumnType → Bool
  | [] => true
  | t :: ts => t.prefixFree && prefixFreeAll ts

end

mutual

/-- The state of a column whose state prefix has no bytes. -/
def staticState : ColumnType → RawColumnState
  | .nullable inner => .nullable inner.staticState
  | .array inner => .array inner.staticState
  | .lowCardinality inner => .lowCardinality inner.staticState
  | .map k v => .map k.staticState v.staticState
  | .tuple types => .tuple (staticStates types)
  | .variant types => .variant (staticStates types)
  | _ => .none

/-- The states of a list of types. -/
def staticStates : List ColumnType → List RawColumnState
  | [] => []
  | t :: ts => t.staticState :: staticStates ts

end

mutual

/-- The call depth a state prefix needs. -/
def prefixDepth : ColumnType → Nat
  | .nullable inner | .array inner | .lowCardinality inner => inner.prefixDepth + 1
  | .map k v => max k.prefixDepth v.prefixDepth + 1
  | .tuple types | .variant types => prefixDepths types + 1
  | _ => 1

/-- The largest depth of a list of types. -/
def prefixDepths : List ColumnType → Nat
  | [] => 0
  | t :: ts => max t.prefixDepth (prefixDepths ts)

end

theorem prefixFreeAll_iff :
    prefixFreeAll types = true ↔ ∀ t ∈ types, t.prefixFree = true := by
  induction types with
  | nil => simp [prefixFreeAll]
  | cons t ts ih => simp [prefixFreeAll, ih]

theorem staticStates_getD : ∀ (i k : Nat) {t : ColumnType},
    (t, i) ∈ types.zipIdx k → (staticStates types).getD (i - k) .none = t.staticState := by
  induction types with
  | nil =>
    nofun
  | cons u us ih =>
    intro i k t h
    cases h with
    | head =>
      rw [Nat.sub_self]
      rfl
    | tail _ h =>
      have hle := (mem_zipIdx h).1
      have hsub : i - k = (i - (k + 1)) + 1 := by omega
      rw [hsub]
      exact ih i (k + 1) h

mutual

theorem staticState_known (ct : ColumnType) : ct.staticState.known = true := by
  cases ct with
  | nullable inner | array inner | lowCardinality inner => exact staticState_known inner
  | map k v =>
    show (k.staticState.known && v.staticState.known) = true
    rw [staticState_known k, staticState_known v]
    rfl
  | tuple types | variant types => exact staticStates_known types
  | _ => rfl

theorem staticStates_known : ∀ (types : List ColumnType), knownStates (staticStates types) = true
  | [] => rfl
  | t :: ts => by
    show (t.staticState.known && knownStates (staticStates ts)) = true
    rw [staticState_known t, staticStates_known ts]
    rfl

end

end ColumnType

open ColumnType

variable {depth : Nat}

section Prefix

variable {σ : Type}

theorem collect_static {f : ColumnType → Read σ RawColumnState} :
    (∀ t ∈ types,
      f t = if t.prefixDepth ≤ depth then pure t.staticState else tooDeep) →
      collect f types
        = if prefixDepths types ≤ depth then pure (staticStates types) else tooDeep := by
  induction types with
  | nil =>
    intro _
    exact (if_pos (Nat.zero_le depth)).symm
  | cons t ts ih =>
    intro h
    show (f t >>= fun b => collect f ts >>= fun bs => pure (b :: bs))
      = if max t.prefixDepth (prefixDepths ts) ≤ depth then pure (t.staticState :: staticStates ts)
        else tooDeep
    rw [h t mem_cons_self, ih fun u hu => h u (mem_cons_of_mem t hu)]
    simp only [ite_tooDeep_bind, max_le_iff, ite_and]

theorem prefixDepth_pos (ct : ColumnType) : ¬ ct.prefixDepth ≤ 0 := by
  cases ct <;> simp [prefixDepth]

/-- **A state prefix without bytes is no read.** -/
theorem statePrefix_static (ops : RawOps σ) (depth : Nat) {ct : ColumnType} :
    ct.prefixFree = true → ops.statePrefix depth ct
      = if ct.prefixDepth ≤ depth then pure ct.staticState else tooDeep := by
  induction depth generalizing ct with
  | zero =>
    intro _
    rw [if_neg (prefixDepth_pos ct)]
    rfl
  | succ depth ih =>
    intro hct
    have hone : ∀ {inner : ColumnType} {f : RawColumnState → RawColumnState},
        inner.prefixFree = true →
        (ops.statePrefix depth inner >>= fun state => pure (f state))
          = if inner.prefixDepth + 1 ≤ depth + 1 then pure (f inner.staticState)
            else tooDeep := by
      intro inner f hinner
      simp only [ih hinner, ite_tooDeep_bind, Nat.add_le_add_iff_right]
    have hlist : ∀ {types : List ColumnType} {f : List RawColumnState → RawColumnState},
        prefixFreeAll types = true →
        (collect (ops.statePrefix depth) types >>= fun states => pure (f states))
          = if prefixDepths types + 1 ≤ depth + 1 then pure (f (staticStates types))
            else tooDeep := by
      intro types f htypes
      rw [collect_static fun t ht => ih (prefixFreeAll_iff.mp htypes t ht)]
      simp only [ite_tooDeep_bind, Nat.add_le_add_iff_right]
    cases ct with
    | nullable inner => exact hone (f := RawColumnState.nullable) hct
    | array inner => exact hone (f := RawColumnState.array) hct
    | lowCardinality inner => exact hone (f := RawColumnState.lowCardinality) hct
    | map k v =>
      have hboth : (k.prefixFree && v.prefixFree) = true := hct
      rw [Bool.and_eq_true] at hboth
      show (ops.statePrefix depth k >>= fun keyState => ops.statePrefix depth v >>= fun valueState =>
        pure (RawColumnState.map keyState valueState))
        = if max k.prefixDepth v.prefixDepth + 1 ≤ depth + 1 then
            pure (RawColumnState.map k.staticState v.staticState) else tooDeep
      rw [ih hboth.1, ih hboth.2]
      simp only [ite_tooDeep_bind, Nat.add_le_add_iff_right, max_le_iff, ite_and]
    | tuple types => exact hlist (f := RawColumnState.tuple) hct
    | variant types => exact hlist (f := RawColumnState.variant) hct
    | dynamic | json => cases hct
    | _ => exact (if_pos (Nat.succ_le_succ (Nat.zero_le depth))).symm

end Prefix

/-! ## §2. Types that have been printed and parsed. -/

mutual

theorem display_reread (ct : ColumnType) : (reread ct).display = ct.display := by
  cases ct with
  | nullable inner | array inner | lowCardinality inner =>
    simp only [reread, display, display_reread inner]
  | map k v => simp only [reread, display, display_reread k, display_reread v]
  | tuple types | variant types => simp only [reread, display, displayTypes_reread types]
  | _ => rfl

theorem displayTypes_reread :
    ∀ (types : List ColumnType), displayTypes (rereadTypes types) = displayTypes types
  | [] => rfl
  | t :: ts => by simp only [rereadTypes, displayTypes, display_reread t, displayTypes_reread ts]

end

/-- **Reading and printing a type name normalises it**: a second time changes nothing. -/
theorem display_parse_idem (s : Text) :
    ((parseType s).map display >>= fun t => (parseType t).map display) = (parseType s).map display := by
  rcases h : parseType s with e | ct
  · rfl
  show (parseType ct.display).map display = _
  rw [parseType_display h]
  exact congrArg Except.ok (display_reread ct)

section Reread

variable {σ : Type}

/-- The state prefix does not depend on the parameters that printing drops. -/
theorem statePrefix_reread (ops : RawOps σ) (depth : Nat) (ct : ColumnType) :
    ops.statePrefix depth (reread ct) = ops.statePrefix depth ct := by
  induction depth generalizing ct with
  | zero => rfl
  | succ depth ih =>
    have hlist : ∀ types, collect (ops.statePrefix depth) (rereadTypes types)
        = collect (ops.statePrefix depth) types := by
      intro types
      rw [rereadTypes_eq_map, collect_map]
      exact congrArg (collect · types) (funext ih)
    cases ct with
    | nullable inner | array inner | lowCardinality inner =>
      simp only [reread, RawOps.statePrefix, ih]
    | map k v => simp only [reread, RawOps.statePrefix, ih]
    | tuple types | variant types => simp only [reread, RawOps.statePrefix, hlist]
    | _ => rfl

theorem subcolumns_map {α β : Type} (typeOf : β → Result ColumnType)
    (body : ColumnType → RawColumnState → Nat → Read σ Unit) (g : α → β) (types : List α)
    (states : List RawColumnState) (counts : List Nat) :
    subcolumns typeOf body (types.map g) states counts
      = subcolumns (fun t => typeOf (g t)) body types states counts := by
  unfold subcolumns
  rw [zip_map_left, zipIdx_map, forEach_map]
  rfl

/-- Nor does the body of a Variant, where element types are parsed again. -/
theorem variantBody_reread (ops : RawOps σ)
    (hops : ∀ compact t, ops.variantType compact (reread t) = ops.variantType compact t)
    (body : ColumnType → RawColumnState → Nat → Read σ Unit) (types : List ColumnType)
    (states : List RawColumnState) (rows : Nat) :
    ops.variantBody body (rereadTypes types) states rows = ops.variantBody body types states rows := by
  unfold RawOps.variantBody
  simp only [rereadTypes_eq_map, map_eq_nil_iff, length_map, subcolumns_map, hops,
    List.getElem?_map]
  refine congrArg (ops.u64 >>= ·) (funext fun mode => ?_)
  split
  · rfl
  split
  · rfl
  · -- the compact layout picks one element type
    refine congrArg (ops.u64 >>= ·) (funext fun discriminator => ?_)
    cases types[discriminator]? with
    | some t => simp only [Option.map_some, hops]
    | none => rfl
  · rfl

end Reread

variable {ct : ColumnType} {rows : Nat}

section Typed

variable {σ : Type} [ByteStream Error σ]

/-- The printed name says how the column is read.  (The element type of a
LowCardinality column also says how it is expanded.) -/
def ColumnType.readsBack : ColumnType → Bool
  | .enum8 | .enum16 | .aggregateFunction | .simpleAggregateFunction | .lowCardinality _ => false
  | _ => true

/-- Only types printed without their parameters are read differently after they
have been printed and parsed. -/
theorem readTypedAsync_reread (column : Text → Nat → Read σ Bytes) (depth : Nat)
    (name : Text) (rows : Nat) (hct : ct.readsBack = true) :
    readTypedAsync column depth name (reread ct) rows = readTypedAsync column depth name ct rows := by
  cases ct with
  | nullable inner | array inner | map k v => simp only [reread, readTypedAsync, display_reread]
  | tuple types =>
    simp only [reread, readTypedAsync, rereadTypes_eq_map, collect_map, display_reread]
  | variant types =>
    have hstate := statePrefix_reread (recordedOps : RawOps (Recorded σ)) (depth + 1)
      (.variant types)
    have hbody : ∀ state : RawColumnState,
        readVariantBodyRawRecorded (σ := σ) depth (rereadTypes types) state.variantStates rows
          = readVariantBodyRawRecorded depth types state.variantStates rows := fun state =>
      variantBody_reread recordedOps
        (fun _ t => congrArg (parseTypeAs "variant type") (display_reread t)) _ types _ rows
    simp only [reread, readTypedAsync, readColumnStatePrefixRecorded] at hstate ⊢
    rw [hstate]
    simp only [hbody]
  | _ => first | rfl | cases hct

theorem readColumnAsync_display (hparsed : ct.Parsed) (hct : ct.readsBack = true) (hrows : rows ≠ 0)
    :
    (readColumnAsync (depth + 1) ct.display rows : Read σ Bytes)
      = readTypedAsync (readColumnAsync depth) depth ct.display ct rows := by
  unfold readColumnAsync
  rw [if_neg hrows, hparsed.display]
  exact readTypedAsync_reread _ _ _ _ hct

end Typed

/-! ## §3. Columns without bytes in their state prefixes. -/

namespace ColumnType

mutual

/-- The state prefix has no bytes, and no LowCardinality column is inside.  The elements of a
Variant are read by the raw reader in both. -/
def staticBody : ColumnType → Bool
  | .dynamic | .json | .lowCardinality _ => false
  | .nullable inner | .array inner => inner.staticBody
  | .map k v => k.staticBody && v.staticBody
  | .tuple types => staticBodyAll types
  | .variant types => prefixFreeAll types
  | _ => true

/-- All types of a list. -/
def staticBodyAll : List ColumnType → Bool
  | [] => true
  | t :: ts => t.staticBody && staticBodyAll ts

end

mutual

/-- No Variant column inside, outside of LowCardinality. -/
def variantFree : ColumnType → Bool
  | .variant _ => false
  | .nullable inner | .array inner => inner.variantFree
  | .map k v => k.variantFree && v.variantFree
  | .tuple types => variantFreeAll types
  | _ => true

/-- All types of a list. -/
def variantFreeAll : List ColumnType → Bool
  | [] => true
  | t :: ts => t.variantFree && variantFreeAll ts

end

variable {types : List ColumnType} {ct : ColumnType}

theorem staticBodyAll_iff :
    staticBodyAll types = true ↔ ∀ t ∈ types, t.staticBody = true := by
  induction types with
  | nil => simp [staticBodyAll]
  | cons t ts ih => simp [staticBodyAll, ih]

theorem variantFreeAll_iff :
    variantFreeAll types = true ↔ ∀ t ∈ types, t.variantFree = true := by
  induction types with
  | nil => simp [variantFreeAll]
  | cons t ts ih => simp [variantFreeAll, ih]

theorem prefixDepth_le_prefixDepths :
    ∀ t ∈ types, t.prefixDepth ≤ prefixDepths types := by
  induction types with
  | nil =>
    nofun
  | cons u us ih =>
    intro t ht
    show t.prefixDepth ≤ max u.prefixDepth (prefixDepths us)
    cases ht with
    | head => omega
    | tail _ ht =>
      have hle := ih t ht
      omega

/-- The state prefix of a Variant met on the way fits the depth that is left. -/
def PrefixFits (depth : Nat) (ct : ColumnType) : Prop :=
  ct.variantFree = true ∨ ct.prefixDepth ≤ depth

theorem staticBody_child (hct : ct.staticBody = true)
    (hvariant : ∀ types, ct ≠ .variant types) : ∀ t ∈ ct.children, t.staticBody = true := by
  cases ct with
  | nullable inner | array inner => exact forall_mem_singleton.mpr hct
  | map k v =>
    have hboth : (k.staticBody && v.staticBody) = true := hct
    rw [Bool.and_eq_true] at hboth
    exact forall_mem_cons.mpr ⟨hboth.1, forall_mem_singleton.mpr hboth.2⟩
  | tuple types => exact staticBodyAll_iff.mp hct
  | variant types => exact absurd rfl (hvariant types)
  | lowCardinality => cases hct
  | point | ring | polygon | multiPolygon => exact forall_mem_singleton.mpr rfl
  | _ =>
    intro t ht
    cases ht

mutual

theorem prefixFree_of_staticBody {ct : ColumnType} (h : ct.staticBody = true) :
    ct.prefixFree = true := by
  cases ct with
  | nullable inner | array inner => exact @prefixFree_of_staticBody inner h
  | map k v =>
    have hboth : (k.staticBody && v.staticBody) = true := h
    rw [Bool.and_eq_true] at hboth
    show (k.prefixFree && v.prefixFree) = true
    rw [prefixFree_of_staticBody hboth.1, prefixFree_of_staticBody hboth.2]
    rfl
  | tuple types => exact @prefixFreeAll_of_staticBody types h
  | variant types => exact h
  | dynamic | json | lowCardinality inner => cases h
  | _ => rfl

theorem prefixFreeAll_of_staticBody : ∀ {types : List ColumnType}, staticBodyAll types = true →
    prefixFreeAll types = true
  | [], _ => rfl
  | t :: ts, h => by
    have hboth : (t.staticBody && staticBodyAll ts) = true := h
    rw [Bool.and_eq_true] at hboth
    show (t.prefixFree && prefixFreeAll ts) = true
    rw [prefixFree_of_staticBody hboth.1, prefixFreeAll_of_staticBody hboth.2]
    rfl

end

theorem PrefixFits.child (h : PrefixFits (depth + 1) ct) (hlc : ∀ t, ct ≠ .lowCardinality t) :
    ∀ t ∈ ct.children, PrefixFits depth t := by
  have hone : ∀ {inner : ColumnType}, inner.variantFree = true ∨ inner.prefixDepth + 1 ≤ depth + 1 →
      PrefixFits depth inner := fun h => h.imp_right fun hle => by omega
  cases ct with
  | nullable inner | array inner => exact forall_mem_singleton.mpr (hone h)
  | map k v =>
    refine forall_mem_cons.mpr ⟨?_, forall_mem_singleton.mpr ?_⟩
    · refine h.imp (fun hfree => (Bool.and_eq_true_iff.mp hfree).1) fun hle => ?_
      have hmax : max k.prefixDepth v.prefixDepth + 1 ≤ depth + 1 := hle
      omega
    refine h.imp (fun hfree => (Bool.and_eq_true_iff.mp hfree).2) fun hle => ?_
    have hmax : max k.prefixDepth v.prefixDepth + 1 ≤ depth + 1 := hle
    omega
  | tuple types =>
    intro t ht
    refine h.imp (fun hfree => variantFreeAll_iff.mp hfree t ht) fun hle => ?_
    have hmax : prefixDepths types + 1 ≤ depth + 1 := hle
    have hmem : t.prefixDepth ≤ prefixDepths types := prefixDepth_le_prefixDepths t ht
    omega
  | variant types =>
    intro t ht
    obtain hfree | hle := h
    · cases hfree
    have hmax : prefixDepths types + 1 ≤ depth + 1 := hle
    have hmem : t.prefixDepth ≤ prefixDepths types := prefixDepth_le_prefixDepths t ht
    exact .inr (by omega)
  | lowCardinality t => exact absurd rfl (hlc t)
  | point | ring | polygon | multiPolygon => exact forall_mem_singleton.mpr (.inl rfl)
  | _ =>
    intro t ht
    cases ht

end ColumnType

/-! ## §4. Columns on the way. -/

section Way

variable {σ : Type} [ByteStream Error σ]

/-- A raw column of a parsed type: its state prefix, then its body. -/
def rawColumn (depth : Nat) (ct : ColumnType) (rows : Nat) : Read (Recorded σ) Unit := do
  let state ← recordedOps.statePrefix depth ct
  recordedOps.bodyRaw depth ct state rows

/-- The raw body of a column whose state prefix has no bytes. -/
def staticColumn (depth : Nat) (ct : ColumnType) (rows : Nat) : Read (Recorded σ) Unit :=
  recordedOps.bodyRaw depth ct ct.staticState rows

/-- `P` holds of the columns one level below that the raw reader comes to, with as many
elements as it finds. -/
def ColumnsBelow (depth : Nat) (P : ColumnType → Nat → Recorded σ → Prop) (ct : ColumnType)
    (rows : Nat) (r : Recorded σ) : Prop :=
  match ct with
  | .nullable inner => After (readExactRecorded rows) r fun _ => P inner rows
  | .array inner => After (offsetsRecorded rows "array offset") r fun total => P inner total
  | .map key value =>
    After (offsetsRecorded rows "map offset") r fun total r =>
      P key total r ∧ After (staticColumn depth key total) r fun _ => P value total
  | .tuple elems => EachAfter (staticColumn depth · rows) (P · rows) elems r
  | _ => True

/-- `Q` holds of a column with elements and of every column below it that the raw reader
comes to. -/
def EveryColumn (Q : Nat → ColumnType → Nat → Recorded σ → Prop) :
    Nat → ColumnType → Nat → Recorded σ → Prop
  | 0, _, _, _ => True
  | depth + 1, ct, rows, r =>
    rows = 0 ∨ Q (depth + 1) ct rows r ∧ ColumnsBelow depth (EveryColumn Q depth) ct rows r

/-- The elements of a Tuple that stands first.  Where only the first one has bytes in its
state prefix, it stands first itself, and the others are behind its body.  Otherwise the
raw reader has the state prefixes of the others before its body, so it may have no body. -/
def ElementsFromFront (depth rows : Nat) (front every : ColumnType → Recorded σ → Prop) :
    List ColumnType → Recorded σ → Prop
  | [], _ => True
  | t :: ts, r => front t r ∧
    if staticBodyAll ts then
      After (rawColumn depth t rows) r fun _ => EachAfter (staticColumn depth · rows) every ts
    else After (recordedOps.statePrefix depth t) r fun state r =>
      (recordedOps.bodyRaw depth t state rows : Read (Recorded σ) Unit) = pure ()
        ∧ ElementsFromFront depth rows front every ts r

/-- **A column that stands first has its state prefixes in their places**, and `Q` holds of
every column on the way that has no bytes in its own. -/
def FromFront (Q : Nat → ColumnType → Nat → Recorded σ → Prop) :
    Nat → ColumnType → Nat → Recorded σ → Prop
  | 0, _, _, _ => True
  | depth + 1, ct, rows, r =>
    if ct.staticBody then EveryColumn Q (depth + 1) ct rows r
    else match ct with
      -- both readers have the state prefix right before the body
      | .dynamic | .variant _ => True
      | .tuple elems => ElementsFromFront depth rows (fun t => FromFront Q depth t rows)
          (fun t => EveryColumn Q depth t rows) elems r
      -- null flags or offsets come before it for the materialised reader
      | _ => False

/-- The same of a whole column: an enum by itself is read by its own name. -/
def OnTheWay (Q : Nat → ColumnType → Nat → Recorded σ → Prop) (depth : Nat) (ct : ColumnType)
    (rows : Nat) (r : Recorded σ) : Prop :=
  ct = .enum8 ∨ ct = .enum16 ∨ FromFront Q depth ct rows r

/-- **A column by itself is laid out alike.**  A Nothing column has a byte for every element
only for the materialised reader.  An enum is read as strings once its name has been
printed without its values; that has to end where the enum ends. -/
def LaidAlike (_depth : Nat) (ct : ColumnType) (rows : Nat) (r : Recorded σ) : Prop :=
  match ct with
  | .nothing => False
  | .enum8 | .enum16 => After (leafRecorded ct rows) r fun _ r' => ∃ data,
      readStringColumnWithPrefixes rows "string value length" r.stream = (.ok data, r'.stream)
  | _ => True

/-- Both readers leave the column at the same place. -/
def Together (depth : Nat) (ct : ColumnType) (rows : Nat) (r : Recorded σ) : Prop :=
  After (staticColumn depth ct rows) r fun _ r' =>
    ∃ data, readColumnAsync depth ct.display rows r.stream = (.ok data, r'.stream)

end Way

/-! ## §5. Captured from a place. -/

section CapturedAt

variable {σ α β γ δ : Type}

/-- What is captured from this place on, within the column cap, can be read. -/
def CapturedAt (R : α → β → Prop) (x : Read (Recorded σ) α) (y : Read σ β)
    (r : Recorded σ) : Prop :=
  r.budget ≤ maxColumnBytes → ∀ {a r'}, x r = (.ok a, r') →
    r'.budget ≤ maxColumnBytes ∧ ∃ b, y r.stream = (.ok b, r'.stream) ∧ R a b

variable {R : α → β → Prop} {S : γ → δ → Prop} {x : Read (Recorded σ) α}
  {y : Read σ β} {r : Recorded σ}

namespace CapturedAt

theorem of_sim (h : Sim captured R x y) (r : Recorded σ) : CapturedAt R x y r :=
  fun hbudget _ _ hx => captured_ok h hbudget hx

theorem of_fails (h : ∀ a r', x r ≠ (.ok a, r')) : CapturedAt R x y r :=
  fun _ a r' hx => absurd hx (h a r')

theorem bind {f : α → Read (Recorded σ) γ} {g : β → Read σ δ}
    (hx : CapturedAt R x y r)
    (hf : ∀ {a b r'}, x r = (.ok a, r') → R a b → CapturedAt S (f a) (g b) r') :
    CapturedAt S (x >>= f) (y >>= g) r := by
  intro hbudget c r' hrun
  obtain ⟨a, r₁, hfirst, hsecond⟩ := bind_eq_ok_iff.mp hrun
  obtain ⟨hbudget₁, b, hy, hR⟩ := hx hbudget hfirst
  rw [bind_ok hy]
  exact hf hfirst hR hbudget₁ hsecond

theorem map_right {T : α → δ → Prop} {g : β → δ} (h : CapturedAt R x y r)
    (hT : ∀ a b, R a b → T a (g b)) : CapturedAt T x (y >>= fun b => pure (g b)) r := by
  intro hbudget a r' hx
  obtain ⟨hbudget', b, hy, hR⟩ := h hbudget hx
  refine ⟨hbudget', g b, ?_, hT a b hR⟩
  rw [bind_ok hy]
  rfl

/-- A loop over a list, turn by turn. -/
theorem forEach_collect {P : γ → Recorded σ → Prop} {f : γ → Read (Recorded σ) Unit}
    {g : γ → Read σ β} {cs : List γ}
    (h : ∀ c ∈ cs, ∀ r, P c r → CapturedAt Any (f c) (g c) r) {r : Recorded σ}
    (hP : EachAfter f P cs r) : CapturedAt Any (forEach f cs) (collect g cs) r := by
  induction cs generalizing r with
  | nil => exact fun hbudget _ _ hx => by cases hx; exact ⟨hbudget, [], rfl, trivial⟩
  | cons c cs ih =>
    refine bind (h c mem_cons_self r hP.1) fun hc _ => ?_
    refine map_right (ih (fun d hd => h d (mem_cons_of_mem c hd)) ?_) fun _ _ _ => trivial
    exact (after_ok hc).mp hP.2

end CapturedAt

/-- A raw read within the column cap stays within it. -/
theorem budget_le_of_roomier (h : Sim roomier Any x x) {a : α} {r' : Recorded σ}
    (hbudget : r.budget ≤ maxColumnBytes) (hx : x r = (.ok a, r')) :
    r'.budget ≤ maxColumnBytes := by
  have hout := h r r ⟨rfl, le_rfl, hbudget⟩
  rw [hx] at hout
  exact hout.1.2.2

end CapturedAt

/-! ## §6. Bodies. -/

section Bodies

variable {σ : Type} [ByteStream Error σ]

theorem staticColumn_roomier (depth : Nat) (ct : ColumnType) (rows : Nat) :
    Sim roomier Any (staticColumn depth ct rows : Read (Recorded σ) Unit)
      (staticColumn depth ct rows) :=
  bodyRaw_sim recordedReads_roomier.ops depth ct trivial ct.staticState (staticState_known ct) rows

theorem rawColumn_roomier (depth : Nat) (ct : ColumnType) (rows : Nat) :
    Sim roomier Any (rawColumn depth ct rows : Read (Recorded σ) Unit)
      (rawColumn depth ct rows) := by
  refine .bind (statePrefix_sim recordedReads_roomier.ops depth ct trivial)
    fun state _ hstate => ?_
  obtain ⟨rfl, hknown⟩ := hstate
  exact bodyRaw_sim recordedReads_roomier.ops depth ct trivial state hknown rows

/-- A condition on the columns below may use that they are read within the cap. -/
theorem columnsBelow_congr {P P' : ColumnType → Nat → Recorded σ → Prop} {r : Recorded σ}
    (hbudget : r.budget ≤ maxColumnBytes)
    (h : (∀ types, ct ≠ .variant types) → ∀ t ∈ ct.children, ∀ n r, r.budget ≤ maxColumnBytes →
      (P t n r ↔ P' t n r)) :
    ColumnsBelow depth P ct rows r ↔ ColumnsBelow depth P' ct rows r := by
  cases ct with
  | nullable inner =>
    refine After.congr fun hx => h nofun inner mem_cons_self _ _ ?_
    exact budget_le_of_roomier ((recordedReads_roomier.exact rows).mono fun _ _ _ => trivial)
      hbudget hx
  | array inner =>
    refine After.congr fun hx => h nofun inner mem_cons_self _ _ ?_
    exact budget_le_of_roomier ((recordedReads_roomier.offsets rows _).mono fun _ _ _ => trivial)
      hbudget hx
  | map key value =>
    refine After.congr fun hx => ?_
    have hbudget₁ := budget_le_of_roomier
      ((recordedReads_roomier.offsets rows _).mono fun _ _ _ => trivial) hbudget hx
    refine and_congr (h nofun key mem_cons_self _ _ hbudget₁) (After.congr fun hkey => ?_)
    exact h nofun value (mem_cons_of_mem key mem_cons_self) _ _
      (budget_le_of_roomier (staticColumn_roomier depth key _) hbudget₁ hkey)
  | tuple elems =>
    refine EachAfter.congr (I := fun r => r.budget ≤ maxColumnBytes) (fun t _ {_ _ _} hr hx => ?_)
      (fun t ht r => h nofun t ht rows r) hbudget
    exact budget_le_of_roomier (staticColumn_roomier depth t rows) hr hx
  | _ => exact .rfl

variable [LawfulByteStream Error σ]

theorem readLeafAsync_captured (hleaf : ct.isLeaf = true) (hct : ct ≠ .nothing) (rows : Nat) :
    Sim captured Any (leafRecorded ct rows : Read (Recorded σ) Unit)
      (readLeafAsync ct rows) := by
  cases ct with
  | nothing => exact absurd rfl hct
  | string | other => exact readStringColumn_captured rows _
  | aggregateFunction | simpleAggregateFunction => exact .fail_fail
  | decimal => exact decimal_sim fun width => readFixedColumn_captured rows width _
  | _ => first | exact readFixedColumn_captured rows _ _ | cases hleaf

omit [LawfulByteStream Error σ] in
/-- Offsets, and what lies below them. -/
theorem readNested_captured {α : Type} {rows : Nat} {name : String} {r : Recorded σ}
    {P : Nat → Recorded σ → Prop} {x : Nat → Read (Recorded σ) Unit}
    {y : Nat → Read σ α} {f : Bytes → α → Bytes}
    (hP : After (offsetsRecorded rows name) r P)
    (hbelow : ∀ n r, P n r → CapturedAt Any (x n) (y n) r) :
    CapturedAt Any
      (do
        let total ← offsetsRecorded rows name
        if total = 0 then pure () else x total)
      (do
        let offsets ← readOffsetsColumn rows name
        if offsets.2 > 0 then do
          let values ← y offsets.2
          return f offsets.1 values
        else return offsets.1) r := by
  refine CapturedAt.bind (.of_sim (readOffsetsColumn_captured rows name) r)
    fun {total offsets r'} hx htotal => ?_
  by_cases hpos : offsets.2 > 0
  · rw [if_pos hpos, if_neg (by omega), ← htotal]
    have hbelow' := hbelow total r' ((after_ok hx).mp hP)
    rw [← htotal] at hbelow'
    exact hbelow'.map_right fun _ _ _ => trivial
  · rw [if_neg hpos, if_pos (by omega)]
    exact .of_sim (.pure trivial) r'

omit [LawfulByteStream Error σ] in
/-- The body of a Variant whose state prefix has no bytes: the materialised reader
records it afresh. -/
theorem readVariant_captured {name : Text} (hfree : prefixFreeAll types = true)
    (hdepth : (ColumnType.variant types).prefixDepth ≤ depth + 1) (rows : Nat) :
    Sim captured Any
      (recordedOps.variantBody (recordedOps.bodyRaw depth) types (staticStates types) rows
        : Read (Recorded σ) Unit)
      (readTypedAsync (readColumnAsync depth) depth name (.variant types) rows) := by
  refine recording_captured ?_
  have hstate := @statePrefix_static _ (recordedOps : RawOps (Recorded σ)) (depth + 1)
    (.variant types) hfree
  rw [if_pos hdepth] at hstate
  show Sim roomier _ _ (recordedOps.statePrefix (depth + 1) (.variant types) >>= _)
  rw [hstate, pure_bind]
  exact variantBody_sim recordedReads_roomier.ops
    (bodyRaw_sim recordedReads_roomier.ops depth) trivial
    (staticStates_known types) rows

omit [ByteStream Error σ] [LawfulByteStream Error σ] in
theorem bodyRaw_array_none (ops : RawOps σ) (depth : Nat) (t : ColumnType) (rows : Nat) :
    ops.bodyRaw depth (.array t) .none rows = ops.bodyRaw depth (.array t) (.array .none) rows := by
  cases depth with
  | zero | succ depth => rfl

/-- The body of a column is read as it is captured, from this place on. -/
abbrev BodyCaptured (depth : Nat) (ct : ColumnType) (rows : Nat) (r : Recorded σ) : Prop :=
  CapturedAt Any (staticColumn depth ct rows) (readColumnAsync depth ct.display rows) r

omit [LawfulByteStream Error σ] in
/-- Columns below that are laid out alike wherever they stand. -/
theorem everyColumn_geo {t : ColumnType} (h : t = .float64 ∨ t = .point ∨ t = .ring ∨ t = .polygon)
    (depth rows : Nat) (r : Recorded σ) : EveryColumn LaidAlike depth t rows r
      ∧ EveryColumn LaidAlike depth (.array t) rows r := by
  have hone : ∀ depth rows (r : Recorded σ), EveryColumn LaidAlike depth t rows r := by
    intro depth rows r
    cases depth with
    | zero => trivial
    | succ depth => obtain rfl | rfl | rfl | rfl := h <;> exact .inr ⟨trivial, trivial⟩
  refine ⟨hone depth rows r, ?_⟩
  cases depth with
  | zero => trivial
  | succ depth => exact .inr ⟨trivial, .of_forall fun total => hone depth total⟩

/-- **One level of a body**: the call one level deeper is given. -/
theorem readTypedAsync_captured {name : Text} {r : Recorded σ} (hct : ct.staticBody = true)
    (hfits : PrefixFits (depth + 1) ct) (hrows : rows ≠ 0) (hnothing : ct ≠ .nothing)
    (hbelow : ColumnsBelow depth (EveryColumn LaidAlike depth) ct rows r)
    (ih : (∀ types, ct ≠ .variant types) → ∀ t ∈ ct.children, ∀ n (r : Recorded σ),
      EveryColumn LaidAlike depth t n r → BodyCaptured depth t n r) :
    CapturedAt Any (staticColumn (depth + 1) ct rows)
      (readTypedAsync (readColumnAsync depth) depth name ct rows) r := by
  have hleaf : ct.isLeaf = true → CapturedAt Any (leafRecorded ct rows) (readLeafAsync ct rows) r :=
    fun h => .of_sim (readLeafAsync_captured h hnothing rows) r
  unfold staticColumn RawOps.bodyRaw
  rw [if_neg hrows]
  cases ct with
  | nullable inner =>
    refine .bind (.of_sim (readExact_captured rows) r) fun hx _ => ?_
    exact (ih nofun inner mem_cons_self rows _ ((after_ok hx).mp hbelow)).map_right
      fun _ _ _ => trivial
  | array inner =>
    exact readNested_captured (f := fun a b => a ++ b) hbelow
      fun n r => ih nofun inner mem_cons_self n r
  | map key value =>
    have hmap := readNested_captured
      (x := fun n => staticColumn depth key n >>= fun _ => staticColumn depth value n)
      (y := fun n => do
        let keys ← readColumnAsync depth key.display n
        let values ← readColumnAsync depth value.display n
        return (keys, values))
      (f := fun offsets (parts : Bytes × Bytes) => offsets ++ parts.1 ++ parts.2) hbelow
      fun n r hboth => (ih nofun key mem_cons_self n r hboth.1).bind fun hkey _ =>
        (ih nofun value (mem_cons_of_mem key mem_cons_self) n _
          ((after_ok hkey).mp hboth.2)).map_right fun _ _ _ => trivial
    simp only [bind_assoc, pure_bind] at hmap
    exact hmap
  | tuple elems =>
    -- each element has its own state, whatever its place
    have hloop := forEach_zipIdx
      (f := fun t => (staticColumn depth t rows : Read (Recorded σ) Unit))
      (g := fun p => recordedOps.bodyRaw depth p.1 ((staticStates elems).getD p.2 .none) rows)
      elems 0 fun t i hmem => by
        rw [show (staticStates elems).getD i .none = t.staticState from
          staticStates_getD i 0 hmem]
        rfl
    refine CapturedAt.map_right (R := Any) ?_ fun _ _ _ => trivial
    refine Eq.mpr (congrArg (CapturedAt _ · _ _) hloop) ?_
    exact .forEach_collect (fun t ht r => ih nofun t ht rows r) hbelow
  | point =>
    have hcoord := fun r => ih nofun .float64 mem_cons_self rows r
      (everyColumn_geo (.inl rfl) depth rows r).1
    exact (hcoord r).bind fun _ _ => (hcoord _).map_right fun _ _ _ => trivial
  | ring | polygon | multiPolygon =>
    show CapturedAt _ (recordedOps.bodyRaw depth (.array _) .none rows) _ _
    rw [bodyRaw_array_none]
    exact ih nofun _ mem_cons_self rows r (everyColumn_geo (by simp) depth rows r).2
  | variant types =>
    obtain hfree | hdepth := hfits
    · cases hfree
    · exact .of_sim (readVariant_captured hct hdepth rows) r
  | dynamic | json | lowCardinality => cases hct
  | nothing => exact absurd rfl hnothing
  | _ => exact hleaf rfl

omit [LawfulByteStream Error σ] in
/-- Below the first level an enum is read as strings. -/
theorem readColumnAsync_enum (h : ct = .enum8 ∨ ct = .enum16) (hrows : rows ≠ 0) :
    (readColumnAsync (depth + 1) ct.display rows : Read σ Bytes)
      = readStringColumnWithPrefixes rows "string value length" := by
  unfold readColumnAsync
  rw [if_neg hrows]
  obtain rfl | rfl := h <;> rfl

/-- **Bodies in step.**  A column below the first level, without bytes in its state prefix:
what is captured is read, if the columns on the way are laid out alike. -/
theorem readColumnAsync_captured (depth : Nat) {r : Recorded σ} :
    ct.Parsed → ct.staticBody = true → PrefixFits depth ct →
      EveryColumn LaidAlike depth ct rows r → BodyCaptured depth ct rows r := by
  induction depth generalizing ct rows r with
  | zero =>
    intro _ _ _ _
    exact .of_fails nofun
  | succ depth ih =>
    intro hparsed hct hfits hlaid
    by_cases hrows : rows = 0
    · subst hrows
      exact .of_sim (.pure trivial) r
    obtain ⟨hself, hbelow⟩ := hlaid.resolve_left hrows
    have hlc : ∀ t, ct ≠ .lowCardinality t := by
      rintro t rfl
      cases hct
    have hdown : (∀ types, ct ≠ .variant types) → ∀ t ∈ ct.children, ∀ n (r : Recorded σ),
        EveryColumn LaidAlike depth t n r → BodyCaptured depth t n r := fun hvariant t ht n r =>
      ih (hparsed.child t ht) (staticBody_child hct hvariant t ht) (hfits.child hlc t ht)
    have htyped : ct.readsBack = true → ct ≠ .nothing → BodyCaptured (depth + 1) ct rows r := by
      intro hback hnothing
      unfold BodyCaptured
      rw [readColumnAsync_display hparsed hback hrows]
      exact readTypedAsync_captured hct hfits hrows hnothing hbelow hdown
    -- the raw reader refuses an aggregate state
    have hagg : ct = .aggregateFunction ∨ ct = .simpleAggregateFunction →
        BodyCaptured (depth + 1) ct rows r := by
      intro h
      refine .of_fails fun _ r' hx => ?_
      unfold staticColumn RawOps.bodyRaw at hx
      rw [if_neg hrows] at hx
      obtain rfl | rfl := h <;> cases hx
    have henum : ct = .enum8 ∨ ct = .enum16 → BodyCaptured (depth + 1) ct rows r := by
      intro h hbudget _ r' hx
      rw [readColumnAsync_enum h hrows]
      refine ⟨budget_le_of_roomier (staticColumn_roomier _ ct rows) hbudget hx, ?_⟩
      unfold staticColumn RawOps.bodyRaw at hx
      rw [if_neg hrows] at hx
      obtain rfl | rfl := h
      · obtain ⟨data, hdata⟩ := (after_ok hx).mp hself
        exact ⟨data, hdata, trivial⟩
      · obtain ⟨data, hdata⟩ := (after_ok hx).mp hself
        exact ⟨data, hdata, trivial⟩
    cases ct with
    | enum8 => exact henum (.inl rfl)
    | enum16 => exact henum (.inr rfl)
    | aggregateFunction => exact hagg (.inl rfl)
    | simpleAggregateFunction => exact hagg (.inr rfl)
    | nothing => exact hself.elim
    | lowCardinality t => exact absurd rfl (hlc t)
    | _ => exact htyped rfl nofun

end Bodies

theorem takeRecorded_zero {σ : Type} [ByteStream Error σ] [LawfulByteStream Error σ]
    (what : String) (r : Recorded σ) : takeRecorded what 0 r = (.ok [], r) := by
  have hcharge : charge 0 what r = (.ok (), r) := rfl
  have hread : onStream (readExact 0) r = (.ok ([] : Bytes), r) := by
    unfold onStream
    rw [readExact_zero]
    rfl
  have hrecord : record [] r = (.ok (), r) := by
    unfold record
    rw [append_nil]
  unfold takeRecorded
  rw [if_neg (by decide), bind_ok hcharge, bind_ok hread, bind_ok hrecord]
  rfl

/-- The raw reader takes no bytes for a Nothing column. -/
theorem staticColumn_nothing {σ : Type} [ByteStream Error σ] [LawfulByteStream Error σ]
    (hrows : rows ≠ 0) (r : Recorded σ) :
    staticColumn (depth + 1) .nothing rows r = (.ok (), r) := by
  unfold staticColumn RawOps.bodyRaw
  rw [if_neg hrows]
  have hlen : checkedColumnLen rows 0 "fixed-width column" = .ok (rows * 0) :=
    checkedColumnLen_of_le (by rw [Nat.mul_zero]; exact Nat.zero_le _)
  show (liftExcept (checkedColumnLen rows 0 "fixed-width column") >>= fun len =>
    readExactRecorded len >>= fun _ => pure ()) r = _
  rw [hlen]
  show (readExactRecorded (rows * 0) >>= fun _ => pure ()) r = _
  rw [Nat.mul_zero]
  exact bind_ok (takeRecorded_zero _ r)

/-- A column both readers leave at the same place is laid out alike. -/
theorem laidAlike_of_together {r : Recorded Bytes} (hrows : rows ≠ 0)
    (h : Together (depth + 1) ct rows r) : LaidAlike (depth + 1) ct rows r := by
  have henum : ct = .enum8 ∨ ct = .enum16 → After (leafRecorded ct rows) r fun _ r' => ∃ data,
      readStringColumnWithPrefixes rows "string value length" r.stream = (.ok data, r'.stream) := by
    intro hct
    refine .of_ok fun {_ r'} hx => ?_
    have hraw : staticColumn (depth + 1) ct rows r = (.ok (), r') := by
      unfold staticColumn RawOps.bodyRaw
      rw [if_neg hrows]
      obtain rfl | rfl := hct <;> exact hx
    obtain ⟨data, hdata⟩ := (after_ok hraw).mp h
    rw [readColumnAsync_enum hct hrows] at hdata
    exact ⟨data, hdata⟩
  cases ct with
  | nothing =>
    -- the materialised reader takes a byte for every element
    obtain ⟨data, hdata⟩ := (after_ok (staticColumn_nothing hrows r)).mp h
    have hread : readExact (ε := Error) rows r.stream = (.ok data, r.stream) := by
      unfold readColumnAsync at hdata
      rw [if_neg hrows] at hdata
      exact hdata
    obtain ⟨hstream, hlen⟩ := readExact_list_iff.mp hread
    have hlength := congrArg List.length hstream
    rw [length_append] at hlength
    exact hrows (by omega)
  | enum8 => exact henum (.inl rfl)
  | enum16 => exact henum (.inr rfl)
  | _ => trivial

/-- **Where the readers part on the way.**  They leave every column at the same place if and
only if all columns are laid out alike. -/
theorem everyColumn_together_iff (depth : Nat) {r : Recorded Bytes} :
    ct.Parsed → ct.staticBody = true → PrefixFits depth ct → r.budget ≤ maxColumnBytes →
      (EveryColumn Together depth ct rows r ↔ EveryColumn LaidAlike depth ct rows r) := by
  induction depth generalizing ct rows r with
  | zero =>
    intro _ _ _ _
    exact .rfl
  | succ depth ih =>
    intro hparsed hct hfits hbudget
    have hlc : ∀ t, ct ≠ .lowCardinality t := by
      rintro t rfl
      cases hct
    have hbelow : ColumnsBelow depth (EveryColumn Together depth) ct rows r
        ↔ ColumnsBelow depth (EveryColumn LaidAlike depth) ct rows r :=
      columnsBelow_congr hbudget fun hvariant t ht n r hr =>
        ih (hparsed.child t ht) (staticBody_child hct hvariant t ht) (hfits.child hlc t ht) hr
    by_cases hrows : rows = 0
    · exact iff_of_true (.inl hrows) (.inl hrows)
    constructor
    · intro h
      obtain ⟨hself, hdown⟩ := h.resolve_left hrows
      exact .inr ⟨laidAlike_of_together hrows hself, hbelow.mp hdown⟩
    · intro h
      refine .inr ⟨.of_ok fun hx => ?_, hbelow.mpr (h.resolve_left hrows).2⟩
      obtain ⟨_, data, hdata, _⟩ := readColumnAsync_captured _ hparsed hct hfits h hbudget hx
      exact ⟨data, hdata⟩

/-! ## §7. Columns that stand first. -/

section Front

variable {σ : Type} [ByteStream Error σ]

/-- The elements of a raw Tuple: all state prefixes, then all bodies. -/
def rawElements (depth rows : Nat) (elems : List ColumnType) : Read (Recorded σ) Unit := do
  let states ← collect (recordedOps.statePrefix depth) elems
  forEach (fun p => recordedOps.bodyRaw depth p.1 p.2 rows) (elems.zip states)

theorem zip_eq_map_zipIdx {α β : Type} (d : β) : ∀ (as : List α) (bs cs : List β)
    (k : Nat), cs.length = k → bs.length = as.length →
      as.zip bs = (as.zipIdx k).map fun p => (p.1, (cs ++ bs).getD p.2 d)
  | [], _, _, _, _, _ => rfl
  | a :: as, b :: bs, cs, k, hk, hlen => by
    have hrest := zip_eq_map_zipIdx d as bs (cs ++ [b]) (k + 1)
      (by rw [length_append, hk]; rfl) (Nat.succ.inj hlen)
    rw [append_assoc] at hrest
    rw [zip_cons_cons, zipIdx_cons, map_cons, hrest]
    refine congrArg₂ _ (Prod.ext rfl ?_) rfl
    rw [getD_eq_getElem?_getD, ← hk, getElem?_append_right le_rfl, Nat.sub_self]
    rfl

theorem rawColumn_tuple {elems : List ColumnType} (hrows : rows ≠ 0) :
    (rawColumn (depth + 1) (.tuple elems) rows : Read (Recorded σ) Unit)
      = rawElements depth rows elems := by
  funext r
  show ((collect (recordedOps.statePrefix depth) elems >>= fun states => pure (.tuple states))
    >>= fun state => recordedOps.bodyRaw (depth + 1) (.tuple elems) state rows) r = _
  rw [bind_assoc]
  unfold rawElements
  rcases hstates : collect (recordedOps.statePrefix depth) elems r with ⟨res, r₁⟩
  rcases res with e | states
  · rw [bind_error hstates, bind_error hstates]
  rw [bind_ok hstates, bind_ok hstates, zip_eq_map_zipIdx .none elems states [] 0 rfl
    (length_of_collect hstates), forEach_map]
  exact congrFun (if_neg hrows) r₁

theorem zip_staticStates (types : List ColumnType) :
    types.zip (staticStates types) = types.map fun t => (t, t.staticState) := by
  induction types with
  | nil => rfl
  | cons t ts ih => exact congrArg ((t, t.staticState) :: ·) ih

/-- A column without bytes in its state prefix is its body. -/
theorem rawColumn_static (hct : ct.prefixFree = true) :
    (rawColumn depth ct rows : Read (Recorded σ) Unit)
      = if ct.prefixDepth ≤ depth then staticColumn depth ct rows else tooDeep := by
  unfold rawColumn
  rw [statePrefix_static _ _ hct, ite_tooDeep_bind]
  rfl

/-- Where the other elements have no bytes in their state prefixes, the first one is read as
a whole. -/
theorem rawElements_static {t : ColumnType} {ts : List ColumnType}
    (hts : prefixFreeAll ts = true) {r r' : Recorded σ}
    (h : rawElements depth rows (t :: ts) r = (.ok (), r')) :
    prefixDepths ts ≤ depth
      ∧ (rawColumn depth t rows >>= fun _ => forEach (staticColumn depth · rows) ts) r
        = (.ok (), r') := by
  have hstates := collect_static fun u hu =>
    statePrefix_static (recordedOps : RawOps (Recorded σ)) depth (prefixFreeAll_iff.mp hts u hu)
  obtain ⟨states, r₁, hall, hbodies⟩ := bind_eq_ok_iff.mp h
  obtain ⟨state, r₂, hfirst, hall⟩ := bind_eq_ok_iff.mp hall
  rw [hstates] at hall
  obtain ⟨rest, r₃, hrest, hall⟩ := bind_eq_ok_iff.mp hall
  cases hall
  by_cases hdepth : prefixDepths ts ≤ depth
  · rw [if_pos hdepth] at hrest
    cases hrest
    refine ⟨hdepth, ?_⟩
    rw [zip_cons_cons, zip_staticStates] at hbodies
    obtain ⟨_, r₄, hbody, hbodies⟩ := bind_eq_ok_iff.mp hbodies
    rw [forEach_map] at hbodies
    refine bind_eq_ok_iff.mpr ⟨(), r₄, ?_, hbodies⟩
    unfold rawColumn
    rw [bind_ok hfirst]
    exact hbody
  · rw [if_neg hdepth] at hrest
    cases hrest

variable [LawfulByteStream Error σ]

/-- **The elements of a Tuple that stands first.**  The induction is on the elements; an
element without a body is passed by the raw reader where the materialised one passes it. -/
theorem elements_captured {elems : List ColumnType} (hparsed : ∀ t ∈ elems, t.Parsed)
    (ih : ∀ t ∈ elems, ∀ r : Recorded σ, FromFront LaidAlike depth t rows r →
      CapturedAt Any (rawColumn depth t rows) (readColumnAsync depth t.display rows) r)
    {r : Recorded σ} :
    ElementsFromFront depth rows (fun t => FromFront LaidAlike depth t rows)
        (fun t => EveryColumn LaidAlike depth t rows) elems r →
      CapturedAt Any (rawElements depth rows elems)
        (collect (fun t => readColumnAsync depth t.display rows) elems) r := by
  induction elems generalizing r with
  | nil =>
    intro _
    exact .of_sim (.pure trivial) r
  | cons t ts ihts =>
    intro h
    have hfirst := ih t mem_cons_self r h.1
    by_cases hstatic : staticBodyAll ts = true
    · -- the first column as a whole, then the other bodies
      have hrest := h.2
      rw [if_pos hstatic] at hrest
      intro hbudget _ r' hraw
      obtain ⟨hdepth, hraw⟩ := rawElements_static (prefixFreeAll_of_staticBody hstatic) hraw
      refine CapturedAt.bind (S := Any) hfirst (fun hx _ => ?_) hbudget hraw
      refine CapturedAt.map_right (R := Any) ?_ fun _ _ _ => trivial
      refine .forEach_collect (fun u hu r hu' => ?_) ((after_ok hx).mp hrest)
      exact readColumnAsync_captured depth (hparsed u (mem_cons_of_mem t hu))
        (staticBodyAll_iff.mp hstatic u hu)
        (.inr (le_trans (prefixDepth_le_prefixDepths u hu) hdepth)) hu'
    · -- the first element has no body
      have hrest := h.2
      rw [if_neg hstatic] at hrest
      intro hbudget _ r' hraw
      obtain ⟨states, r₁, hall, hbodies⟩ := bind_eq_ok_iff.mp hraw
      obtain ⟨state, r₂, hprefix, hall⟩ := bind_eq_ok_iff.mp hall
      obtain ⟨rest, r₃, hstates, hall⟩ := bind_eq_ok_iff.mp hall
      cases hall
      obtain ⟨hnone, hlater⟩ := (after_ok hprefix).mp hrest
      have hcolumn : rawColumn depth t rows r = (.ok (), r₂) := by
        unfold rawColumn
        rw [bind_ok hprefix, hnone]
        rfl
      have htail : rawElements depth rows ts r₂ = (.ok (), r') := by
        unfold rawElements
        rw [bind_ok hstates]
        obtain ⟨_, r₄, hbody, hbodies⟩ := bind_eq_ok_iff.mp hbodies
        cases (congrFun hnone r₁).symm.trans hbody
        exact hbodies
      obtain ⟨hbudget₂, data, hdata, _⟩ := hfirst hbudget hcolumn
      obtain ⟨hbudget', parts, hparts, _⟩ := ihts (fun u hu => hparsed u (mem_cons_of_mem t hu))
        (fun u hu => ih u (mem_cons_of_mem t hu)) hlater hbudget₂ htail
      refine ⟨hbudget', data :: parts, ?_, trivial⟩
      show (readColumnAsync depth t.display rows >>= fun a => _ >>= fun as => pure (a :: as)) _ = _
      rw [bind_ok hdata, bind_ok hparts]
      rfl

omit [LawfulByteStream Error σ] in
/-- The Dynamic and Variant columns of the materialised reader are recorded ones. -/
theorem readTypedAsync_recording (hname : ct = .dynamic → parseType name = .ok .dynamic)
    (hct : ct = .dynamic ∨ ∃ types, ct = .variant types) (hrows : rows ≠ 0) :
    readTypedAsync (readColumnAsync depth) depth name ct rows
      = (recording (rawColumn (depth + 1) ct rows) : Read σ Bytes) := by
  obtain rfl | ⟨types, rfl⟩ := hct
  · show recording (readColumnRawRecorded (depth + 1) name rows) = _
    unfold readColumnRawRecorded parseTypeAs
    rw [hname rfl]
    rfl
  show recording (recordedOps.statePrefix (depth + 1) (.variant types) >>= fun state =>
    recordedOps.variantBody (recordedOps.bodyRaw depth) types state.variantStates rows) = _
  have hbody : ∀ state : RawColumnState,
      (recordedOps : RawOps (Recorded σ)).bodyRaw (depth + 1) (.variant types) state rows
        = recordedOps.variantBody (recordedOps.bodyRaw depth) types state.variantStates rows :=
    fun state => if_neg hrows
  unfold rawColumn
  simp only [hbody]

/-- A column that stands first and has bytes in its state prefix: one level. -/
theorem readTypedAsync_front {name : Text} {r : Recorded σ}
    (hname : ct = .dynamic → parseType name = .ok .dynamic) (hparsed : ct.Parsed)
    (hstatic : ¬ ct.staticBody = true) (hrows : rows ≠ 0)
    (hfront : FromFront LaidAlike (depth + 1) ct rows r)
    (ih : ∀ {t : ColumnType}, t.Parsed → ∀ r : Recorded σ, FromFront LaidAlike depth t rows r →
      CapturedAt Any (rawColumn depth t rows) (readColumnAsync depth t.display rows) r) :
    CapturedAt Any (rawColumn (depth + 1) ct rows)
      (readTypedAsync (readColumnAsync depth) depth name ct rows) r := by
  unfold FromFront at hfront
  rw [if_neg hstatic] at hfront
  cases ct with
  | dynamic =>
    rw [readTypedAsync_recording hname (.inl rfl) hrows]
    exact .of_sim (recording_captured (rawColumn_roomier _ _ _)) r
  | variant types =>
    rw [readTypedAsync_recording hname (.inr ⟨types, rfl⟩) hrows]
    exact .of_sim (recording_captured (rawColumn_roomier _ _ _)) r
  | tuple elems =>
    rw [rawColumn_tuple hrows]
    refine CapturedAt.map_right (R := Any) ?_ fun _ _ _ => trivial
    exact elements_captured hparsed.child (fun t ht => ih (hparsed.child t ht)) hfront
  | _ => exact hfront.elim

/-- **Columns that stand first, in step.** -/
theorem readColumnAsync_front (depth : Nat) {r : Recorded σ} :
    ct.Parsed → rows ≠ 0 → FromFront LaidAlike depth ct rows r →
      CapturedAt Any (rawColumn depth ct rows) (readColumnAsync depth ct.display rows) r := by
  induction depth generalizing ct r with
  | zero =>
    intro _ _ _
    exact .of_fails nofun
  | succ depth ih =>
    intro hparsed hrows hfront
    by_cases hstatic : ct.staticBody = true
    · unfold FromFront at hfront
      rw [if_pos hstatic] at hfront
      rw [rawColumn_static (prefixFree_of_staticBody hstatic)]
      by_cases hdepth : ct.prefixDepth ≤ depth + 1
      · rw [if_pos hdepth]
        exact readColumnAsync_captured _ hparsed hstatic (.inr hdepth) hfront
      · rw [if_neg hdepth]
        exact .of_fails nofun
    have hback : ct.readsBack = true := by
      cases ct <;> first | rfl | exact absurd rfl hstatic | cases hfront
    have hname : ct = .dynamic → parseType ct.display = .ok .dynamic := by
      rintro rfl
      exact hparsed.display
    rw [readColumnAsync_display hparsed hback hrows]
    exact readTypedAsync_front hname hparsed hstatic hrows hfront fun hp r => ih hp hrows

/-- A whole column, by a name of its type. -/
theorem readTypedAsync_onTheWay {name : Text} {r : Recorded σ} (hparse : parseType name = .ok ct)
    (hrows : rows ≠ 0) (hway : OnTheWay LaidAlike (depth + 1) ct rows r) :
    CapturedAt Any (rawColumn (depth + 1) ct rows)
      (readTypedAsync (readColumnAsync depth) depth name ct rows) r := by
  have hparsed : ct.Parsed := ⟨name, hparse⟩
  by_cases hstatic : ct.staticBody = true
  · rw [rawColumn_static (prefixFree_of_staticBody hstatic)]
    by_cases hdepth : ct.prefixDepth ≤ depth + 1
    · rw [if_pos hdepth]
      have hlc : ∀ t, ct ≠ .lowCardinality t := by
        rintro t rfl
        cases hstatic
      -- the column itself is read by its own name
      have hlaid : ct ≠ .nothing ∧ ColumnsBelow depth (EveryColumn LaidAlike depth) ct rows r := by
        obtain rfl | rfl | hfront := hway
        · exact ⟨nofun, trivial⟩
        · exact ⟨nofun, trivial⟩
        unfold FromFront at hfront
        rw [if_pos hstatic] at hfront
        obtain ⟨hself, hbelow⟩ := hfront.resolve_left hrows
        refine ⟨?_, hbelow⟩
        rintro rfl
        exact hself
      refine readTypedAsync_captured hstatic (.inr hdepth) hrows hlaid.1 hlaid.2
        fun hvariant t ht n r => ?_
      exact readColumnAsync_captured depth (hparsed.child t ht)
        (staticBody_child hstatic hvariant t ht) (PrefixFits.child (.inr hdepth) hlc t ht)
    · rw [if_neg hdepth]
      exact .of_fails nofun
  · obtain rfl | rfl | hfront := hway
    · exact absurd rfl hstatic
    · exact absurd rfl hstatic
    refine readTypedAsync_front ?_ hparsed hstatic hrows hfront fun hp r =>
      readColumnAsync_front depth hp hrows
    rintro rfl
    exact hparse

end Front

/-! ## §8. The condition, in both directions. -/

theorem elements_together_iff {elems : List ColumnType} {r r' : Recorded Bytes}
    {states : List RawColumnState} (hparsed : ∀ t ∈ elems, t.Parsed)
    (ih : ∀ t ∈ elems, ∀ {r r' : Recorded Bytes} {state}, r.budget ≤ maxColumnBytes →
      recordedOps.statePrefix depth t r = (.ok state, r') →
        (FromFront Together depth t rows r ↔ FromFront LaidAlike depth t rows r))
    (hbudget : r.budget ≤ maxColumnBytes)
    (hstates : collect (recordedOps.statePrefix depth) elems r = (.ok states, r')) :
    ElementsFromFront depth rows (fun t => FromFront Together depth t rows)
        (fun t => EveryColumn Together depth t rows) elems r
      ↔ ElementsFromFront depth rows (fun t => FromFront LaidAlike depth t rows)
        (fun t => EveryColumn LaidAlike depth t rows) elems r := by
  induction elems generalizing r r' states with
  | nil => exact .rfl
  | cons t ts ihts =>
    obtain ⟨state, r₁, hprefix, hrest⟩ := bind_eq_ok_iff.mp hstates
    obtain ⟨rest, r₂, hrest, hret⟩ := bind_eq_ok_iff.mp hrest
    refine and_congr (ih t mem_cons_self hbudget hprefix) ?_
    by_cases hstatic : staticBodyAll ts = true
    · rw [if_pos hstatic, if_pos hstatic]
      refine After.congr fun hx => ?_
      have hall := staticBodyAll_iff.mp hstatic
      have hdepth : prefixDepths ts ≤ depth := by
        by_contra hdeep
        rw [collect_static fun u hu => statePrefix_static _ depth
          (prefixFree_of_staticBody (hall u hu)), if_neg hdeep] at hrest
        cases hrest
      refine EachAfter.congr (I := fun r => r.budget ≤ maxColumnBytes)
        (fun u _ {_ _ _} hr hu => budget_le_of_roomier (staticColumn_roomier depth u rows) hr hu)
        (fun u hu r hr => ?_) (budget_le_of_roomier (rawColumn_roomier depth t rows) hbudget hx)
      exact everyColumn_together_iff depth (hparsed u (mem_cons_of_mem t hu)) (hall u hu)
        (.inr (le_trans (prefixDepth_le_prefixDepths u hu) hdepth)) hr
    · rw [if_neg hstatic, if_neg hstatic, after_ok hprefix, after_ok hprefix]
      refine and_congr .rfl ?_
      have hbudget₁ : r₁.budget ≤ maxColumnBytes :=
        budget_le_of_roomier ((statePrefix_sim recordedReads_roomier.ops depth t trivial).mono
          fun _ _ _ => trivial) hbudget hprefix
      exact ihts (fun u hu => hparsed u (mem_cons_of_mem t hu))
        (fun u hu => ih u (mem_cons_of_mem t hu)) hbudget₁ hrest

/-- Columns that stand first part where a column on the way is not laid out alike. -/
theorem fromFront_together_iff (depth : Nat) {r r' : Recorded Bytes}
    {state : RawColumnState} :
    ct.Parsed → r.budget ≤ maxColumnBytes →
      recordedOps.statePrefix depth ct r = (.ok state, r') →
      (FromFront Together depth ct rows r ↔ FromFront LaidAlike depth ct rows r) := by
  induction depth generalizing ct r r' state with
  | zero =>
    intro _ _ _
    exact .rfl
  | succ depth ih =>
    intro hparsed hbudget hprefix
    unfold FromFront
    by_cases hstatic : ct.staticBody = true
    · rw [if_pos hstatic, if_pos hstatic]
      have hdepth : ct.prefixDepth ≤ depth + 1 := by
        by_contra hdeep
        rw [statePrefix_static _ _ (prefixFree_of_staticBody hstatic), if_neg hdeep] at hprefix
        cases hprefix
      exact everyColumn_together_iff _ hparsed hstatic (.inr hdepth) hbudget
    rw [if_neg hstatic, if_neg hstatic]
    cases ct with
    | tuple elems =>
      obtain ⟨states, r₁, hstates, _⟩ := bind_eq_ok_iff.mp hprefix
      exact elements_together_iff hparsed.child
        (fun t ht {_ _ _} hb hp => ih (hparsed.child t ht) hb hp) hbudget hstates
    | _ => exact .rfl

/-- **Where the two readers stay in step.**  A column that is captured within its budget is
read, and both leave the stream at the same position, if its state prefixes are in their
places and every column on the way is laid out alike.  On a list of bytes that is so if and
only if both readers leave the column, and every column on the way, at the same position. -/
theorem staysInStep_exact {name : Text} {ct : ColumnType} {depth rows : Nat}
    (hparse : parseType name = .ok ct) (hrows : 0 < rows) :
    (∀ (σ : Type) [ByteStream Error σ] [LawfulByteStream Error σ] (r r' : Recorded σ),
      r.budget ≤ maxColumnBytes → readColumnRawRecorded depth name rows r = (.ok (), r') →
      OnTheWay LaidAlike depth ct rows r →
        ∃ data, readColumnAsync depth name rows r.stream = (.ok data, r'.stream))
    ∧ ∀ r r' : Recorded Bytes, r.budget ≤ maxColumnBytes →
      readColumnRawRecorded depth name rows r = (.ok (), r') →
      (OnTheWay LaidAlike depth ct rows r ↔
        (∃ data, readColumnAsync depth name rows r.stream = (.ok data, r'.stream))
          ∧ OnTheWay Together depth ct rows r) := by
  have hraw : ∀ {σ : Type} [ByteStream Error σ] {r r' : Recorded σ},
      readColumnRawRecorded depth name rows r = (.ok (), r') →
        rawColumn depth ct rows r = (.ok (), r') := by
    intro σ _ r r' h
    unfold readColumnRawRecorded parseTypeAs at h
    rw [hparse] at h
    exact h
  have hread : ∀ (σ : Type) [ByteStream Error σ] [LawfulByteStream Error σ] (r r' : Recorded σ),
      r.budget ≤ maxColumnBytes → readColumnRawRecorded depth name rows r = (.ok (), r') →
      OnTheWay LaidAlike depth ct rows r →
        ∃ data, readColumnAsync depth name rows r.stream = (.ok data, r'.stream) := by
    intro σ _ _ r r' hbudget h hway
    rcases depth with _ | depth
    · cases hraw h
    obtain ⟨_, data, hdata, _⟩ :=
      readTypedAsync_onTheWay hparse (by omega) hway hbudget (hraw h)
    refine ⟨data, ?_⟩
    unfold readColumnAsync
    rw [if_neg (by omega), hparse]
    exact hdata
  refine ⟨hread, fun r r' hbudget h => ?_⟩
  obtain ⟨state, r₁, hprefix, _⟩ := bind_eq_ok_iff.mp (hraw h)
  have hfront : FromFront Together depth ct rows r ↔ FromFront LaidAlike depth ct rows r :=
    fromFront_together_iff depth ⟨name, hparse⟩ hbudget hprefix
  have hway : OnTheWay Together depth ct rows r ↔ OnTheWay LaidAlike depth ct rows r :=
    or_congr .rfl (or_congr .rfl hfront)
  rw [hway]
  exact ⟨fun hlaid => ⟨hread _ r r' hbudget h hlaid, hlaid⟩, And.right⟩

/-- A row of Tuple(FixedString(0), Dynamic): the state prefix, a discriminator and a UInt8. -/
def dynamicRow : Recorded Bytes :=
  ⟨[2, 0, 0, 0, 0, 0, 0, 0, 1, 5, 85, 73, 110, 116, 56, 0, 7, 9], [], 40⟩

/-- The row captured. -/
def dynamicRowCaptured : Recorded Bytes :=
  ⟨[9], [2, 0, 0, 0, 0, 0, 0, 0, 1, 5, 85, 73, 110, 116, 56, 0, 7], 23⟩

/-- The state prefix of its Dynamic column is in its place: no bytes come before it. -/
theorem onTheWay_dynamicRow :
    OnTheWay LaidAlike 3 (.tuple [.fixedString 0, .dynamic]) 1 dynamicRow := by
  have hbody : (recordedOps.bodyRaw 2 (.fixedString 0) .none 1
      : Read (Recorded Bytes) Unit) = pure () :=
    funext fun r => (bind_ok (takeRecorded_zero _ r) :
      (readExactRecorded 0 >>= fun _ => pure ()) r = _)
  have hdynamic : ∀ r : Recorded Bytes, ElementsFromFront 2 1
      (fun t => FromFront LaidAlike 2 t 1) (fun t => EveryColumn LaidAlike 2 t 1) [.dynamic] r := by
    intro r
    refine ⟨trivial, ?_⟩
    rw [if_pos (show staticBodyAll [] = true from rfl)]
    exact .of_forall fun _ _ => trivial
  refine .inr (.inr ⟨.inr ⟨trivial, trivial⟩, ?_⟩)
  rw [if_neg nofun]
  refine .of_ok fun h => ?_
  cases h
  exact ⟨hbody, hdynamic _⟩

/-- A Dynamic column behind an element without bytes, and a Nothing column without elements,
stay in step; a Nothing column with an element does not. -/
theorem staysInStep_exact_samples :
    (∃ data, readColumnAsync 3 "Tuple(FixedString(0), Dynamic)".toList 1 dynamicRow.stream
        = (.ok data, dynamicRowCaptured.stream))
    ∧ (∃ data, readColumnAsync 2 "Array(Nothing)".toList 1
      ([0, 0, 0, 0, 0, 0, 0, 0, 9] : Bytes) = (.ok data, [9]))
    ∧ ¬ ((∃ data, readColumnAsync 1 "Nothing".toList 1 ([7] : Bytes) = (.ok data, [7]))
      ∧ OnTheWay Together 1 .nothing 1 (⟨[7], [], 40⟩ : Recorded Bytes)) := by
  refine ⟨?_, ?_, ?_⟩
  · have hparse : parseType "Tuple(FixedString(0), Dynamic)".toList
        = .ok (.tuple [.fixedString 0, .dynamic]) := by rfl
    have hraw : readColumnRawRecorded 3 "Tuple(FixedString(0), Dynamic)".toList 1 dynamicRow
        = (.ok (), dynamicRowCaptured) := by decide +kernel
    exact (staysInStep_exact hparse (by decide)).1 Bytes dynamicRow dynamicRowCaptured
      (by decide) hraw onTheWay_dynamicRow
  · have hparse : parseType "Array(Nothing)".toList = .ok (.array .nothing) := by rfl
    have hraw : readColumnRawRecorded 2 "Array(Nothing)".toList 1
          (⟨[0, 0, 0, 0, 0, 0, 0, 0, 9], [], 40⟩ : Recorded Bytes)
        = (.ok (), ⟨[9], [0, 0, 0, 0, 0, 0, 0, 0], 32⟩) := by rfl
    have hoffsets : offsetsRecorded 1 "array offset"
          (⟨[0, 0, 0, 0, 0, 0, 0, 0, 9], [], 40⟩ : Recorded Bytes)
        = (.ok 0, ⟨[9], [0, 0, 0, 0, 0, 0, 0, 0], 32⟩) := by rfl
    have hbelow : After (offsetsRecorded 1 "array offset")
        (⟨[0, 0, 0, 0, 0, 0, 0, 0, 9], [], 40⟩ : Recorded Bytes)
        fun total => EveryColumn LaidAlike 1 .nothing total :=
      (after_ok hoffsets).mpr (.inl rfl)
    exact (staysInStep_exact hparse (by decide)).1 Bytes
      ⟨[0, 0, 0, 0, 0, 0, 0, 0, 9], [], 40⟩ ⟨[9], [0, 0, 0, 0, 0, 0, 0, 0], 32⟩ (by decide) hraw
      (.inr (.inr (.inr ⟨trivial, hbelow⟩)))
  · have hparse : parseType "Nothing".toList = .ok .nothing := by rfl
    intro h
    have hlaid := ((staysInStep_exact hparse (by decide)).2 ⟨[7], [], 40⟩ ⟨[7], [], 40⟩
      (by decide) (by rfl)).mpr h
    obtain h | h | h | ⟨h, _⟩ := hlaid
    · cases h
    · cases h
    · cases h
    · exact h

/-- One row of a Nothing column: captured as no bytes, and the materialised reader
wants one; where there is one, the two leave the stream at different positions. -/
theorem readColumnAsync_nothing :
    readColumnRawRecorded 1 "Nothing".toList 1 (⟨[], [], maxColumnBytes⟩ : Recorded Bytes)
        = (.ok (), ⟨[], [], maxColumnBytes⟩)
      ∧ readColumnAsync 1 "Nothing".toList 1 ([] : Bytes)
        = (.error (.error (.io .unexpectedEof)), [])
      ∧ readColumnRawRecorded 1 "Nothing".toList 1
          (⟨[7], [], maxColumnBytes⟩ : Recorded Bytes) = (.ok (), ⟨[7], [], maxColumnBytes⟩)
      ∧ readColumnAsync 1 "Nothing".toList 1 ([7] : Bytes) = (.ok [7], []) :=
  ⟨by rfl, by rfl, by rfl, by rfl⟩

end StClickHouse
