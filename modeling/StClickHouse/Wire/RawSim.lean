/-
  StClickHouse.Wire.RawSim
  **TWO RAW WALKERS IN STEP.**

  The three raw column walkers are one shape over different operations.  Where
  the operations of two of them correspond on a set of types that is closed
  under going down, the walkers correspond on those types: this is proved here
  once, for any relation of readers that sequences respect.
-/
import StClickHouse.TypeName.RoundTrip
import StClickHouse.Wire.RawColumn

namespace StClickHouse

open ByteReader RustText List

/-! ## §1. States read from a prefix. -/

mutual

/-- The versions in the state are ones a state prefix can give. -/
def RawColumnState.known : RawColumnState → Bool
  | .none => true
  | .nullable inner | .array inner | .lowCardinality inner => inner.known
  | .map key value => key.known && value.known
  | .tuple states | .variant states => knownStates states
  | .dynamic state => state.known
  | .json state => state.known

/-- The same for the types of a Dynamic column. -/
def DynamicRawState.known : DynamicRawState → Bool
  | .mk version _ states => decide (version ≤ 3) && knownStates states

/-- The same for the paths of a JSON column. -/
def JsonRawState.known : JsonRawState → Bool
  | .mk _ paths => knownPaths paths

/-- All states of a list. -/
def knownStates : List RawColumnState → Bool
  | [] => true
  | s :: ss => s.known && knownStates ss

/-- All paths of a list. -/
def knownPaths : List DynamicRawState → Bool
  | [] => true
  | p :: ps => p.known && knownPaths ps

end

variable {states : List RawColumnState}

theorem knownStates_iff :
    knownStates states = true ↔ ∀ s ∈ states, s.known = true := by
  induction states with
  | nil => simp [knownStates]
  | cons s ss ih => simp [knownStates, ih]

theorem knownPaths_iff {paths : List DynamicRawState} :
    knownPaths paths = true ↔ ∀ p ∈ paths, p.known = true := by
  induction paths with
  | nil => simp [knownPaths]
  | cons p ps ih => simp [knownPaths, ih]

theorem knownStates_getD (h : knownStates states = true) (i : Nat) :
    (states.getD i .none).known = true := by
  rw [getD_eq_getElem?_getD]
  cases hi : states[i]? with
  | none => rfl
  | some s => exact knownStates_iff.mp h s (mem_of_getElem? hi)

section Accessors

variable {state : RawColumnState}

theorem known_nullableInner (h : state.known = true) : state.nullableInner.known = true := by
  cases state <;> first | exact h | rfl

theorem known_arrayInner (h : state.known = true) : state.arrayInner.known = true := by
  cases state <;> first | exact h | rfl

theorem known_mapInner (h : state.known = true) :
    state.mapInner.1.known = true ∧ state.mapInner.2.known = true := by
  cases state with
  | map key value =>
    have hboth : (key.known && value.known) = true := h
    rw [Bool.and_eq_true] at hboth
    exact hboth
  | _ => exact ⟨rfl, rfl⟩

theorem known_tupleStates (h : state.known = true) : knownStates state.tupleStates = true := by
  cases state <;> first | exact h | rfl

theorem known_lcInner (h : state.known = true) : state.lcInner.known = true := by
  cases state <;> first | exact h | rfl

theorem known_variantStates (h : state.known = true) : knownStates state.variantStates = true := by
  cases state <;> first | exact h | rfl

end Accessors

/-! ## §2. Corresponding operations. -/

/-- A type without subcolumns and without a state. -/
def ColumnType.isLeaf : ColumnType → Bool
  | .nullable _ | .array _ | .map _ _ | .tuple _ | .lowCardinality _ | .variant _ | .dynamic
  | .json | .point | .ring | .polygon | .multiPolygon => false
  | _ => true

section Sim

variable {σ τ : Type}

/-- Columns without subcolumns, where strings and payloads correspond. -/
theorem rawLeaf_sim {L : Logic Error σ τ} {stringsA : Nat → String → Read σ Unit}
    {stringsB : Nat → String → Read τ Unit} {takeA : Nat → Read σ Bytes}
    {takeB : Nat → Read τ Bytes} {unsupported : String}
    (hstrings : ∀ rows name, L.rel Any (stringsA rows name) (stringsB rows name))
    (htake : ∀ n, L.rel Eq (takeA n) (takeB n)) (ct : ColumnType) (rows : Nat) :
    L.rel Any (rawLeaf stringsA takeA unsupported ct rows)
      (rawLeaf stringsB takeB unsupported ct rows) := by
  have hfixed : ∀ width what, L.rel Any
      (liftExcept (checkedColumnLen rows width what) >>= fun len => takeA len >>= fun _ => pure ())
      (liftExcept (checkedColumnLen rows width what) >>= fun len => takeB len >>= fun _ => pure ()) :=
    fun width what => L.lift fun len =>
      L.bind (htake len) fun _ _ _ => L.pure trivial
  unfold rawLeaf
  split
  · exact hstrings rows _
  · exact hstrings rows _
  · exact hfixed _ _
  · exact L.fail
  · exact L.fail
  cases ct.fixedWidth with
  | some width => exact hfixed width _
  | none => exact L.fail

/-- The operations of two walkers correspond on the types in `P`, and going down
stays in `P`. -/
structure RawOps.Simulates (L : Logic Error σ τ) (P : ColumnType → Prop) (A : RawOps σ)
    (B : RawOps τ) : Prop where
  field : ∀ n, L.rel (fun a b => a = b) (A.field n) (B.field n)
  bytes : ∀ n, L.rel (fun a b => a = b) (A.bytes n) (B.bytes n)
  varint : L.rel (fun a b => a = b) A.varint B.varint
  jsonPath : L.rel Any A.jsonPath B.jsonPath
  typeName : L.rel (fun a b => a = b) A.typeName B.typeName
  columnLen : ∀ rows width what, L.rel (fun a b => a = b)
    (liftExcept (A.columnLen rows width what)) (liftExcept (B.columnLen rows width what))
  offsets : ∀ rows name, L.rel (fun a b => a = b) (A.offsets rows name) (B.offsets rows name)
  strings : ∀ rows name, L.rel Any (A.strings rows name) (B.strings rows name)
  leaf : ∀ ct rows, P ct → ct.isLeaf = true →
    L.rel Any (A.leaf ct rows) (B.leaf ct rows)
  dynamicType : ∀ name, L.rel (fun a b => a = b ∧ P a)
    (liftExcept (A.dynamicType name)) (liftExcept (B.dynamicType name))
  variantType : ∀ types, P (.variant types) → ∀ compact, ∀ t ∈ types,
    L.rel (fun a b => a = b ∧ P a)
      (liftExcept (A.variantType compact t)) (liftExcept (B.variantType compact t))
  lcHeader : ∀ header, L.rel (fun a b => a = b)
    (liftExcept (A.lcHeader header)) (liftExcept (B.lcHeader header))
  below : ∀ ct, P ct → ∀ t ∈ ct.children, P t

variable {prefixA : ColumnType → Read σ RawColumnState}
  {prefixB : ColumnType → Read τ RawColumnState}

variable {L : Logic Error σ τ} {P : ColumnType → Prop} {A : RawOps σ} {B : RawOps τ}

/-! ## §3. State prefixes. -/

/-- Related states: equal, with versions a prefix can give. -/
abbrev SameState (a b : RawColumnState) : Prop := a = b ∧ a.known = true

section States

variable (h : A.Simulates L P B)
include h

theorem RawOps.Simulates.u64 : L.rel Eq A.u64 B.u64 := by
  refine L.both (h.field 8) fun bs => ?_
  exact L.pure rfl

theorem dynamicTypeNames_sim : L.rel Eq A.dynamicTypeNames B.dynamicTypeNames := by
  refine L.both h.varint fun value => ?_
  refine L.lift fun count => ?_
  refine L.mono (L.collect (Q := fun _ => True) fun _ _ => ?_) fun _ _ hR => hR.1
  exact L.mono h.typeName fun _ _ heq => ⟨heq, trivial⟩

section Prefixes

variable (hstateOf : ∀ ct, P ct → L.rel SameState (prefixA ct) (prefixB ct))
include hstateOf

theorem dynamicTypeStates_sim (names : List Text) :
    L.rel (fun a b => a = b ∧ knownStates a = true) (A.dynamicTypeStates prefixA names)
      (B.dynamicTypeStates prefixB names) := by
  have hall : L.rel (fun xs ys => xs = ys ∧ ∀ x ∈ xs, x.known = true)
      (A.dynamicTypeStates prefixA names) (B.dynamicTypeStates prefixB names) := by
    refine L.collect fun name _ => ?_
    refine L.bind (h.dynamicType name) fun ct _ hct => ?_
    obtain ⟨rfl, hP⟩ := hct
    exact hstateOf ct hP
  exact L.mono hall fun _ _ hR => ⟨hR.1, knownStates_iff.mpr hR.2⟩

theorem dynamicState_sim : L.rel (fun a b => a = b ∧ a.known = true) (A.dynamicState prefixA)
      (B.dynamicState prefixB) := by
  refine L.both h.u64 fun version => ?_
  -- the names, for a version that has them
  have hnames : ∀ {namesA : Read σ (List Text)} {namesB : Read τ (List Text)},
      version ≤ 3 → L.rel Eq namesA namesB →
      L.rel (fun a b => a = b ∧ a.known = true)
        (namesA >>= fun names => A.dynamicTypeStates prefixA names >>= fun states =>
          pure (DynamicRawState.mk version names states))
        (namesB >>= fun names => B.dynamicTypeStates prefixB names >>= fun states =>
          pure (DynamicRawState.mk version names states)) := by
    intro namesA namesB hversion hsim
    refine L.both hsim fun names => ?_
    refine L.bind (dynamicTypeStates_sim h hstateOf names) fun states _ hstates => ?_
    obtain ⟨rfl, hknown⟩ := hstates
    refine L.pure ⟨rfl, ?_⟩
    show (decide (version ≤ 3) && knownStates states) = true
    rw [hknown, decide_eq_true hversion]
    rfl
  match version with
  | 0 => exact hnames (by omega) (L.pure rfl)
  | 1 =>
    refine hnames (by omega) ?_
    refine L.bind h.varint fun _ _ _ => ?_
    refine L.both (dynamicTypeNames_sim h) fun names => ?_
    exact L.bind h.u64 fun _ _ _ => L.pure rfl
  | 2 | 3 => exact hnames (by omega) (dynamicTypeNames_sim h)
  | version + 4 => exact L.fail

theorem jsonPaths_sim :
    L.rel (fun a b => a = b ∧ knownPaths a = true) (A.jsonPaths prefixA) (B.jsonPaths prefixB) := by
  refine L.both h.varint fun value => ?_
  refine L.lift fun count => ?_
  refine L.bind (L.times h.jsonPath count) fun _ _ _ => ?_
  refine L.mono (L.collect fun _ _ => dynamicState_sim h hstateOf) fun _ _ hR => ?_
  exact ⟨hR.1, knownPaths_iff.mpr hR.2⟩

theorem jsonState_sim :
    L.rel (fun a b => a = b ∧ a.known = true) (A.jsonState prefixA) (B.jsonState prefixB) := by
  refine L.both h.u64 fun version => ?_
  have hpaths : ∀ {pathsA : Read σ (List DynamicRawState)}
      {pathsB : Read τ (List DynamicRawState)},
      L.rel (fun a b => a = b ∧ knownPaths a = true) pathsA pathsB →
      L.rel (fun a b => a = b ∧ a.known = true)
        (pathsA >>= fun paths => pure (JsonRawState.mk version paths))
        (pathsB >>= fun paths => pure (JsonRawState.mk version paths)) := by
    intro pathsA pathsB hsim
    refine L.bind hsim fun paths _ hR => ?_
    obtain ⟨rfl, hknown⟩ := hR
    exact L.pure ⟨rfl, hknown⟩
  match version with
  | 0 => exact hpaths (L.bind h.varint fun _ _ _ => jsonPaths_sim h hstateOf)
  | 1 => exact hpaths (L.pure ⟨rfl, rfl⟩)
  | 2 => exact L.fail
  | 3 => exact hpaths (jsonPaths_sim h hstateOf)
  | 4 => exact hpaths (L.pure ⟨rfl, rfl⟩)
  | version + 5 => exact L.fail

end Prefixes

/-- **State prefixes in step.** -/
theorem statePrefix_sim (n : Nat) (ct : ColumnType) :
    P ct → L.rel SameState (A.statePrefix n ct) (B.statePrefix n ct) := by
  induction n generalizing ct with
  | zero =>
    intro _
    exact L.tooDeep
  | succ n ih =>
    intro hP
    have hbelow := h.below ct hP
    -- one element type, under a constructor of the state
    have hone : ∀ {inner : ColumnType} {f : RawColumnState → RawColumnState}, P inner →
        (∀ state, (f state).known = state.known) →
        L.rel SameState (A.statePrefix n inner >>= fun state => pure (f state))
          (B.statePrefix n inner >>= fun state => pure (f state)) := by
      intro inner f hinner hf
      refine L.bind (ih inner hinner) fun state _ hstate => ?_
      obtain ⟨rfl, hknown⟩ := hstate
      exact L.pure ⟨rfl, (hf state).trans hknown⟩
    have hlist : ∀ {types : List ColumnType} {f : List RawColumnState → RawColumnState},
        (∀ t ∈ types, P t) → (∀ states, (f states).known = knownStates states) →
        L.rel SameState (collect (A.statePrefix n) types >>= fun states => pure (f states))
          (collect (B.statePrefix n) types >>= fun states => pure (f states)) := by
      intro types f htypes hf
      refine L.bind (L.collect fun t ht => ih t (htypes t ht)) fun states _ hR => ?_
      obtain ⟨rfl, hknown⟩ := hR
      exact L.pure ⟨rfl, (hf states).trans (knownStates_iff.mpr hknown)⟩
    cases ct with
    | nullable inner | array inner | lowCardinality inner =>
      exact hone (hbelow inner mem_cons_self) fun _ => rfl
    | map key value =>
      refine L.bind (ih key (hbelow key mem_cons_self)) fun keyState _ hkey => ?_
      obtain ⟨rfl, hkey⟩ := hkey
      refine L.bind (ih value (hbelow value (by simp [ColumnType.children])))
        fun valueState _ hvalue => ?_
      obtain ⟨rfl, hvalue⟩ := hvalue
      refine L.pure ⟨rfl, ?_⟩
      show (keyState.known && valueState.known) = true
      rw [hkey, hvalue]
      rfl
    | tuple types | variant types => exact hlist hbelow fun _ => rfl
    | dynamic =>
      refine L.bind (dynamicState_sim h ih) fun state _ hstate => ?_
      obtain ⟨rfl, hknown⟩ := hstate
      exact L.pure ⟨rfl, hknown⟩
    | json =>
      refine L.bind (jsonState_sim h ih) fun state _ hstate => ?_
      obtain ⟨rfl, hknown⟩ := hstate
      exact L.pure ⟨rfl, hknown⟩
    | _ => exact L.pure ⟨rfl, rfl⟩

end States

/-! ## §4. Bodies. -/

theorem subcolumns_sim {τ' : Type} {typeA typeB : τ' → Result ColumnType}
    {bodyA : ColumnType → RawColumnState → Nat → Read σ Unit}
    {bodyB : ColumnType → RawColumnState → Nat → Read τ Unit}
    (hbody : ∀ ct, P ct → ∀ state, state.known = true → ∀ rows, L.rel Any (bodyA ct state rows) (bodyB ct state rows))
    {types : List τ'}
    (htype : ∀ t ∈ types, L.rel (fun a b => a = b ∧ P a) (liftExcept (typeA t)) (liftExcept (typeB t)))
    (hstates : knownStates states = true) (counts : List Nat) :
    L.rel Any (subcolumns typeA bodyA types states counts)
      (subcolumns typeB bodyB types states counts) := by
  refine L.forEach fun entry hentry => ?_
  have hmem : entry.1.1 ∈ types := by
    have hzip : entry.1 ∈ types.zip counts := by
      obtain ⟨⟨t, count⟩, idx⟩ := entry
      exact fst_mem_of_mem_zipIdx hentry
    exact (of_mem_zip hzip).1
  obtain ⟨⟨t, count⟩, idx⟩ := entry
  refine L.ite (L.pure trivial) ?_
  refine L.bind (htype t hmem) fun ct _ hct => ?_
  obtain ⟨rfl, hP⟩ := hct
  exact hbody ct hP _ (knownStates_getD hstates idx) count

/-- For a version that a state prefix can give, it does not matter when an empty
body is accepted. -/
theorem dynamicBody_eq (ops : RawOps σ)
    (body : ColumnType → RawColumnState → Nat → Read σ Unit) {version : Nat}
    (hversion : version ≤ 3) (names : List Text) (states : List RawColumnState) (rows : Nat) :
    ops.dynamicBody body (.mk version names states) rows
      = (if version = 0 ∨ rows = 0 ∨ names = [] then pure ()
        else if version = 1 then do
          let discriminators ← ops.bytes rows
          let counts ← liftExcept (deprecatedCounts names.length discriminators)
          subcolumns ops.dynamicType body names states counts
        else do
          let len ← liftExcept (ops.columnLen rows (dynamicDiscriminatorWidth names.length)
            "Dynamic discriminators")
          let discriminators ← ops.bytes len
          let counts ← liftExcept (flattenedCounts names.length discriminators)
          subcolumns ops.dynamicType body names states counts) := by
  unfold RawOps.dynamicBody
  by_cases hempty : rows = 0 ∨ names = []
  · rw [if_pos (.inr hempty)]
    dsimp only
    by_cases hfirst : ops.emptyDynamicFirst = true
    · rw [if_pos ⟨hfirst, hempty⟩]
    rw [if_neg (fun h => hfirst h.1)]
    match version, hversion with
    | 0, _ => rfl
    | 1, _ | 2, _ | 3, _ => exact if_pos hempty
  · dsimp only
    rw [if_neg (fun h => hempty h.2)]
    have hrest : ∀ v, v ≠ 0 → ¬ (v = 0 ∨ rows = 0 ∨ names = []) := fun v hv h =>
      h.elim hv hempty
    match version, hversion with
    | 0, _ => exact (if_pos (.inl rfl)).symm
    | 1, _ => exact (if_neg hempty).trans ((if_neg (hrest 1 (by decide))).trans (if_pos rfl)).symm
    | 2, _ =>
      exact (if_neg hempty).trans ((if_neg (hrest 2 (by decide))).trans (if_neg (by decide))).symm
    | 3, _ =>
      exact (if_neg hempty).trans ((if_neg (hrest 3 (by decide))).trans (if_neg (by decide))).symm

/-- Bodies one level down, in step on the types in `P`. -/
abbrev BodiesSim (L : Logic Error σ τ) (P : ColumnType → Prop)
    (bodyA : ColumnType → RawColumnState → Nat → Read σ Unit)
    (bodyB : ColumnType → RawColumnState → Nat → Read τ Unit) : Prop :=
  ∀ ct, P ct → ∀ state, state.known = true → ∀ rows,
    L.rel Any (bodyA ct state rows) (bodyB ct state rows)

section Bodies

variable {bodyA : ColumnType → RawColumnState → Nat → Read σ Unit}
  {bodyB : ColumnType → RawColumnState → Nat → Read τ Unit}

theorem lcBody_sim (h : A.Simulates L P B) {inner : ColumnType} {state : RawColumnState}
    (hbody : ∀ rows, L.rel Any (bodyA inner state rows) (bodyB inner state rows))
    (rows : Nat) :
    L.rel Any (A.lcBody bodyA inner state rows) (B.lcBody bodyB inner state rows) := by
  refine L.both (h.field 24) fun header => ?_
  refine L.both (h.lcHeader header) fun keys => ?_
  refine L.bind (L.ite (L.pure trivial) (hbody keys.1))
    fun _ _ _ => ?_
  refine L.both h.u64 fun indexes => ?_
  refine L.ite L.fail ?_
  refine L.both (h.columnLen _ _ _) fun len => ?_
  exact L.bind (h.bytes len) fun _ _ _ => L.pure trivial

variable (h : A.Simulates L P B) (hbody : BodiesSim L P bodyA bodyB)
include h hbody

theorem dynamicBody_sim {state : DynamicRawState} (hstate : state.known = true) (rows : Nat) :
    L.rel Any (A.dynamicBody bodyA state rows) (B.dynamicBody bodyB state rows) := by
  obtain ⟨version, names, states⟩ := state
  have hknown : (decide (version ≤ 3) && knownStates states) = true := hstate
  rw [Bool.and_eq_true, decide_eq_true_iff] at hknown
  obtain ⟨hversion, hstates⟩ := hknown
  rw [dynamicBody_eq A bodyA hversion, dynamicBody_eq B bodyB hversion]
  have hsub : ∀ counts, L.rel Any
      (subcolumns A.dynamicType bodyA names states counts)
      (subcolumns B.dynamicType bodyB names states counts) :=
    subcolumns_sim hbody (fun name _ => h.dynamicType name) hstates
  refine L.ite (L.pure trivial) ?_
  refine L.ite ?_ ?_
  · refine L.both (h.bytes rows) fun discriminators => ?_
    exact L.lift fun counts => hsub counts
  refine L.both (h.columnLen _ _ _) fun len => ?_
  refine L.both (h.bytes len) fun discriminators => ?_
  exact L.lift fun counts => hsub counts

theorem jsonBody_sim {state : JsonRawState} (hstate : state.known = true) (rows : Nat) :
    L.rel Any (A.jsonBody bodyA state rows) (B.jsonBody bodyB state rows) := by
  obtain ⟨version, paths⟩ := state
  have hpaths : ∀ p ∈ paths, p.known = true := knownPaths_iff.mp hstate
  have hall : L.rel Any
      (forEach (fun path => A.dynamicBody bodyA path rows) paths)
      (forEach (fun path => B.dynamicBody bodyB path rows) paths) :=
    L.forEach fun path hpath => dynamicBody_sim h hbody (hpaths path hpath) rows
  match version with
  | 0 =>
    refine L.bind hall fun _ _ _ => ?_
    refine L.both (h.columnLen _ _ _) fun len => ?_
    exact L.bind (h.bytes len) fun _ _ _ => L.pure trivial
  | 1 => exact h.strings rows _
  | 2 => exact L.fail
  | 3 => exact hall
  | 4 => exact h.strings rows _
  | version + 5 => exact L.fail

theorem variantBody_sim {types : List ColumnType} (hP : P (.variant types))
    (hstates : knownStates states = true) (rows : Nat) :
    L.rel Any (A.variantBody bodyA types states rows)
      (B.variantBody bodyB types states rows) := by
  refine L.both h.u64 fun mode => ?_
  refine L.ite (L.pure trivial) ?_
  match mode with
  | 0 =>
    refine L.both (h.bytes rows) fun discriminators => ?_
    refine L.lift fun counts => ?_
    exact subcolumns_sim hbody (h.variantType types hP false) hstates counts
  | 1 =>
    refine L.both h.u64 fun discriminator => ?_
    refine L.both h.u64 fun compactRows => ?_
    refine L.ite L.fail ?_
    rcases htype : types[discriminator]? with _ | t
    · exact L.pure trivial
    refine L.ite (L.pure trivial) ?_
    refine L.bind (h.variantType types hP true t (mem_of_getElem? htype))
      fun ct _ hct => ?_
    obtain ⟨rfl, hct⟩ := hct
    exact hbody ct hct _ (knownStates_getD hstates discriminator) compactRows
  | mode + 2 => exact L.fail

end Bodies

/-- **Bodies in step.** -/
theorem bodyRaw_sim (h : A.Simulates L P B) (n : Nat) :
    BodiesSim L P (A.bodyRaw n) (B.bodyRaw n) := by
  induction n with
  | zero =>
    intro ct _ state _ rows
    exact L.tooDeep
  | succ n ih =>
    intro ct hP state hknown rows
    have hbelow := h.below ct hP
    refine L.ite (L.pure trivial) ?_
    -- offsets, and what lies below them
    have hnested : ∀ {name : String} {belowA : Nat → Read σ Unit}
        {belowB : Nat → Read τ Unit},
        (∀ total, L.rel Any (belowA total) (belowB total)) →
        L.rel Any
          (A.offsets rows name >>= fun total => if total = 0 then pure () else belowA total)
          (B.offsets rows name >>= fun total => if total = 0 then pure () else belowB total) := by
      intro name belowA belowB hsim
      refine L.both (h.offsets rows name) fun total => ?_
      exact L.ite (L.pure trivial) (hsim total)
    cases ct with
    | nullable inner =>
      refine L.bind (h.bytes rows) fun _ _ _ => ?_
      exact ih inner (hbelow inner mem_cons_self) _ (known_nullableInner hknown) rows
    | array inner =>
      exact hnested fun total =>
        ih inner (hbelow inner mem_cons_self) _ (known_arrayInner hknown) total
    | map key value =>
      have hvalue : value ∈ (ColumnType.map key value).children :=
        mem_cons_of_mem key mem_cons_self
      refine hnested fun total => ?_
      refine L.bind (ih key (hbelow key mem_cons_self) _ (known_mapInner hknown).1 total)
        fun _ _ _ => ?_
      exact ih value (hbelow value hvalue) _ (known_mapInner hknown).2 total
    | tuple elems =>
      refine L.forEach fun entry hentry => ?_
      obtain ⟨elem, idx⟩ := entry
      exact ih elem (hbelow elem (fst_mem_of_mem_zipIdx hentry)) _
        (knownStates_getD (known_tupleStates hknown) idx) rows
    | lowCardinality inner =>
      exact lcBody_sim h (fun n =>
        ih inner (hbelow inner mem_cons_self) _ (known_lcInner hknown) n) rows
    | json =>
      cases state with
      | json jsonState => exact jsonBody_sim h ih hknown rows
      | _ => exact L.fail
    | dynamic =>
      cases state with
      | dynamic dynamicState => exact dynamicBody_sim h ih hknown rows
      | _ => exact L.fail
    | variant types =>
      exact variantBody_sim h ih hP (known_variantStates hknown) rows
    | point =>
      have hcoord := ih .float64 (hbelow _ mem_cons_self) .none rfl rows
      exact L.bind hcoord fun _ _ _ => hcoord
    | ring | polygon | multiPolygon => exact ih _ (hbelow _ mem_cons_self) .none rfl rows
    | _ => exact h.leaf _ rows hP rfl

end Sim

end StClickHouse
