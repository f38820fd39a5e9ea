/-
  StClickHouse.Wire.RawColumn
  **RAW COLUMNS: STATE PREFIX AND BODY.**

  The crate has three copies of the raw column walker: the recording reader of
  the async engine (`read_column_state_prefix_recorded` and its relatives in
  `raw_block_reader.rs`), the one of the sync engine (`..._into` in
  `sync/protocol/response.rs`) and the slice skipper (`skip_state_prefix`,
  `skip_body_raw` in `shared/skip_column.rs`).  They share one shape: the state
  prefixes of a column come first, then its body, dispatched on the parsed
  type.  The shape is written here once, over the operations in which the
  three differ (`RawOps`); each engine instantiates it.

  Recursive functions take the call depth they may use.  A Dynamic column names
  its types in the stream, so no bound on the depth follows from the type.
-/
import StClickHouse.TypeName.TypeParser
import StClickHouse.Wire.Primitives

namespace StClickHouse

open ByteReader RustText

/-! ## §1. Column state. -/

mutual

/-- What the state prefix of a column says about its body. -/
inductive RawColumnState where
  | none
  | nullable (inner : RawColumnState)
  | array (inner : RawColumnState)
  | map (key value : RawColumnState)
  | tuple (states : List RawColumnState)
  | lowCardinality (inner : RawColumnState)
  | variant (states : List RawColumnState)
  | dynamic (state : DynamicRawState)
  | json (state : JsonRawState)

/-- The types a Dynamic column carries, and their states. -/
inductive DynamicRawState where
  | mk (version : Nat) (typeNames : List Text) (typeStates : List RawColumnState)

/-- The dynamic paths of a JSON column. -/
inductive JsonRawState where
  | mk (version : Nat) (dynamicPaths : List DynamicRawState)

end

namespace RawColumnState

/-- The state below a Nullable. -/
def nullableInner : RawColumnState → RawColumnState
  | .nullable inner => inner
  | _ => .none

/-- The state below an Array. -/
def arrayInner : RawColumnState → RawColumnState
  | .array inner => inner
  | _ => .none

/-- The states below a Map. -/
def mapInner : RawColumnState → RawColumnState × RawColumnState
  | .map key value => (key, value)
  | _ => (.none, .none)

/-- The states of the elements of a Tuple. -/
def tupleStates : RawColumnState → List RawColumnState
  | .tuple states => states
  | _ => []

/-- The state below a LowCardinality. -/
def lcInner : RawColumnState → RawColumnState
  | .lowCardinality inner => inner
  | _ => .none

/-- `variant_states`. -/
def variantStates : RawColumnState → List RawColumnState
  | .variant states => states
  | _ => []

end RawColumnState

/-! ## §2. The operations in which the three walkers differ. -/

/-- A raw column walker's own operations. -/
structure RawOps (σ : Type) where
  /-- A fixed-size field of the framing. -/
  field : Nat → Read σ Bytes
  /-- Column data. -/
  bytes : Nat → Read σ Bytes
  /-- A varint. -/
  varint : Read σ Nat
  /-- The path of a JSON subcolumn. -/
  jsonPath : Read σ Unit
  /-- The name of a Dynamic subcolumn type. -/
  typeName : Read σ Text
  /-- `rows * width`, checked. -/
  columnLen : Nat → Nat → String → Result Nat
  /-- Array or Map offsets: the inner row count. -/
  offsets : Nat → String → Read σ Nat
  /-- Length-prefixed strings. -/
  strings : Nat → String → Read σ Unit
  /-- A column with no subcolumn and no state. -/
  leaf : ColumnType → Nat → Read σ Unit
  /-- The type a Dynamic column names. -/
  dynamicType : Text → Result ColumnType
  /-- The type of a Variant element, for the plain and the compact layout. -/
  variantType : Bool → ColumnType → Result ColumnType
  /-- Key count and index width of a LowCardinality header. -/
  lcHeader : Bytes → Result (Nat × Nat)
  /-- An empty Dynamic body is accepted before its version is looked at. -/
  emptyDynamicFirst : Bool

/-- A decimal column; `fixed` handles a column of its width. -/
def decimalColumn {σ α : Type} (fixed : Nat → Read σ α) (precision : UInt32) :
    Read σ α :=
  match ColumnType.decimalWidth precision with
  | some width => fixed width
  | none => fail (.text ("unsupported Decimal precision " ++ toString precision.toNat))

variable {σ α : Type} {precision : UInt32}

theorem decimalColumn_rel {τ β : Type} (L : Logic Error σ τ) {R : α → β → Prop}
    {f : Nat → Read σ α} {g : Nat → Read τ β}
    (h : ∀ width, L.rel R (f width) (g width)) :
    L.rel R (decimalColumn f precision) (decimalColumn g precision) := by
  unfold decimalColumn
  cases ColumnType.decimalWidth precision with
  | some width => exact h width
  | none => exact L.fail

/-- The same of readers that have their own words for a precision there is not. -/
theorem decimal_sim {τ β : Type} {c : Corr Error Error σ τ} {R : α → β → Prop}
    {f : Nat → Read σ α} {g : Nat → Read τ β} {e e' : Error}
    (h : ∀ width, Sim c R (f width) (g width)) :
    Sim c R (match ColumnType.decimalWidth precision with
      | some width => f width
      | none => fail e) (match ColumnType.decimalWidth precision with
      | some width => g width
      | none => fail e') := by
  cases ColumnType.decimalWidth precision with
  | some width => exact h width
  | none => exact .fail_fail

/-- A raw column with no subcolumn and no state, as both recording readers have
it; `unsupported` starts the message for aggregate states. -/
def rawLeaf {σ : Type} (strings : Nat → String → Read σ Unit)
    (take : Nat → Read σ Bytes) (unsupported : String) (ct : ColumnType)
    (rows : Nat) : Read σ Unit :=
  match ct with
  | .string | .other _ => strings rows "string value length"
  | .fixedString n => do
    let len ← liftExcept (checkedColumnLen rows n.toNat "FixedString column")
    let _ ← take len
    return ()
  | .aggregateFunction | .simpleAggregateFunction =>
    fail (.text (unsupported ++ String.ofList ct.display))
  | ct =>
    match ct.fixedWidth with
    | some width => do
      let len ← liftExcept (checkedColumnLen rows width "fixed-width column")
      let _ ← take len
      return ()
    | none => fail (.text ("unknown type " ++ String.ofList ct.display))

/-- A type name the parser refuses, under the label of the caller. -/
def badType (label : String) (name : Text) (e : String) : Error :=
  .text ("bad " ++ label ++ " '" ++ String.ofList name ++ "': " ++ e)

/-- Parse a type name of the stream. -/
def parseTypeAs (label : String) (name : Text) : Result ColumnType :=
  match parseType name with
  | .ok ct => .ok ct
  | .error e => .error (badType label name e)

section Walker

variable {σ : Type} (ops : RawOps σ)

/-- A little-endian `u64` of the framing. -/
def RawOps.u64 : Read σ Nat := do
  let bs ← ops.field 8
  return leNat bs

/-! ## §3. State prefixes. -/

/-- The varint-counted type names of a Dynamic state prefix. -/
def RawOps.dynamicTypeNames : Read σ (List Text) := do
  let value ← ops.varint
  let count ← liftExcept (checkedCount value "dynamic subcolumn types" maxJsonDynamicItems)
  collect (fun _ => ops.typeName) (List.replicate count ())

/-- The state of every type a Dynamic column names. -/
def RawOps.dynamicTypeStates (prefixOf : ColumnType → Read σ RawColumnState)
    (names : List Text) : Read σ (List RawColumnState) :=
  collect (fun name => do
    let ct ← liftExcept (ops.dynamicType name)
    prefixOf ct) names

/-- State prefix of a Dynamic column. -/
def RawOps.dynamicState (prefixOf : ColumnType → Read σ RawColumnState) :
    Read σ DynamicRawState := do
  let version ← ops.u64
  let names ← (match version with
    | 0 => pure []
    | 1 => do
      let _maxTypes ← ops.varint
      let names ← ops.dynamicTypeNames
      let _variantVersion ← ops.u64
      return names
    | 2 | 3 => ops.dynamicTypeNames
    | other => fail (.text ("unknown Dynamic subcolumn serialization version "
        ++ toString other)))
  let states ← ops.dynamicTypeStates prefixOf names
  return .mk version names states

/-- The paths of a JSON state prefix: all names, then all states. -/
def RawOps.jsonPaths (prefixOf : ColumnType → Read σ RawColumnState) :
    Read σ (List DynamicRawState) := do
  let value ← ops.varint
  let count ← liftExcept (checkedCount value "JSON path" maxJsonDynamicItems)
  times count ops.jsonPath
  collect (fun _ => ops.dynamicState prefixOf) (List.replicate count ())

/-- State prefix of a JSON column. -/
def RawOps.jsonState (prefixOf : ColumnType → Read σ RawColumnState) :
    Read σ JsonRawState := do
  let version ← ops.u64
  let paths ← (match version with
    | 1 | 4 => pure []
    | 3 => ops.jsonPaths prefixOf
    | 0 => do
      let _maxDynamicPaths ← ops.varint
      ops.jsonPaths prefixOf
    | other => fail (.text ("unknown JSON serialization version " ++ toString other)))
  return .mk version paths

/-- State prefix of a column. -/
def RawOps.statePrefix : Nat → ColumnType → Read σ RawColumnState
  | 0, _ => tooDeep
  | depth + 1, ct =>
    match ct with
    | .nullable inner => do return .nullable (← RawOps.statePrefix depth inner)
    | .array inner => do return .array (← RawOps.statePrefix depth inner)
    | .map key value => do
      let keyState ← RawOps.statePrefix depth key
      let valueState ← RawOps.statePrefix depth value
      return .map keyState valueState
    | .tuple elems => do return .tuple (← collect (RawOps.statePrefix depth) elems)
    | .lowCardinality inner => do return .lowCardinality (← RawOps.statePrefix depth inner)
    | .variant types => do return .variant (← collect (RawOps.statePrefix depth) types)
    | .dynamic => do return .dynamic (← ops.dynamicState (RawOps.statePrefix depth))
    | .json => do return .json (← ops.jsonState (RawOps.statePrefix depth))
    | _ => pure .none

/-! ## §4. Discriminators. -/

/-- One discriminator: a type index is counted, NULL is not, anything else is
refused. -/
def countDiscriminator (isNull : Nat → Bool) (reject : Nat → Error) (counts : List Nat)
    (idx : Nat) : Result (List Nat) :=
  if idx < counts.length then .ok (counts.modify idx (· + 1))
  else if isNull idx then .ok counts
  else .error (reject idx)

/-- The number of rows of each of `n` types. -/
def countDiscriminators (isNull : Nat → Bool) (reject : Nat → Error) (n : Nat)
    (discriminators : List Nat) : Result (List Nat) :=
  discriminators.foldlM (countDiscriminator isNull reject) (List.replicate n 0)

/-- `dynamic_discriminator_width`. -/
def dynamicDiscriminatorWidth (typeCount : Nat) : Nat :=
  if typeCount < 2 ^ 8 then 1
  else if typeCount < 2 ^ 16 then 2
  else if typeCount < 2 ^ 32 then 4
  else 8

/-- The counts of a deprecated Dynamic body: one byte a row, 255 is NULL. -/
def deprecatedCounts (n : Nat) (discriminators : Bytes) : Result (List Nat) :=
  countDiscriminators (· == 255)
    (fun idx => .text ("deprecated Dynamic discriminator " ++ toString idx
      ++ " exceeds type count " ++ toString n))
    n (discriminators.map UInt8.toNat)

/-- The counts of a flattened Dynamic body: the type count itself is NULL. -/
def flattenedCounts (n : Nat) (discriminators : Bytes) : Result (List Nat) :=
  countDiscriminators (· == n)
    (fun idx => .text ("Dynamic discriminator " ++ toString idx
      ++ " exceeds type count " ++ toString n))
    n ((chunksExact (dynamicDiscriminatorWidth n) discriminators).map leNat)

/-- The counts of a Variant body: anything that is no type index is NULL. -/
def variantCounts (n : Nat) (discriminators : Bytes) : Result (List Nat) :=
  countDiscriminators (fun _ => true) (fun _ => .text "") n (discriminators.map UInt8.toNat)

/-! ## §5. Bodies. -/

/-- The subcolumns of the types that have rows, in type order. -/
def subcolumns {τ : Type} (typeOf : τ → Result ColumnType)
    (body : ColumnType → RawColumnState → Nat → Read σ Unit)
    (types : List τ) (states : List RawColumnState) (counts : List Nat) : Read σ Unit :=
  forEach (fun ((t, count), idx) =>
      if count = 0 then pure ()
      else do
        let ct ← liftExcept (typeOf t)
        body ct (states.getD idx .none) count)
    (types.zip counts).zipIdx

variable (body : ColumnType → RawColumnState → Nat → Read σ Unit)

/-- Body of a Dynamic column. -/
def RawOps.dynamicBody (state : DynamicRawState) (rows : Nat) : Read σ Unit :=
  match state with
  | .mk version names states =>
    if ops.emptyDynamicFirst ∧ (rows = 0 ∨ names = []) then pure ()
    else match version with
      | 0 => pure ()
      | 1 =>
        if rows = 0 ∨ names = [] then pure ()
        else do
          let discriminators ← ops.bytes rows
          let counts ← liftExcept (deprecatedCounts names.length discriminators)
          subcolumns ops.dynamicType body names states counts
      | 2 | 3 =>
        if rows = 0 ∨ names = [] then pure ()
        else do
          let len ← liftExcept (ops.columnLen rows (dynamicDiscriminatorWidth names.length)
            "Dynamic discriminators")
          let discriminators ← ops.bytes len
          let counts ← liftExcept (flattenedCounts names.length discriminators)
          subcolumns ops.dynamicType body names states counts
      | other => fail (.text ("unknown Dynamic serialization version " ++ toString other))

/-- Body of a JSON column. -/
def RawOps.jsonBody (state : JsonRawState) (rows : Nat) : Read σ Unit :=
  match state with
  | .mk version paths =>
    match version with
    | 1 | 4 => ops.strings rows "JSON string length"
    | 3 => forEach (fun path => ops.dynamicBody body path rows) paths
    | 0 => do
      forEach (fun path => ops.dynamicBody body path rows) paths
      let len ← liftExcept (ops.columnLen rows 8 "JSON offsets")
      let _ ← ops.bytes len
      return ()
    | other => fail (.text ("unknown JSON serialization version " ++ toString other))

/-- Body of a Variant column: mode 0 has a discriminator for every row, mode 1
is one compact granule.  (The source's flag for one-based discriminators is
never set.) -/
def RawOps.variantBody (types : List ColumnType) (states : List RawColumnState) (rows : Nat) :
    Read σ Unit := do
  let mode ← ops.u64
  if rows = 0 ∨ types = [] then pure ()
  else match mode with
    | 0 => do
      let discriminators ← ops.bytes rows
      let counts ← liftExcept (variantCounts types.length discriminators)
      subcolumns (ops.variantType false) body types states counts
    | 1 => do
      let discriminator ← ops.u64
      let compactRows ← ops.u64
      if compactRows > rows then
        fail (.text ("Variant compact rows " ++ toString compactRows ++ " exceeds row count "
          ++ toString rows))
      else match types[discriminator]? with
        | some t =>
          if compactRows = 0 then pure ()
          else do
            let ct ← liftExcept (ops.variantType true t)
            body ct (states.getD discriminator .none) compactRows
        | none => pure ()
    | other => fail (.text ("unknown Variant serialization mode " ++ toString other))

/-- The index count and the indexes of a LowCardinality column. -/
def RawOps.lcIndexes (idxWidth rows : Nat) : Read σ Unit := do
  let indexes ← ops.u64
  if indexes ≠ rows then fail (lcCountError indexes rows)
  else do
    let len ← liftExcept (ops.columnLen indexes idxWidth "LowCardinality index")
    let _ ← ops.bytes len
    return ()

/-- Body of a LowCardinality column: header, dictionary, index count, indexes. -/
def RawOps.lcBody
    (inner : ColumnType) (innerState : RawColumnState) (rows : Nat) : Read σ Unit := do
  let header ← ops.field 24
  let keys ← liftExcept (ops.lcHeader header)
  let _ ← (if keys.1 = 0 then pure () else body inner innerState keys.1)
  ops.lcIndexes keys.2 rows

/-- Body of a column whose state prefix has been read. -/
def RawOps.bodyRaw : Nat → ColumnType → RawColumnState → Nat → Read σ Unit
  | 0, _, _, _ => tooDeep
  | depth + 1, ct, state, rows =>
    if rows = 0 then pure ()
    else match ct with
      | .nullable inner => do
        let _ ← ops.bytes rows
        RawOps.bodyRaw depth inner state.nullableInner rows
      | .array inner => do
        let total ← ops.offsets rows "array offset"
        if total = 0 then pure ()
        else RawOps.bodyRaw depth inner state.arrayInner total
      | .map key value => do
        let total ← ops.offsets rows "map offset"
        if total = 0 then pure ()
        else do
          RawOps.bodyRaw depth key state.mapInner.1 total
          RawOps.bodyRaw depth value state.mapInner.2 total
      | .tuple elems =>
        forEach (fun (elem, idx) =>
          RawOps.bodyRaw depth elem (state.tupleStates.getD idx .none) rows) elems.zipIdx
      | .lowCardinality inner => ops.lcBody (RawOps.bodyRaw depth) inner state.lcInner rows
      | .json =>
        match state with
        | .json jsonState => ops.jsonBody (RawOps.bodyRaw depth) jsonState rows
        | _ => fail (.text "missing JSON state prefix")
      | .dynamic =>
        match state with
        | .dynamic dynamicState => ops.dynamicBody (RawOps.bodyRaw depth) dynamicState rows
        | _ => fail (.text "missing Dynamic state prefix")
      | .variant types => ops.variantBody (RawOps.bodyRaw depth) types state.variantStates rows
      | .point => do
        RawOps.bodyRaw depth .float64 .none rows
        RawOps.bodyRaw depth .float64 .none rows
      | .ring => RawOps.bodyRaw depth (.array .point) .none rows
      | .polygon => RawOps.bodyRaw depth (.array .ring) .none rows
      | .multiPolygon => RawOps.bodyRaw depth (.array .polygon) .none rows
      | ct => ops.leaf ct rows

end Walker

end StClickHouse
