/-
  StClickHouse.TypeName.ParserLemmas
  **WHAT THE TYPE NAME PARSER ACCEPTS.**

  Two descriptions the later proofs work from, so that none of them unfolds
  the parser again:

  `parseTypeRec_mono`: a text accepted with some nesting levels left is
  accepted, with the same result, with more of them.
-/
import StClickHouse.TypeName.TypeParser

namespace StClickHouse

open RustText ColumnType List

/-! ## §1. Parenthesis balance and the depths of commas. -/

/-- Opening minus closing parentheses. -/
def parenDepth (s : Text) : Int := (s.map parenDelta).sum

@[simp] theorem parenDepth_nil : parenDepth [] = 0 := rfl

@[simp] theorem parenDepth_cons (c : Char) (s : Text) :
    parenDepth (c :: s) = parenDelta c + parenDepth s := by
  simp only [parenDepth, map_cons, sum_cons]

@[simp] theorem parenDepth_append (s t : Text) :
    parenDepth (s ++ t) = parenDepth s + parenDepth t := by
  simp only [parenDepth, map_append, sum_append]

/-- A comma stands in `s` at depth `d`. -/
def CommaAt (d : Int) (s : Text) : Prop :=
  ∃ a b, s = a ++ ',' :: b ∧ parenDepth a = d

@[simp] theorem not_commaAt_nil (d : Int) : ¬ CommaAt d [] := by
  rintro ⟨a, b, h, -⟩
  exact cons_ne_nil _ _ (append_eq_nil_iff.mp h.symm).2

variable {s : Text} {ct : ColumnType} {base : Text} {c : Char} {d : Int}

theorem commaAt_cons :
    CommaAt d (c :: s) ↔ (c = ',' ∧ d = 0) ∨ CommaAt (d - parenDelta c) s := by
  constructor
  · rintro ⟨a, b, h, hd⟩
    rcases a with _ | ⟨x, a⟩
    · injection h with hc hs
      exact .inl ⟨hc, hd.symm⟩
    injection h with hc hs
    subst hc
    rw [parenDepth_cons] at hd
    exact .inr ⟨a, b, hs, by omega⟩
  · rintro (⟨rfl, rfl⟩ | ⟨a, b, rfl, hd⟩)
    · exact ⟨[], s, rfl, rfl⟩
    · exact ⟨c :: a, b, rfl, by rw [parenDepth_cons]; omega⟩

theorem commaAt_append {t : Text} : ∀ {s : Text} {d : Int},
    CommaAt d (s ++ t) ↔ CommaAt d s ∨ CommaAt (d - parenDepth s) t
  | [], d => by
    simp only [nil_append, not_commaAt_nil, false_or, parenDepth_nil, Int.sub_zero]
  | c :: s, d => by
    rw [cons_append, commaAt_cons, commaAt_cons, commaAt_append, parenDepth_cons,
      show d - parenDelta c - parenDepth s = d - (parenDelta c + parenDepth s) by omega,
      or_assoc]

/-- No parenthesis and no comma. -/
def plain (s : Text) : Bool := s.all (fun c => c ≠ '(' && c ≠ ')' && c ≠ ',')

theorem parenDelta_of_plain (h : c ≠ '(' ∧ c ≠ ')') : parenDelta c = 0 := by
  simp only [parenDelta, h.1, h.2, if_false]

theorem plain_cons :
    plain (c :: s) = true ↔ (c ≠ '(' ∧ c ≠ ')' ∧ c ≠ ',') ∧ plain s = true := by
  simp only [plain, all_cons, Bool.and_eq_true, decide_eq_true_eq, ne_eq, and_assoc]

theorem parenDepth_of_plain : ∀ {s : Text}, plain s = true → parenDepth s = 0
  | [], _ => rfl
  | c :: s, h => by
    obtain ⟨⟨h1, h2, -⟩, hs⟩ := plain_cons.mp h
    rw [parenDepth_cons, parenDelta_of_plain ⟨h1, h2⟩, parenDepth_of_plain hs, Int.add_zero]

theorem not_commaAt_of_plain : ∀ {s : Text} {d : Int}, plain s = true → ¬ CommaAt d s
  | [], d, _ => not_commaAt_nil d
  | c :: s, d, h => by
    obtain ⟨⟨-, -, h3⟩, hs⟩ := plain_cons.mp h
    rw [commaAt_cons]
    rintro (⟨hc, -⟩ | hrest)
    · exact h3 hc
    · exact not_commaAt_of_plain hs hrest

theorem plain_of_all {p : Char → Bool} (hp : (p '(' || p ')' || p ',') = false)
    (h : ∀ c ∈ s, p c = true) : plain s = true := by
  refine all_eq_true.mpr (fun c hc => ?_)
  have hc := h c hc
  simp only [Bool.or_eq_false_iff] at hp
  have hne : c ≠ '(' ∧ c ≠ ')' ∧ c ≠ ',' := by
    refine ⟨?_, ?_, ?_⟩ <;> · rintro rfl; simp_all
  simp only [hne.1, hne.2.1, hne.2.2, ne_eq, not_false_eq_true, decide_true, Bool.and_self]

theorem plain_of_blank (h : ∀ c ∈ s, isWhitespace c = true) : plain s = true :=
  plain_of_all (by decide) h

theorem plain_number (n : Nat) : plain (number n) = true :=
  plain_of_all (p := Char.isDigit) (by decide) fun _ => isDigit_of_mem_number

@[simp] theorem parenDepth_trim (s : Text) : parenDepth (trim s) = parenDepth s := by
  obtain ⟨pre, post, hs, hpre, hpost⟩ := trim_decomp s
  have h := congrArg parenDepth hs
  rw [parenDepth_append, parenDepth_append, parenDepth_of_plain (plain_of_blank hpre),
    parenDepth_of_plain (plain_of_blank hpost)] at h
  omega

@[simp] theorem commaAt_trim : CommaAt d (trim s) ↔ CommaAt d s := by
  obtain ⟨pre, post, hs, hpre, hpost⟩ := trim_decomp s
  have hpre' := plain_of_blank hpre
  have hpost' := plain_of_blank hpost
  conv => rhs; rw [hs]
  rw [commaAt_append, commaAt_append, parenDepth_of_plain hpre', Int.sub_zero]
  simp only [not_commaAt_of_plain hpre', not_commaAt_of_plain hpost', false_or, or_false]

/-! ## §2. The comma scan. -/

theorem findCommaFrom_eq_none : ∀ {s : Text} {k : Int},
    findCommaFrom k s = none ↔ ¬ CommaAt (-k) s
  | [], k => by simp only [findCommaFrom, not_commaAt_nil, not_false_eq_true]
  | c :: s, k => by
    rw [commaAt_cons]
    simp only [findCommaFrom]
    split
    · next h => simp [h.1, h.2]
    · next h =>
      rw [Option.map_eq_none_iff, findCommaFrom_eq_none,
        show -(k + parenDelta c) = -k - parenDelta c by omega]
      constructor
      · rintro hrest (⟨hc, hk⟩ | hat)
        · exact h ⟨hc, by omega⟩
        · exact hrest hat
      · intro hnone hat
        exact hnone (Or.inr hat)

theorem findCommaFrom_eq_some : ∀ {s : Text} {k : Int} {a b : Text},
    findCommaFrom k s = some (a, b) ↔
      s = a ++ ',' :: b ∧ parenDepth a = -k ∧ ¬ CommaAt (-k) a
  | [], k, a, b => by
    constructor
    · intro h; exact absurd h.symm (Option.some_ne_none _)
    · rintro ⟨h, -, -⟩
      exact absurd (append_eq_nil_iff.mp h.symm).2 (cons_ne_nil _ _)
  | c :: s, k, a, b => by
    simp only [findCommaFrom]
    split
    · next h =>
      obtain ⟨rfl, rfl⟩ := h
      constructor
      · intro h
        injection h with h
        injection h with ha hb
        subst ha; subst hb
        exact ⟨rfl, rfl, not_commaAt_nil _⟩
      rintro ⟨h, -, hnot⟩
      rcases a with _ | ⟨x, a⟩
      · injection h with _ hb; subst hb; rfl
      injection h with hx _
      subst hx
      exact absurd (commaAt_cons.mpr (.inl ⟨rfl, rfl⟩)) hnot
    · next h =>
      constructor
      · intro hsome
        obtain ⟨⟨a', b'⟩, hrec, hab⟩ := Option.map_eq_some_iff.mp hsome
        injection hab with ha hb
        subst ha; subst hb
        obtain ⟨rfl, hdepth, hnot⟩ := findCommaFrom_eq_some.mp hrec
        have hdepth' : parenDepth (c :: a') = -k := by rw [parenDepth_cons]; omega
        refine ⟨rfl, hdepth', ?_⟩
        rw [commaAt_cons]
        rintro (⟨hc, hk⟩ | hat)
        · exact h ⟨hc, by omega⟩
        · exact hnot (by rwa [show -(k + parenDelta c) = -k - parenDelta c by omega])
      · rintro ⟨hs, hdepth, hnot⟩
        rcases a with _ | ⟨x, a⟩
        · injection hs with hc _
          rw [parenDepth_nil] at hdepth
          exact absurd ⟨hc, by omega⟩ h
        injection hs with hx hs
        subst hx
        rw [parenDepth_cons] at hdepth
        rw [commaAt_cons] at hnot
        have hrec : findCommaFrom (k + parenDelta c) s = some (a, b) := by
          refine findCommaFrom_eq_some.mpr ⟨hs, by omega, fun hat => hnot (.inr ?_)⟩
          rwa [show -k - parenDelta c = -(k + parenDelta c) by omega]
        rw [hrec]
        rfl

theorem findTopLevelComma_eq_none :
    findTopLevelComma s = none ↔ ¬ CommaAt 0 s :=
  findCommaFrom_eq_none

theorem findTopLevelComma_eq_some {s a b : Text} :
    findTopLevelComma s = some (a, b) ↔
      s = a ++ ',' :: b ∧ parenDepth a = 0 ∧ ¬ CommaAt 0 a :=
  findCommaFrom_eq_some

/-! ## §3. The shapes of an accepted name with parameters. -/

/-- The names read as a decimal type. -/
def decimalNames : List Text :=
  ["Decimal32".toList, "Decimal64".toList, "Decimal128".toList, "Decimal256".toList,
   "Decimal".toList]

/-- The names read as a JSON type. -/
def objectNames : List Text := ["Object".toList, "object".toList]

/-- The names whose parameters are dropped altogether and whose printed form
is the bare name. -/
def droppedNames : List Text :=
  ["Enum8".toList, "Enum16".toList, "AggregateFunction".toList,
   "SimpleAggregateFunction".toList]

/-- Every name that takes parameters. -/
def paramNames : List Text :=
  ["Nullable".toList, "Array".toList, "LowCardinality".toList, "Map".toList, "Tuple".toList,
   "Variant".toList, "FixedString".toList, "DateTime64".toList, "Time64".toList,
   "DateTime".toList] ++ decimalNames ++ objectNames ++ droppedNames

/-- What `base(inner)` can be read as, with `parse` for the names inside. -/
inductive ParamShape (parse : Text → Except String ColumnType) : Text → Text → ColumnType → Prop
  | nullable {inner c} : parse inner = .ok c →
      ParamShape parse "Nullable".toList inner (.nullable c)
  | array {inner c} : parse inner = .ok c →
      ParamShape parse "Array".toList inner (.array c)
  | lowCardinality {inner c} : parse inner = .ok c →
      ParamShape parse "LowCardinality".toList inner (.lowCardinality c)
  | map {inner k v kt vt} : findTopLevelComma inner = some (k, v) →
      parse k = .ok kt → parse v = .ok vt → ParamShape parse "Map".toList inner (.map kt vt)
  | tuple {inner ts} : parseTypes parse inner.length inner = .ok ts →
      ParamShape parse "Tuple".toList inner (.tuple ts)
  | variant {inner ts} : parseTypes parse inner.length inner = .ok ts →
      ParamShape parse "Variant".toList inner (.variant ts)
  | fixedString {inner} (n : UInt64) : ParamShape parse "FixedString".toList inner (.fixedString n)
  | dateTime64 {inner} (s : UInt32) : ParamShape parse "DateTime64".toList inner (.dateTime64 s)
  | time64 {inner} (s : UInt32) : ParamShape parse "Time64".toList inner (.time64 s)
  | decimal {base inner} (p s : UInt32) : base ∈ decimalNames →
      ParamShape parse base inner (.decimal p s)
  | dateTime {inner} : ParamShape parse "DateTime".toList inner .dateTime
  | json {base inner} : base ∈ objectNames → ParamShape parse base inner .json
  | enum8 {inner} : ParamShape parse "Enum8".toList inner .enum8
  | enum16 {inner} : ParamShape parse "Enum16".toList inner .enum16
  | aggregateFunction {inner} :
      ParamShape parse "AggregateFunction".toList inner .aggregateFunction
  | simpleAggregateFunction {inner} :
      ParamShape parse "SimpleAggregateFunction".toList inner .simpleAggregateFunction

theorem ParamShape.base_mem {parse : Text → Except String ColumnType} {base inner : Text}
    (h : ParamShape parse base inner ct) : base ∈ paramNames := by
  have hdec : ∀ b ∈ decimalNames, b ∈ paramNames := by decide
  have hobj : ∀ b ∈ objectNames, b ∈ paramNames := by decide
  cases h with
  | decimal p s hb => exact hdec _ hb
  | json hb => exact hobj _ hb
  | _ => decide

/-- A known base name is non-empty, starts with no blank and holds neither
parenthesis nor comma. -/
theorem plain_of_mem_paramNames : ∀ {b : Text}, b ∈ paramNames →
    plain b = true ∧ b ≠ [] ∧ b.head?.all (fun c => !isWhitespace c) = true := by
  intro b hb
  have h : ∀ b ∈ paramNames,
      plain b = true ∧ b ≠ [] ∧ b.head?.all (fun c => !isWhitespace c) = true := by decide
  exact h b hb

/-- An accepted `base(inner)` has a known shape, or is kept as an unknown
name. -/
theorem parseParametric_ok {parse : Text → Except String ColumnType} {s base inner : Text}
    (h : parseParametric parse s base inner = .ok ct) :
    (ct = .other s ∧ base ∉ paramNames) ∨ ParamShape parse base inner ct := by
  have hshape : ∀ {x : String} {c : ColumnType}, String.ofList base = x →
      (.ok c : Except String ColumnType) = .ok ct → ParamShape parse x.toList inner c →
      (ct = .other s ∧ base ∉ paramNames) ∨ ParamShape parse base inner ct := by
    rintro x c rfl hct hc
    cases hct
    rw [String.toList_ofList] at hc
    exact .inr hc
  unfold parseParametric at h
  split at h
  · next hb =>
    obtain ⟨c, hc, hct⟩ := bind_eq_ok h
    exact hshape hb hct (.nullable hc)
  · next hb =>
    obtain ⟨c, hc, hct⟩ := bind_eq_ok h
    exact hshape hb hct (.array hc)
  · next hb =>
    split at h
    · cases h
    · next k v hcomma =>
      obtain ⟨kt, hk, h⟩ := bind_eq_ok h
      obtain ⟨vt, hv, hct⟩ := bind_eq_ok h
      exact hshape hb hct (.map hcomma hk hv)
  · next hb =>
    obtain ⟨ts, hts, hct⟩ := bind_eq_ok h
    exact hshape hb hct (.tuple hts)
  · next hb =>
    obtain ⟨c, hc, hct⟩ := bind_eq_ok h
    exact hshape hb hct (.lowCardinality hc)
  · next hb => exact hshape hb h .enum8
  · next hb => exact hshape hb h .enum16
  · next hb =>
    obtain ⟨n, -, hct⟩ := bind_eq_ok h
    exact hshape hb hct (.fixedString n)
  · next hb =>
    obtain ⟨n, -, hct⟩ := bind_eq_ok h
    exact hshape hb hct (.dateTime64 n)
  · next hb => exact hshape hb h .dateTime
  · next hb =>
    obtain ⟨n, -, hct⟩ := bind_eq_ok h
    exact hshape hb hct (.time64 n)
  case h_12 | h_13 | h_14 | h_15 =>
    -- the four decimals of a fixed width
    rename_i hb
    obtain ⟨n, -, hct⟩ := bind_eq_ok h
    exact hshape hb hct (.decimal _ n (by decide))
  · next hb =>
    split at h
    · cases h
    obtain ⟨p, -, h⟩ := bind_eq_ok h
    obtain ⟨n, -, hct⟩ := bind_eq_ok h
    exact hshape hb hct (.decimal p n (by decide))
  · next hb =>
    obtain ⟨ts, hts, hct⟩ := bind_eq_ok h
    exact hshape hb hct (.variant hts)
  · next hb => exact hshape hb h (.json (by decide))
  · next hb => exact hshape hb h (.json (by decide))
  · next hb => exact hshape hb h .aggregateFunction
  · next hb => exact hshape hb h .simpleAggregateFunction
  cases h
  refine .inl ⟨rfl, fun hmem => ?_⟩
  unfold paramNames decimalNames objectNames droppedNames at hmem
  fin_cases hmem <;> simp_all

/-- The `Time64` prefix branch never yields a type: the text handed to the
number parser starts with a letter. -/
theorem parseSimple_time64 (h : "Time64".toList.isPrefixOf base = true) :
    ∃ e, parseU32 (base.rdropWhile (· == ')')) = .error e := by
  obtain ⟨rest, rfl⟩ := isPrefixOf_iff_prefix.mp h
  obtain ⟨post, hpost⟩ := rdropWhile_prefix (· == ')') ("Time64".toList ++ rest)
  rcases hr : List.rdropWhile (· == ')') ("Time64".toList ++ rest) with _ | ⟨c, cs⟩
  · rw [rdropWhile_eq_nil_iff] at hr
    exact absurd (hr 'T' (by simp)) (by decide)
  rw [hr] at hpost
  have hc : c = 'T' := (List.cons.inj hpost).1
  subst hc
  refine ⟨"invalid digit found in string", ?_⟩
  unfold parseU32
  rw [parseUnsigned_cons_error (by decide) (by decide)]
  rfl

theorem parseSimple_ok (h : parseSimple base = .ok ct) :
    (base, ct) ∈ simpleTypes ∨ ct = .other base := by
  unfold parseSimple at h
  split at h
  · next p hp =>
    have hmem := mem_of_find?_eq_some hp
    have hbase : p.1 = base := by simpa using List.find?_some hp
    cases h
    rw [← hbase]
    exact .inl hmem
  split at h
  · next htime =>
    obtain ⟨e, he⟩ := parseSimple_time64 htime
    rw [he] at h
    cases h
  · cases h
    exact .inr rfl

/-! ## §4. The recursive parser. -/

theorem parenDepth_wrap (inner : Text) (hb : plain base = true) :
    parenDepth (wrap base inner) = parenDepth inner := by
  unfold wrap
  rw [parenDepth_append, parenDepth_of_plain hb, parenDepth_cons, parenDepth_append,
    parenDepth_cons, parenDepth_nil, show parenDelta '(' = 1 from rfl,
    show parenDelta ')' = -1 from rfl]
  omega

theorem commaAt_wrap {base inner : Text} (hb : plain base = true) :
    CommaAt d (wrap base inner) ↔ CommaAt (d - 1) inner := by
  have hclose : ∀ e, ¬ CommaAt e [')'] := by
    intro e h
    rcases commaAt_cons.mp h with ⟨hc, -⟩ | hnil
    · exact absurd hc (by decide)
    · exact not_commaAt_nil _ hnil
  unfold wrap
  rw [commaAt_append, parenDepth_of_plain hb, commaAt_cons, commaAt_append,
    show parenDelta '(' = 1 from rfl, Int.sub_zero]
  simp only [not_commaAt_of_plain hb, hclose, false_or, or_false, Char.reduceEq, false_and]

theorem not_mem_of_plain (h : plain s = true) : '(' ∉ s := by
  intro hmem
  have hc := all_eq_true.mp h '(' hmem
  exact absurd hc (by decide)

theorem baseName_append {base rest : Text} (hb : '(' ∉ base) :
    baseName (base ++ '(' :: rest) = base := by
  unfold baseName
  rw [takeWhile_append_of_pos (fun c hc => by
    rw [decide_eq_true_eq]; rintro rfl; exact hb hc)]
  simp

theorem dropWhile_paren_append {base rest : Text} (hb : '(' ∉ base) :
    (base ++ '(' :: rest).dropWhile (· ≠ '(') = '(' :: rest := by
  rw [dropWhile_append_of_pos (fun c hc => by
    rw [decide_eq_true_eq]; rintro rfl; exact hb hc)]
  simp

theorem parseTypeRec_wrap (levels : Nat) {s base inner : Text} (hs : trim s = wrap base inner)
    (hb : '(' ∉ base) (hne : base ≠ []) :
    parseTypeRec (levels + 1) s
      = parseParametric (parseTypeRec levels) (wrap base inner) base (trim inner) := by
  have hbase : baseName (wrap base inner) = base := baseName_append hb
  have hdrop : (wrap base inner).dropWhile (· ≠ '(') = '(' :: (inner ++ [')']) :=
    dropWhile_paren_append hb
  simp only [parseTypeRec, hs, hbase, hne, if_false, hdrop, List.getLast?_concat, if_true,
    dropLast_concat]

theorem parseTypeRec_trim (levels : Nat) (s : Text) :
    parseTypeRec levels (trim s) = parseTypeRec levels s := by
  cases levels with
  | zero => rfl
  | succ levels => simp only [parseTypeRec, trim_trim]

/-- The base name and the parameter text of `base(inner)`. -/
def splitParams (s : Text) : Option (Text × Text) :=
  match (trim s).dropWhile (· ≠ '(') with
  | [] => none
  | _ :: tail =>
    if tail.getLast? = some ')' then some (baseName (trim s), trim tail.dropLast) else none

theorem splitParams_wrap {s base inner : Text} (hs : trim s = wrap base inner)
    (hb : base ∈ paramNames) : splitParams s = some (base, trim inner) := by
  have hnot := not_mem_of_plain (plain_of_mem_paramNames hb).1
  have hbase : baseName (wrap base inner) = base := baseName_append hnot
  have hdrop : (wrap base inner).dropWhile (· ≠ '(') = '(' :: (inner ++ [')']) :=
    dropWhile_paren_append hnot
  simp only [splitParams, hs, hdrop, List.getLast?_concat, if_true, hbase,
    dropLast_concat]

/-- **What the parser accepts.**  A simple name; an unknown name, kept as it
is; or `base(inner)` in one of the known shapes. -/
theorem parseTypeRec_ok_cases {levels : Nat}
    (h : parseTypeRec (levels + 1) s = .ok ct) :
    (trim s, ct) ∈ simpleTypes
      ∨ (ct = .other (trim s) ∧ ∀ base inner, splitParams s = some (base, inner) →
          base ∉ paramNames)
      ∨ ∃ base inner, trim s = wrap base inner ∧
        ParamShape (parseTypeRec levels) base (trim inner) ct := by
  have hsplit := takeWhile_append_dropWhile (p := fun c => decide (c ≠ '(')) (l := trim s)
  simp only [parseTypeRec] at h
  split at h
  · cases h
  split at h
  · next hdrop =>
    rcases parseSimple_ok h with hmem | hother
    · exact .inl hmem
    refine .inr (.inl ⟨hother, fun base inner hsp => ?_⟩)
    simp only [splitParams, hdrop] at hsp
    cases hsp
  · next c tail hdrop =>
    split at h
    · next hlast =>
      rcases parseParametric_ok h with ⟨hother, hnot⟩ | hshape
      · refine .inr (.inl ⟨hother, fun base inner hsp => ?_⟩)
        simp only [splitParams, hdrop, hlast, if_true] at hsp
        cases hsp
        exact hnot
      refine .inr (.inr ⟨baseName (trim s), tail.dropLast, ?_, hshape⟩)
      have hc : c = '(' := by
        have := List.head?_dropWhile_not (fun c => decide (c ≠ '(')) (trim s)
        rw [hdrop] at this
        simpa using this
      rw [hdrop, hc] at hsplit
      rw [wrap, dropLast_append_getLast? _ hlast]
      exact hsplit.symm
    · cases h

/-! ## §5. More nesting levels change nothing. -/

section Mono

variable {parse parse' : Text → Except String ColumnType}

theorem parseTypes_mono (hp : ∀ t c, parse t = .ok c → parse' t = .ok c) :
    ∀ {fuel : Nat} {s : Text} {ts : List ColumnType},
      parseTypes parse fuel s = .ok ts → parseTypes parse' fuel s = .ok ts
  | 0, s, ts, h | fuel + 1, [], ts, h => h
  | fuel + 1, c :: cs, ts, h => by
    simp only [parseTypes] at h ⊢
    split at h
    · obtain ⟨t, ht, h⟩ := bind_eq_ok h
      obtain ⟨rest, hrest, h⟩ := bind_eq_ok h
      rw [hp _ _ ht, parseTypes_mono hp hrest]
      exact h
    obtain ⟨t, ht, h⟩ := bind_eq_ok h
    rw [hp _ _ ht]
    exact h

theorem parseParametric_mono (hp : ∀ t c, parse t = .ok c → parse' t = .ok c)
    {s base inner : Text} {ct : ColumnType} (h : parseParametric parse s base inner = .ok ct) :
    parseParametric parse' s base inner = .ok ct := by
  -- only the six names that recurse look at `parse`
  unfold parseParametric at h ⊢
  split at h
  case h_1 | h_2 | h_5 =>
    obtain ⟨c, hc, h⟩ := bind_eq_ok h
    rw [hp _ _ hc]
    exact h
  case h_3 =>
    split at h
    · cases h
    obtain ⟨kt, hk, h⟩ := bind_eq_ok h
    obtain ⟨vt, hv, h⟩ := bind_eq_ok h
    rw [hp _ _ hk, hp _ _ hv]
    exact h
  case h_4 | h_17 =>
    obtain ⟨ts, hts, h⟩ := bind_eq_ok h
    rw [parseTypes_mono hp hts]
    exact h
  all_goals exact h

end Mono

/-- A text accepted with some levels left is accepted alike with more. -/
theorem parseTypeRec_mono : ∀ {levels levels' : Nat} {s : Text} {ct : ColumnType},
    levels ≤ levels' → parseTypeRec levels s = .ok ct → parseTypeRec levels' s = .ok ct
  | 0, _, s, ct, _, h => by cases h
  | levels + 1, 0, s, ct, hle, _ => absurd hle (Nat.not_succ_le_zero levels)
  | levels + 1, levels' + 1, s, ct, hle, h => by
    have hp : ∀ t c, parseTypeRec levels t = .ok c → parseTypeRec levels' t = .ok c :=
      fun t c ht => parseTypeRec_mono (Nat.le_of_succ_le_succ hle) ht
    simp only [parseTypeRec] at h ⊢
    split at h
    · cases h
    · next hbase =>
      rw [if_neg hbase]
      split at h
      · exact h
      split at h
      · next hlast => rw [if_pos hlast]; exact parseParametric_mono hp h
      · cases h

end StClickHouse
