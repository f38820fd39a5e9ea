/-
  StClickHouse.TypeName.RoundTrip
  **PRINTING A TYPE AND PARSING IT AGAIN.**

  The column readers hand the printed form of a nested type back to
  `parse_type`.  The printed form of an accepted type is always accepted
  again, but not always as the same type: `Enum8(...)`, `Enum16(...)`,
  `AggregateFunction(...)` and `SimpleAggregateFunction(...)` print without
  their parameters, and the bare names parse as unknown types.

      parseType_display_iff   — the round trip holds exactly when no type
                                position of the text is one of the four names
                                with parameters
-/
import StClickHouse.TypeName.ParserLemmas

namespace StClickHouse

open RustText ColumnType List

/-! ## §1. The type a printed name is read back as. -/

namespace ColumnType

mutual

/-- The type the printed form parses to: the leaves that print without their
parameters come back as unknown types. -/
def reread : ColumnType → ColumnType
  | .enum8 => .other "Enum8".toList
  | .enum16 => .other "Enum16".toList
  | .aggregateFunction => .other "AggregateFunction".toList
  | .simpleAggregateFunction => .other "SimpleAggregateFunction".toList
  | .nullable inner => .nullable (reread inner)
  | .array inner => .array (reread inner)
  | .map k v => .map (reread k) (reread v)
  | .tuple types => .tuple (rereadTypes types)
  | .lowCardinality inner => .lowCardinality (reread inner)
  | .variant types => .variant (rereadTypes types)
  | ct => ct

/-- `reread` on the elements of a tuple or variant. -/
def rereadTypes : List ColumnType → List ColumnType
  | [] => []
  | t :: ts => reread t :: rereadTypes ts

end

mutual

/-- Some leaf of the type prints without its parameters. -/
def dropsParams : ColumnType → Bool
  | .enum8 | .enum16 | .aggregateFunction | .simpleAggregateFunction => true
  | .nullable inner | .array inner | .lowCardinality inner => dropsParams inner
  | .map k v => dropsParams k || dropsParams v
  | .tuple types | .variant types => dropsParamsAny types
  | _ => false

/-- Some element drops its parameters. -/
def dropsParamsAny : List ColumnType → Bool
  | [] => false
  | t :: ts => dropsParams t || dropsParamsAny ts

end

theorem rereadTypes_eq_map (ts : List ColumnType) : rereadTypes ts = ts.map reread := by
  induction ts with
  | nil => rfl
  | cons t ts ih => rw [rereadTypes, ih, map_cons]

end ColumnType

mutual

/-- **`reread` fixes exactly the types whose printed form is complete.** -/
theorem reread_eq_self_iff (ct : ColumnType) : reread ct = ct ↔ dropsParams ct = false := by
  cases ct with
  | nullable inner | array inner | lowCardinality inner =>
    simp only [reread, dropsParams, nullable.injEq, array.injEq, lowCardinality.injEq]
    exact reread_eq_self_iff inner
  | map k v =>
    simp only [reread, dropsParams, map.injEq, Bool.or_eq_false_iff]
    exact and_congr (reread_eq_self_iff k) (reread_eq_self_iff v)
  | tuple types | variant types =>
    simp only [reread, dropsParams, tuple.injEq, variant.injEq]
    exact rereadTypes_eq_self_iff types
  | _ => simp only [reread, dropsParams, reduceCtorEq]

theorem rereadTypes_eq_self_iff :
    ∀ (ts : List ColumnType), rereadTypes ts = ts ↔ dropsParamsAny ts = false
  | [] => by simp only [rereadTypes, dropsParamsAny]
  | t :: ts => by
    simp only [rereadTypes, dropsParamsAny, List.cons.injEq, Bool.or_eq_false_iff]
    exact and_congr (reread_eq_self_iff t) (rereadTypes_eq_self_iff ts)

end

/-! ## §2. The printed form of one accepted text. -/

/-- What printing does to a text `s` accepted as `ct`: the printed form is
trimmed and not empty, parses to `reread ct`, stays balanced if `s` is, and
puts a comma at depth 0 or below only where `s` has one. -/
structure PrintsBack (levels : Nat) (s : Text) (ct : ColumnType) : Prop where
  trimmed : trim (display ct) = display ct
  nonempty : display ct ≠ []
  parsed : parseTypeRec levels (display ct) = .ok (reread ct)
  balanced : parenDepth s = 0 → parenDepth (display ct) = 0
  commas : ∀ d ≤ 0, CommaAt d (display ct) → CommaAt d s

variable {base : Text}

theorem trim_wrap (inner : Text) (hb : base ∈ paramNames) :
    trim (wrap base inner) = wrap base inner := by
  obtain ⟨-, hne, hhead⟩ := plain_of_mem_paramNames hb
  refine trim_eq_self ?_ ?_
  · intro c hc
    rw [wrap, List.head?_append_of_ne_nil _ hne] at hc
    rw [hc] at hhead
    simpa using hhead
  intro c hc
  have hlast : (wrap base inner).getLast? = some ')' := by
    rw [wrap, ← cons_append, ← append_assoc, List.getLast?_concat]
  rw [hlast] at hc
  cases hc
  decide

variable {inner : Text}

theorem parseTypeRec_wrap_known (levels : Nat) (hb : base ∈ paramNames) (hi : trim inner = inner) :
    parseTypeRec (levels + 1) (wrap base inner)
      = parseParametric (parseTypeRec levels) (wrap base inner) base inner := by
  obtain ⟨hplain, hne, -⟩ := plain_of_mem_paramNames hb
  rw [parseTypeRec_wrap levels (trim_wrap inner hb) (not_mem_of_plain hplain) hne, hi]

variable {levels : Nat} {ct : ColumnType} {s : Text}

variable {s : Text}

/-- A type printed as `base(inner)`, accepted from `base'(inner')`: balance
and commas come from the inner texts. -/
theorem PrintsBack.of_wrap {base' inner' : Text} (hs : trim s = wrap base' inner')
    (hb' : plain base' = true) (hb : base ∈ paramNames) (hdisplay : display ct = wrap base inner)
    (hparsed : parseTypeRec levels (wrap base inner) = .ok (reread ct))
    (hbalanced : parenDepth inner' = 0 → parenDepth inner = 0)
    (hcommas : ∀ d < 0, CommaAt d inner → CommaAt d inner') :
    PrintsBack levels s ct := by
  obtain ⟨hplain, hne, -⟩ := plain_of_mem_paramNames hb
  refine ⟨?_, ?_, ?_, ?_, ?_⟩
  · rw [hdisplay]; exact trim_wrap inner hb
  · rw [hdisplay, wrap]; exact append_ne_nil_of_left_ne_nil hne _
  · rw [hdisplay]; exact hparsed
  · intro hd
    rw [← parenDepth_trim, hs, parenDepth_wrap _ hb'] at hd
    rw [hdisplay, parenDepth_wrap _ hplain]
    exact hbalanced hd
  intro d hd hat
  rw [hdisplay, commaAt_wrap hplain] at hat
  rw [← commaAt_trim, hs, commaAt_wrap hb']
  exact hcommas (d - 1) (by omega) hat

theorem PrintsBack.of_plain (htrim : trim (display ct) = display ct) (hne : display ct ≠ [])
    (hplain : plain (display ct) = true)
    (hparsed : parseTypeRec levels (display ct) = .ok (reread ct)) :
    PrintsBack levels s ct :=
  ⟨htrim, hne, hparsed, fun _ => parenDepth_of_plain hplain,
    fun _ _ hat => absurd hat (not_commaAt_of_plain hplain)⟩

theorem printsBack_simple (h : (trim s, ct) ∈ simpleTypes) : PrintsBack (levels + 1) s ct := by
  have hall : ∀ p ∈ simpleTypes, trim (display p.2) = display p.2 ∧ display p.2 ≠ []
      ∧ plain (display p.2) = true
      ∧ parseTypeRec (levels + 1) (display p.2) = .ok (reread p.2) := by
    intro p hp
    unfold simpleTypes at hp
    fin_cases hp <;> exact ⟨by decide, by decide, by decide, rfl⟩
  obtain ⟨htrim, hne, hplain, hparsed⟩ := hall _ h
  exact .of_plain htrim hne hplain hparsed

/-- A text that holds one of the four dropped names prints that bare name. -/
theorem printsBack_dropped
    (hdisplay : display ct ∈ droppedNames) (hreread : reread ct = .other (display ct)) :
    PrintsBack (levels + 1) s ct := by
  have hall : ∀ b ∈ droppedNames, trim b = b ∧ b ≠ [] ∧ plain b = true
      ∧ parseTypeRec (levels + 1) b = .ok (.other b) := by
    intro b hb
    unfold droppedNames at hb
    fin_cases hb <;> exact ⟨by decide, by decide, by decide, rfl⟩
  obtain ⟨htrim, hne, hplain, hparsed⟩ := hall _ hdisplay
  exact .of_plain htrim hne hplain (by rw [hreread]; exact hparsed)

/-! ## §3. Texts around a comma. -/

variable {pre : Text}

section Comma

variable {a b : Text}

theorem commaAt_append_comma {d : Int} : CommaAt d (a ++ ',' :: b) ↔
    CommaAt d a ∨ d = parenDepth a ∨ CommaAt (d - parenDepth a) b := by
  rw [commaAt_append, commaAt_cons, show parenDelta ',' = 0 from rfl, Int.sub_zero,
    eq_self, true_and, Int.sub_eq_zero]

theorem parenDepth_append_comma : parenDepth (a ++ ',' :: b) = parenDepth a + parenDepth b := by
  rw [parenDepth_append, parenDepth_cons, show parenDelta ',' = 0 from rfl, Int.zero_add]

theorem parenDepth_blank : parenDepth (' ' :: b) = parenDepth b := by
  rw [parenDepth_cons, show parenDelta ' ' = 0 from rfl, Int.zero_add]

theorem blank_singleton : ∀ c ∈ [' '], isWhitespace c = true := forall_mem_singleton.mpr rfl

theorem commaAt_blank_append {d : Int} (hpre : ∀ c ∈ pre, isWhitespace c = true) :
    CommaAt d (pre ++ s) ↔ CommaAt d s := by
  have hplain := plain_of_blank hpre
  rw [commaAt_append, parenDepth_of_plain hplain, Int.sub_zero]
  simp only [not_commaAt_of_plain hplain, false_or]

theorem commaAt_blank {d : Int} : CommaAt d (' ' :: b) ↔ CommaAt d b :=
  commaAt_blank_append blank_singleton

theorem trim_append_comma (ha : trim a = a) (hane : a ≠ []) (hb : trim b = b) (hbne : b ≠ []) :
    trim (a ++ ',' :: ' ' :: b) = a ++ ',' :: ' ' :: b := by
  refine trim_eq_self ?_ ?_
  · intro c hc
    rw [List.head?_append_of_ne_nil _ hane, ← ha] at hc
    exact head_trim hc
  intro c hc
  rw [show a ++ ',' :: ' ' :: b = a ++ [',', ' '] ++ b by simp,
    List.getLast?_append_of_ne_nil _ hbne, ← hb] at hc
  exact getLast_trim hc

end Comma

/-- Blanks in front of a printed type do not change what it parses to. -/
theorem PrintsBack.parsed_blank (h : PrintsBack levels s ct)
    (hpre : ∀ c ∈ pre, isWhitespace c = true) :
    parseTypeRec levels (pre ++ display ct) = .ok (reread ct) := by
  rw [← parseTypeRec_trim, trim_append_of_blank hpre, parseTypeRec_trim]
  exact h.parsed

/-- A type read from a text with no comma at depth 0 prints none there. -/
theorem PrintsBack.no_comma
    (h : PrintsBack levels s ct) (hs : ¬ CommaAt 0 s) : ¬ CommaAt 0 (display ct) :=
  fun hat => hs (h.commas 0 (Int.le_refl 0) hat)

/-! ## §4. The printed form of an element list. -/

/-- One step of the element loop on a text with no comma of depth 0. -/
theorem parseTypes_last (parse : Text → Except String ColumnType) {fuel : Nat}
    (hne : s ≠ []) (hfuel : s.length ≤ fuel) (hcomma : ¬ CommaAt 0 s) :
    parseTypes parse fuel s = (do let t ← parse s; return [t]) := by
  rcases s with _ | ⟨c, cs⟩
  · exact absurd rfl hne
  cases fuel with
  | zero => exact absurd hfuel (Nat.not_succ_le_zero _)
  | succ fuel => simp only [parseTypes, findTopLevelComma_eq_none.mpr hcomma]

variable {first rest : Text}

theorem parseTypes_comma (parse : Text → Except String ColumnType) {fuel : Nat}
    (hdepth : parenDepth first = 0) (hcomma : ¬ CommaAt 0 first) :
    parseTypes parse (fuel + 1) (first ++ ',' :: rest)
      = (do let t ← parse first; let ts ← parseTypes parse fuel rest; return t :: ts) := by
  have hfind : findTopLevelComma (first ++ ',' :: rest) = some (first, rest) :=
    findTopLevelComma_eq_some.mpr ⟨rfl, hdepth, hcomma⟩
  rcases hs : first ++ ',' :: rest with _ | ⟨c, cs⟩
  · exact absurd (append_eq_nil_iff.mp hs).2 (cons_ne_nil _ _)
  rw [hs] at hfind
  simp only [parseTypes, hfind]

/-- `PrintsBack` for the elements of a tuple or variant; `printed` is their
joined text, parsed with blanks in front, as the blank after a comma leaves
it. -/
structure ElementsPrintBack (levels : Nat) (s : Text) (ts : List ColumnType) (printed : Text) :
    Prop where
  trimmed : trim printed = printed
  nonempty : printed ≠ []
  parsed : ∀ pre : Text, (∀ c ∈ pre, isWhitespace c = true) →
    ∀ fuel, (pre ++ printed).length ≤ fuel →
      parseTypes (parseTypeRec levels) fuel (pre ++ printed) = .ok (rereadTypes ts)
  balanced : parenDepth s = 0 → parenDepth printed = 0
  commas : ∀ d ≤ 0, CommaAt d printed → CommaAt d s

theorem elementsPrintBack_singleton {t : ColumnType} (h : PrintsBack levels first t)
    (hcomma : ¬ CommaAt 0 first) (hdepth : parenDepth s = 0 → parenDepth first = 0)
    (hsub : ∀ d, CommaAt d first → CommaAt d s) :
    ElementsPrintBack levels s [t] (display t) := by
  refine ⟨h.trimmed, h.nonempty, ?_, fun hs => h.balanced (hdepth hs),
    fun d hd hat => hsub d (h.commas d hd hat)⟩
  intro pre hpre fuel hfuel
  have hne : pre ++ display t ≠ [] := append_ne_nil_of_right_ne_nil _ h.nonempty
  have hnone : ¬ CommaAt 0 (pre ++ display t) := by
    rw [commaAt_blank_append hpre]
    exact h.no_comma hcomma
  rw [parseTypes_last _ hne hfuel hnone, h.parsed_blank hpre]
  rfl

variable {ts : List ColumnType}

theorem elementsPrintBack_cons {printed : Text} {t : ColumnType} (h : PrintsBack levels first t)
    (hdepth : parenDepth first = 0) (hcomma : ¬ CommaAt 0 first)
    (hrest : ElementsPrintBack levels rest ts printed) :
    ElementsPrintBack levels (first ++ ',' :: rest) (t :: ts)
      (display t ++ ',' :: ' ' :: printed) := by
  have hbal : parenDepth (display t) = 0 := h.balanced hdepth
  refine ⟨trim_append_comma h.trimmed h.nonempty hrest.trimmed hrest.nonempty, by simp, ?_, ?_, ?_⟩
  · intro pre hpre fuel hfuel
    rw [← append_assoc] at hfuel ⊢
    rcases fuel with _ | fuel
    · simp at hfuel
    have hpd : parenDepth (pre ++ display t) = 0 := by
      rw [parenDepth_append, parenDepth_of_plain (plain_of_blank hpre), hbal, Int.add_zero]
    have hnone : ¬ CommaAt 0 (pre ++ display t) := by
      rw [commaAt_blank_append hpre]
      exact h.no_comma hcomma
    have hrec := hrest.parsed [' '] blank_singleton fuel (by
      simp only [length_append, length_cons, length_nil] at hfuel ⊢
      omega)
    rw [parseTypes_comma _ hpd hnone, h.parsed_blank hpre]
    show (parseTypes (parseTypeRec levels) fuel ([' '] ++ printed) >>=
      fun ts => pure (reread t :: ts)) = _
    rw [hrec]
    rfl
  · intro hd
    rw [parenDepth_append_comma, hdepth] at hd
    rw [parenDepth_append_comma, parenDepth_blank, hbal, hrest.balanced (by omega)]
    rfl
  intro d hd hat
  rw [commaAt_append_comma, commaAt_blank, hbal, Int.sub_zero] at hat
  rw [commaAt_append_comma, hdepth, Int.sub_zero]
  rcases hat with ht | h0 | hr
  · exact .inl (h.commas d hd ht)
  · exact .inr (.inl h0)
  · exact .inr (.inr (hrest.commas d hd hr))

/-- The element loop on an accepted list: either there is no element, or the
printed list reads back. -/
theorem parseTypes_printsBack
    (ih : ∀ s ct, parseTypeRec levels s = .ok ct → PrintsBack levels s ct) :
    ∀ {fuel : Nat} {s : Text} {ts : List ColumnType}, s.length ≤ fuel →
      parseTypes (parseTypeRec levels) fuel s = .ok ts →
        ts = [] ∨ ElementsPrintBack levels s ts (joinComma (displayTypes ts))
  | 0, s, ts, _, h | fuel + 1, [], ts, _, h => by cases h; exact Or.inl rfl
  | fuel + 1, c :: cs, ts, hlen, h => by
    simp only [parseTypes] at h
    split at h
    · next first rest hfind =>
      obtain ⟨hs, hdepth, hcomma⟩ := findTopLevelComma_eq_some.mp hfind
      obtain ⟨t, ht, h⟩ := bind_eq_ok h
      obtain ⟨us, hus, h⟩ := bind_eq_ok h
      cases h
      have hfuel : rest.length ≤ fuel := by
        rw [hs] at hlen
        simp only [length_append, length_cons] at hlen
        omega
      have hrest := parseTypes_printsBack ih hfuel hus
      rw [hs]
      rcases us with _ | ⟨u, us⟩
      · exact .inr (elementsPrintBack_singleton (ih _ _ ht) hcomma (fun _ => hdepth)
          (fun d hat => commaAt_append_comma.mpr (.inl hat)))
      rcases hrest with hnil | hrest
      · exact absurd hnil (cons_ne_nil _ _)
      · exact .inr (elementsPrintBack_cons (ih _ _ ht) hdepth hcomma hrest)
    · next hfind =>
      obtain ⟨t, ht, h⟩ := bind_eq_ok h
      cases h
      exact .inr (elementsPrintBack_singleton (ih _ _ ht)
        (findTopLevelComma_eq_none.mp hfind) id (fun _ => id))

/-! ## §5. One lemma per shape. -/

variable {ct : ColumnType}

section Shapes

variable {levels : Nat} {s inner base : Text}

/-- A type accepted from `base(inner)` and printed as `base(printed)`, where
`printed` stands to `inner` as in `PrintsBack`. -/
theorem printsBack_wrapper {printed : Text} (hb : base ∈ paramNames) (hs : trim s = wrap base inner)
    (hdisplay : display ct = wrap base printed) (htrim : trim printed = printed)
    (hbal : parenDepth (trim inner) = 0 → parenDepth printed = 0)
    (hcommas : ∀ d ≤ 0, CommaAt d printed → CommaAt d (trim inner))
    (hstep : parseParametric (parseTypeRec levels) (wrap base printed) base printed = .ok (reread ct))
    : PrintsBack (levels + 1) s ct := by
  refine .of_wrap hs (plain_of_mem_paramNames hb).1 hb hdisplay ?_ ?_ ?_
  · rw [parseTypeRec_wrap_known levels hb htrim]
    exact hstep
  · intro hd
    exact hbal (by rw [parenDepth_trim]; exact hd)
  · intro d hd hat
    exact commaAt_trim.mp (hcommas d (by omega) hat)

theorem printsBack_number {n : Nat} (hb : base ∈ paramNames) (hs : trim s = wrap base inner)
    (hdisplay : display ct = wrap base (number n))
    (hstep : parseParametric (parseTypeRec levels) (wrap base (number n)) base (number n) = .ok (reread ct))
    : PrintsBack (levels + 1) s ct :=
  printsBack_wrapper hb hs hdisplay (trim_number n)
    (fun _ => parenDepth_of_plain (plain_number n))
    (fun _ _ hat => absurd hat (not_commaAt_of_plain (plain_number n))) hstep

variable {t : Text}

theorem ne_comma_of_plain (h : plain t = true) :
    ∀ c ∈ t, decide (c ≠ ',') = true := by
  intro c hc
  have hc' := all_eq_true.mp h c hc
  simp only [Bool.and_eq_true] at hc'
  exact hc'.2

theorem beforeComma_of_plain (h : plain t = true) : beforeComma t = t :=
  takeWhile_eq_self_iff.mpr (ne_comma_of_plain h)

theorem beforeComma_append (h : plain t = true) :
    beforeComma (t ++ ',' :: rest) = t := by
  rw [beforeComma, takeWhile_append_of_pos (ne_comma_of_plain h)]
  simp

theorem dropWhile_comma_append (h : plain t = true) :
    (t ++ ',' :: rest).dropWhile (· ≠ ',') = ',' :: rest := by
  rw [dropWhile_append_of_pos (ne_comma_of_plain h)]
  simp

theorem parseParam_number (what : String) (n : UInt32) (hpre : ∀ c ∈ pre, isWhitespace c = true) :
    parseParam what (pre ++ number n.toNat) = .ok n := by
  rw [parseParam, trim_append_of_blank hpre, trim_number, parseU32_number]
  rfl

theorem printsBack_decimal (p n : UInt32) (hb : base ∈ paramNames)
    (hs : trim s = wrap base inner) : PrintsBack (levels + 1) s (.decimal p n) := by
  have hp := plain_number p.toNat
  have hn := plain_number n.toNat
  have hdec : "Decimal".toList ∈ paramNames := by decide
  have hprec := parseParam_number "Decimal precision" p (forall_mem_nil _)
  have hscale := parseParam_number "Decimal scale" n blank_singleton
  refine .of_wrap hs (plain_of_mem_paramNames hb).1 hdec
    (show display (.decimal p n) = wrap "Decimal".toList
      (number p.toNat ++ ',' :: ' ' :: number n.toNat) from rfl) ?_ ?_ ?_
  · rw [parseTypeRec_wrap_known levels hdec (trim_append_comma (trim_number _)
      (number_ne_nil _) (trim_number _) (number_ne_nil _))]
    simp only [parseParametric, String.ofList_toList]
    rw [dropWhile_comma_append hp, beforeComma_append hp]
    show (do
      let precision ← parseParam "Decimal precision" ([] ++ number p.toNat)
      let scale ← parseParam "Decimal scale" ([' '] ++ number n.toNat)
      return ColumnType.decimal precision scale) = .ok (.decimal p n)
    rw [hprec, hscale]
    rfl
  · intro _
    rw [parenDepth_append_comma, parenDepth_blank, parenDepth_of_plain hp,
      parenDepth_of_plain hn, Int.add_zero]
  intro d hd hat
  rw [commaAt_append_comma, commaAt_blank, parenDepth_of_plain hp] at hat
  rcases hat with h | h | h
  · exact absurd h (not_commaAt_of_plain hp)
  · omega
  · exact absurd h (not_commaAt_of_plain hn)

theorem printsBack_map {k v : Text} {kt vt : ColumnType} (hs : trim s = wrap "Map".toList inner)
    (hfind : findTopLevelComma (trim inner) = some (k, v))
    (hk : PrintsBack levels k kt) (hv : PrintsBack levels v vt) :
    PrintsBack (levels + 1) s (.map kt vt) := by
  have hmap : "Map".toList ∈ paramNames := by decide
  obtain ⟨hinner, hdepth, hcomma⟩ := findTopLevelComma_eq_some.mp hfind
  have hbal := hk.balanced hdepth
  have hsplit : findTopLevelComma (display kt ++ ',' :: ' ' :: display vt)
      = some (display kt, ' ' :: display vt) :=
    findTopLevelComma_eq_some.mpr ⟨rfl, hbal, hk.no_comma hcomma⟩
  refine printsBack_wrapper hmap hs
    (show display (.map kt vt) = wrap "Map".toList
      (display kt ++ ',' :: ' ' :: display vt) from rfl)
    (trim_append_comma hk.trimmed hk.nonempty hv.trimmed hv.nonempty) ?_ ?_ ?_
  · intro hd
    rw [hinner, parenDepth_append_comma, hdepth] at hd
    rw [parenDepth_append_comma, parenDepth_blank, hbal, hv.balanced (by omega), Int.add_zero]
  · intro d hd hat
    rw [hinner, commaAt_append_comma, hdepth, Int.sub_zero]
    rw [commaAt_append_comma, commaAt_blank, hbal, Int.sub_zero] at hat
    rcases hat with h | h | h
    · exact .inl (hk.commas d hd h)
    · exact .inr (.inl h)
    · exact .inr (.inr (hv.commas d hd h))
  · simp only [parseParametric, String.ofList_toList, hsplit]
    show (do
      let kt ← parseTypeRec levels (display kt)
      let vt ← parseTypeRec levels ([' '] ++ display vt)
      return ColumnType.map kt vt) = .ok (.map (reread kt) (reread vt))
    rw [hk.parsed, hv.parsed_blank blank_singleton]
    rfl

theorem printsBack_elements (hb : base ∈ paramNames) (hs : trim s = wrap base inner)
    (h : ts = [] ∨ ElementsPrintBack levels (trim inner) ts (joinComma (displayTypes ts)))
    (hdisplay : display ct = wrap base (joinComma (displayTypes ts)))
    (hstep : parseTypes (parseTypeRec levels) (joinComma (displayTypes ts)).length (joinComma (displayTypes ts)) = .ok (rereadTypes ts) → parseParametric (parseTypeRec levels) (wrap base (joinComma (displayTypes ts))) base (joinComma (displayTypes ts)) = .ok (reread ct))
    : PrintsBack (levels + 1) s ct := by
  rcases h with rfl | h
  · exact printsBack_wrapper hb hs hdisplay rfl (fun _ => rfl)
      (fun d _ hat => absurd hat (not_commaAt_nil d)) (hstep rfl)
  · exact printsBack_wrapper hb hs hdisplay h.trimmed h.balanced h.commas
      (hstep (h.parsed [] (forall_mem_nil _) _ le_rfl))

end Shapes

/-- **An accepted type prints to a text that parses to its `reread`.** -/
theorem parseTypeRec_printsBack : ∀ {levels : Nat} {s : Text} {ct : ColumnType},
    parseTypeRec levels s = .ok ct → PrintsBack levels s ct
  | 0, s, ct, h => by cases h
  | levels + 1, s, ct, h => by
    have ih : ∀ t c, parseTypeRec levels t = .ok c → PrintsBack levels t c :=
      fun t c ht => parseTypeRec_printsBack ht
    rcases parseTypeRec_ok_cases h with hsimple | ⟨rfl, -⟩ | ⟨base, inner, hs, hshape⟩
    · exact printsBack_simple hsimple
    · -- an unknown name prints as the trimmed text it was read from
      refine ⟨trim_trim s, ?_, by rw [display, parseTypeRec_trim]; exact h, ?_, ?_⟩
      · intro hnil
        rw [display] at hnil
        rw [← parseTypeRec_trim, hnil] at h
        cases h
      · intro hd
        rw [display, parenDepth_trim]
        exact hd
      · intro d _ hat
        exact commaAt_trim.mp hat
    · have hb := hshape.base_mem
      cases hshape with
      | nullable hc | array hc | lowCardinality hc =>
        have hpb := ih _ _ hc
        refine printsBack_wrapper hb hs rfl hpb.trimmed hpb.balanced hpb.commas ?_
        show (parseTypeRec levels _ >>= _) = _
        rw [hpb.parsed]
        rfl
      | map hfind hk hv => exact printsBack_map hs hfind (ih _ _ hk) (ih _ _ hv)
      | tuple hts | variant hts =>
        refine printsBack_elements hb hs (parseTypes_printsBack ih le_rfl hts) rfl ?_
        intro hparsed
        show (parseTypes (parseTypeRec levels) _ _ >>= _) = _
        rw [hparsed]
        rfl
      | fixedString n =>
        refine printsBack_number hb hs rfl ?_
        show ((parseUsize (trim (number n.toNat))).mapError _ >>= fun k =>
          pure (ColumnType.fixedString k)) = _
        rw [trim_number, parseUsize_number]
        rfl
      | dateTime64 n | time64 n =>
        refine printsBack_number hb hs rfl ?_
        show (parseParam _ (beforeComma (number n.toNat)) >>= _) = _
        rw [beforeComma_of_plain (plain_number _), ← nil_append (number n.toNat),
          parseParam_number _ n (forall_mem_nil _)]
        rfl
      | decimal p n _ => exact printsBack_decimal p n hb hs
      | dateTime | json _ => exact .of_plain (by decide) (by decide) (by decide) rfl
      | enum8 | enum16 | aggregateFunction | simpleAggregateFunction =>
        exact printsBack_dropped (by decide) rfl

theorem parseType_display (h : parseType s = .ok ct) :
    parseType (display ct) = .ok (reread ct) :=
  (parseTypeRec_printsBack h).parsed

/-! ## §6. Type positions of a text. -/

/-- The texts between the commas of depth 0, an empty last one left out. -/
def elementTexts : Nat → Text → List Text
  | 0, _ => []
  | _ + 1, [] => []
  | fuel + 1, c :: cs =>
    match findTopLevelComma (c :: cs) with
    | some (first, rest) => first :: elementTexts fuel rest
    | none => [c :: cs]

/-- The text `t` stands at a type position of the text `s`: it is `s` itself,
or stands at one of a parameter that is a type. -/
inductive TypeAt : Text → Text → Prop
  | self (s : Text) : TypeAt s s
  | inside {s base inner t : Text} : splitParams s = some (base, inner) →
      base ∈ ["Nullable".toList, "Array".toList, "LowCardinality".toList] →
      TypeAt inner t → TypeAt s t
  | key {s inner k v t : Text} : splitParams s = some ("Map".toList, inner) →
      findTopLevelComma inner = some (k, v) → TypeAt k t → TypeAt s t
  | value {s inner k v t : Text} : splitParams s = some ("Map".toList, inner) →
      findTopLevelComma inner = some (k, v) → TypeAt v t → TypeAt s t
  | element {s base inner e t : Text} : splitParams s = some (base, inner) →
      base ∈ ["Tuple".toList, "Variant".toList] →
      e ∈ elementTexts inner.length inner → TypeAt e t → TypeAt s t

/-- The text is `Enum8(...)`, `Enum16(...)`, `AggregateFunction(...)` or
`SimpleAggregateFunction(...)`. -/
def NamesDropped (t : Text) : Prop :=
  ∃ base inner, splitParams t = some (base, inner) ∧ base ∈ droppedNames

theorem dropsParams_simple : ∀ p ∈ simpleTypes, dropsParams p.2 = false := by decide

theorem parseTypes_elementTexts {parse : Text → Except String ColumnType} :
    ∀ {fuel : Nat} {s : Text} {ts : List ColumnType}, parseTypes parse fuel s = .ok ts →
      List.Forall₂ (fun e t => parse e = .ok t) (elementTexts fuel s) ts
  | 0, s, ts, h | fuel + 1, [], ts, h => by cases h; exact .nil
  | fuel + 1, c :: cs, ts, h => by
    simp only [parseTypes] at h
    simp only [elementTexts]
    cases hfind : findTopLevelComma (c :: cs) with
    | some pair =>
      rw [hfind] at h
      obtain ⟨t, ht, h⟩ := bind_eq_ok h
      obtain ⟨us, hus, h⟩ := bind_eq_ok h
      cases h
      exact List.Forall₂.cons ht (parseTypes_elementTexts hus)
    | none =>
      rw [hfind] at h
      obtain ⟨t, ht, h⟩ := bind_eq_ok h
      cases h
      exact List.Forall₂.cons ht List.Forall₂.nil

/-- If membership in a property agrees element by element, it agrees for the
lists. -/
theorem dropsParamsAny_iff {P : Text → Prop} {es : List Text}
    (h : List.Forall₂ (fun e t => dropsParams t = true ↔ P e) es ts) :
    dropsParamsAny ts = true ↔ ∃ e ∈ es, P e := by
  induction h with
  | nil => simp [dropsParamsAny]
  | cons hhead _ ih =>
    rw [dropsParamsAny, Bool.or_eq_true, hhead, ih, exists_mem_cons_iff]

/-- Some type position of the text holds one of the four dropped names. -/
def HasDropped (s : Text) : Prop := ∃ t, TypeAt s t ∧ NamesDropped t

theorem not_hasDropped_of_none (h : splitParams s = none) : ¬ HasDropped s := by
  rintro ⟨t, hat, base, inner, ht, hb⟩
  cases hat with
  | self => rw [h] at ht; cases ht
  | inside hs | key hs | value hs | element hs => rw [h] at hs; cases hs

theorem hasDropped_iff (h : splitParams s = some (base, inner)) :
    HasDropped s ↔ base ∈ droppedNames
      ∨ (base ∈ ["Nullable".toList, "Array".toList, "LowCardinality".toList]
          ∧ HasDropped inner)
      ∨ (base = "Map".toList ∧ ∃ k v, findTopLevelComma inner = some (k, v)
          ∧ (HasDropped k ∨ HasDropped v))
      ∨ (base ∈ ["Tuple".toList, "Variant".toList]
          ∧ ∃ e ∈ elementTexts inner.length inner, HasDropped e) := by
  constructor
  · rintro ⟨t, hat, hdrop⟩
    cases hat with
    | self =>
      obtain ⟨base', inner', hs, hb⟩ := hdrop
      rw [h] at hs
      cases hs
      exact .inl hb
    | inside hs hb hat =>
      rw [h] at hs
      cases hs
      exact .inr (.inl ⟨hb, t, hat, hdrop⟩)
    | key hs hfind hat =>
      rw [h] at hs
      cases hs
      exact .inr (.inr (.inl ⟨rfl, _, _, hfind, .inl ⟨t, hat, hdrop⟩⟩))
    | value hs hfind hat =>
      rw [h] at hs
      cases hs
      exact .inr (.inr (.inl ⟨rfl, _, _, hfind, .inr ⟨t, hat, hdrop⟩⟩))
    | element hs hb he hat =>
      rw [h] at hs
      cases hs
      exact .inr (.inr (.inr ⟨hb, _, he, t, hat, hdrop⟩))
  · rintro (hb | ⟨hb, t, hat, hdrop⟩ | ⟨rfl, k, v, hfind, ⟨t, hat, hdrop⟩ | ⟨t, hat, hdrop⟩⟩
      | ⟨hb, e, he, t, hat, hdrop⟩)
    · exact ⟨s, .self s, base, inner, h, hb⟩
    · exact ⟨t, .inside h hb hat, hdrop⟩
    · exact ⟨t, .key h hfind hat, hdrop⟩
    · exact ⟨t, .value h hfind hat, hdrop⟩
    · exact ⟨t, .element h hb he hat, hdrop⟩

theorem splitParams_plain (h : plain (trim s) = true) : splitParams s = none := by
  have hdrop : (trim s).dropWhile (· ≠ '(') = [] := by
    refine dropWhile_eq_nil_iff.mpr (fun c hc => ?_)
    rw [decide_eq_true_eq]
    rintro rfl
    exact not_mem_of_plain h hc
  simp only [splitParams, hdrop]

theorem dropsParams_iff_hasDropped : ∀ {levels : Nat} {s : Text} {ct : ColumnType},
    parseTypeRec levels s = .ok ct → (dropsParams ct = true ↔ HasDropped s)
  | 0, s, ct, h => by cases h
  | levels + 1, s, ct, h => by
    have ih : ∀ e c, parseTypeRec levels e = .ok c → (dropsParams c = true ↔ HasDropped e) :=
      fun e c he => dropsParams_iff_hasDropped he
    have hparam : ∀ b ∈ droppedNames, b ∈ paramNames := by decide
    have hwrap : ∀ b ∈ ["Nullable".toList, "Array".toList, "LowCardinality".toList],
        b ∈ paramNames := by decide
    have helem : ∀ b ∈ ["Tuple".toList, "Variant".toList], b ∈ paramNames := by decide
    have hother : ∀ b ∈ decimalNames ++ objectNames, b ∉ droppedNames
        ∧ b ∉ ["Nullable".toList, "Array".toList, "LowCardinality".toList]
        ∧ b ≠ "Map".toList ∧ b ∉ ["Tuple".toList, "Variant".toList] := by decide
    rcases parseTypeRec_ok_cases h with hsimple | ⟨rfl, hnot⟩ | ⟨base, inner, hs, hshape⟩
    · have hplain : ∀ p ∈ simpleTypes, plain p.1 = true := by decide
      have hnone := not_hasDropped_of_none (splitParams_plain (hplain _ hsimple))
      rw [dropsParams_simple _ hsimple]
      exact iff_of_false Bool.false_ne_true hnone
    · refine iff_of_false Bool.false_ne_true ?_
      rcases hsp : splitParams s with _ | p
      · exact not_hasDropped_of_none hsp
      have hp := hnot p.1 p.2 hsp
      rw [hasDropped_iff hsp]
      rintro (hb | ⟨hb, -⟩ | ⟨hb, -⟩ | ⟨hb, -⟩)
      · exact hp (hparam _ hb)
      · exact hp (hwrap _ hb)
      · exact hp (by rw [hb]; decide)
      · exact hp (helem _ hb)
    · have hsp := splitParams_wrap hs hshape.base_mem
      rw [hasDropped_iff hsp]
      cases hshape with
      | nullable hc | array hc | lowCardinality hc =>
        rw [dropsParams, ih _ _ hc]
        simp [droppedNames]
      | map hfind hk hv =>
        rw [dropsParams, Bool.or_eq_true, ih _ _ hk, ih _ _ hv]
        simp [droppedNames, hfind]
      | tuple hts | variant hts =>
        have hforall := (parseTypes_elementTexts hts).imp (fun e t he => ih e t he)
        rw [dropsParams, dropsParamsAny_iff hforall]
        simp [droppedNames]
      | enum8 | enum16 | aggregateFunction | simpleAggregateFunction
      | fixedString | dateTime64 | time64 | dateTime =>
        simp [dropsParams, droppedNames]
      | decimal p n hb =>
        obtain ⟨h1, h2, h3, h4⟩ := hother _ (mem_append_left _ hb)
        simp only [dropsParams, Bool.false_eq_true, h1, h2, h3, h4, false_and, or_self]
      | json hb =>
        obtain ⟨h1, h2, h3, h4⟩ := hother _ (mem_append_right _ hb)
        simp only [dropsParams, Bool.false_eq_true, h1, h2, h3, h4, false_and, or_self]

/-! ## §7. The round trip. -/

/-- **Printing and parsing again gives the type back exactly when no type
position of the text is `Enum8(...)`, `Enum16(...)`, `AggregateFunction(...)`
or `SimpleAggregateFunction(...)`.** -/
theorem parseType_display_iff {s : Text} {ct : ColumnType} (h : parseType s = .ok ct) :
    parseType (display ct) = .ok ct ↔ ∀ t, TypeAt s t → ¬ NamesDropped t := by
  have hdrop := dropsParams_iff_hasDropped h
  rw [parseType_display h, Except.ok.injEq, reread_eq_self_iff, ← Bool.not_eq_true, hdrop,
    HasDropped]
  constructor
  · intro hnone t hat hnames
    exact hnone ⟨t, hat, hnames⟩
  · rintro hnone ⟨t, hat, hnames⟩
    exact hnone t hat hnames

/-- A nested name with every kind of surviving parameter. -/
theorem parseType_display_nested :
    parseType "Map( String,Array(Nullable(DateTime64(3, 'UTC'))))".toList
        = .ok (.map .string (.array (.nullable (.dateTime64 3))))
      ∧ (parseType (display (.map .string (.array (.nullable (.dateTime64 3)))))
          = .ok (.map .string (.array (.nullable (.dateTime64 3))))
        ↔ ∀ t, TypeAt "Map( String,Array(Nullable(DateTime64(3, 'UTC'))))".toList t →
          ¬ NamesDropped t) :=
  ⟨rfl, parseType_display_iff rfl⟩

/-- **The round trip is lossy**: `Enum8('a' = 1)` prints as `Enum8`, which is
read as an unknown type. -/
theorem parseType_display_enum8 :
    parseType "Enum8('a' = 1)".toList = .ok .enum8
      ∧ parseType (display .enum8) = .ok (.other "Enum8".toList)
      ∧ parseType (display .enum8) ≠ .ok .enum8 := by
  refine ⟨rfl, rfl, ?_⟩
  intro h
  have hother : parseType (display .enum8) = .ok (.other "Enum8".toList) := rfl
  cases h

/-! ## §8. The element types of a parsed type.

  A column reader goes down from a type to its element types, either to the
  parsed ones or to what their printed form parses to.  Both are types the
  parser accepts, so the round trip applies to them. -/

namespace ColumnType

/-- The types a column reader goes down to; the geometric types are read as the
arrays they stand for. -/
def children : ColumnType → List ColumnType
  | .nullable inner | .array inner | .lowCardinality inner => [inner]
  | .map k v => [k, v]
  | .tuple types | .variant types => types
  | .point => [.float64]
  | .ring => [.array .point]
  | .polygon => [.array .ring]
  | .multiPolygon => [.array .polygon]
  | _ => []

/-- Some text parses to this type. -/
def Parsed (ct : ColumnType) : Prop := ∃ s, parseType s = .ok ct

theorem Parsed.display (h : ct.Parsed) :
    parseType ct.display = .ok ct.reread := by
  obtain ⟨s, hs⟩ := h
  exact parseType_display hs

theorem Parsed.display_eq (h : ct.Parsed) (hdrops : ct.dropsParams = false) :
    parseType ct.display = .ok ct := by
  rw [h.display, (reread_eq_self_iff ct).mpr hdrops]

theorem Parsed.of_rec {levels : Nat} (hle : levels ≤ maxTypeNesting)
    (h : parseTypeRec levels s = .ok ct) : ct.Parsed :=
  ⟨s, parseTypeRec_mono (Nat.le_succ_of_le hle) h⟩

theorem Parsed.of_parseTypes {types : List ColumnType}
    (h : parseTypes (parseTypeRec maxTypeNesting) s.length s = .ok types) :
    ∀ t ∈ types, t.Parsed := by
  have hall := parseTypes_elementTexts h
  generalize elementTexts s.length s = texts at hall
  clear h
  intro t ht
  induction hall with
  | nil => cases ht
  | cons hparse _ ih =>
    cases ht with
    | head => exact Parsed.of_rec le_rfl hparse
    | tail _ ht => exact ih ht

theorem Parsed.child (h : ct.Parsed) : ∀ t ∈ ct.children, t.Parsed := by
  obtain ⟨s, hs⟩ := h
  have hsimple : ∀ p ∈ simpleTypes, ∀ t ∈ p.2.children, t.Parsed := by
    have hgeo : ColumnType.Parsed .float64 ∧ ColumnType.Parsed (.array .point)
        ∧ ColumnType.Parsed (.array .ring) ∧ ColumnType.Parsed (.array .polygon) :=
      ⟨⟨"Float64".toList, rfl⟩, ⟨"Array(Point)".toList, rfl⟩, ⟨"Array(Ring)".toList, rfl⟩,
        ⟨"Array(Polygon)".toList, rfl⟩⟩
    simp only [simpleTypes, forall_mem_cons, children, not_mem_nil, false_implies,
      implies_true, and_true, true_and]
    exact hgeo
  obtain hmem | ⟨rfl, _⟩ | ⟨base, inner, _, hshape⟩ := parseTypeRec_ok_cases hs
  · exact hsimple _ hmem
  · nofun
  cases hshape with
  | nullable hinner | array hinner | lowCardinality hinner =>
    exact forall_mem_singleton.mpr (Parsed.of_rec le_rfl hinner)
  | map _ hk hv =>
    refine forall_mem_cons.mpr ⟨Parsed.of_rec le_rfl hk, ?_⟩
    exact forall_mem_singleton.mpr (Parsed.of_rec le_rfl hv)
  | tuple htypes | variant htypes => exact Parsed.of_parseTypes htypes
  | _ =>
    intro t ht
    cases ht

end ColumnType

end StClickHouse
