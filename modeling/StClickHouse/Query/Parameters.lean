/-
  StClickHouse.Query.Parameters
  **THE PARAMETERS OF A QUERY CANNOT BE FORGED.**

  The entries of the section are strings behind their lengths, so its bytes give the
  list back whatever the names and values are.  A reader that goes by the protocol knows
  no list: it stops at the first empty name, and a parameter may have that name.

      parameters_unforgeable_iff — the lists whose section ends at its own end
-/
import StClickHouse.Lib.Utf8
import StClickHouse.Query.Consistent

namespace StClickHouse

open ByteReader RustText Server PacketInput List

/-! ## §1. What the bytes say. -/

theorem quote_not_mem (value : Bytes) : 0x27 ∉ value.flatMap quoteByte := by
  intro hmem
  obtain ⟨b, _, hb⟩ := mem_flatMap.mp hmem
  unfold quoteByte at hb
  split_ifs at hb <;> simp_all

theorem toUtf8_injective : Function.Injective toUtf8 := by
  intro a b h
  have hread := congrArg fromUtf8 h
  rw [fromUtf8_toUtf8, fromUtf8_toUtf8] at hread
  exact Except.ok.inj hread

theorem paramText_injective : Function.Injective paramText := by
  intro a b h
  have hread := congrArg unquote h
  rw [unquote_paramText, unquote_paramText] at hread
  exact Option.map_injective toUtf8_injective (Option.some.inj hread)

/-- A string is known by its bytes, and so is what follows it. -/
theorem writeStringBytes_inj {a b r s : Bytes} (ha : Fits (writeStringBytes a))
    (hb : Fits (writeStringBytes b)) (h : writeStringBytes a ++ r = writeStringBytes b ++ s) :
    a = b ∧ r = s := by
  have hread := restores_string a ha r
  rw [h, restores_string b hb s] at hread
  injection hread with hvalue hrest
  exact ⟨(Except.ok.inj hvalue).symm, hrest.symm⟩

theorem writeQueryParameter_inj {p q : QueryParameter} {r s : Bytes}
    (hp : Fits (writeQueryParameter p)) (hq : Fits (writeQueryParameter q))
    (h : writeQueryParameter p ++ r = writeQueryParameter q ++ s) : p = q ∧ r = s := by
  rw [writeQueryParameter_eq] at hp hq
  obtain ⟨hpName, hp⟩ := fits_append hp
  obtain ⟨hqName, hq⟩ := fits_append hq
  rw [writeQueryParameter_eq, writeQueryParameter_eq, append_assoc, append_assoc,
    append_assoc, append_assoc] at h
  obtain ⟨hname, h⟩ := writeStringBytes_inj hpName hqName h
  obtain ⟨hvalue, hrest⟩ :=
    writeStringBytes_inj (fits_append hp).2 (fits_append hq).2 (append_cancel_left h)
  refine ⟨?_, hrest⟩
  cases p with
  | mk pName pValue =>
    cases q with
    | mk qName qValue =>
      rw [show pName = qName from toUtf8_injective hname,
        show pValue = qValue from paramText_injective hvalue]

theorem one_lt_length_writeQueryParameter (param : QueryParameter) :
    1 < (writeQueryParameter param).length := by
  have hname : 0 < (writeString param.name).length := by
    simp [writeString, writeStringBytes, length_pos_iff, encodeVarint_ne_nil]
  have hflag : (encodeVarint queryParameterCustomFlag).length = 1 := by decide
  rw [writeQueryParameter_eq, length_append, length_append]
  omega

/-- **The bytes give the list back**, with or without names. -/
theorem writeQueryParameters_inj {params others : List QueryParameter}
    (hfits : Fits (writeQueryParameters params))
    (h : writeQueryParameters others = writeQueryParameters params) : others = params := by
  have hothers : Fits (writeQueryParameters others) := h ▸ hfits
  unfold writeQueryParameters at h hfits hothers
  have hend : (writeString []).length = 1 := by decide
  induction params generalizing others with
  | nil =>
    rcases others with _ | ⟨q, others⟩
    · rfl
    have hlength := congrArg List.length h
    have hq := one_lt_length_writeQueryParameter q
    simp only [flatMap_cons, flatMap_nil, length_append, length_nil] at hlength
    omega
  | cons p params ih =>
    cases others with
    | nil =>
      have hlength := congrArg List.length h
      have hp := one_lt_length_writeQueryParameter p
      simp only [flatMap_cons, flatMap_nil, length_append, length_nil] at hlength
      omega
    | cons q others =>
      rw [flatMap_cons, append_assoc] at h hfits hothers
      rw [flatMap_cons, append_assoc] at h
      obtain ⟨hp, hfits⟩ := fits_append hfits
      obtain ⟨hq, hothers⟩ := fits_append hothers
      obtain ⟨hhead, htail⟩ := writeQueryParameter_inj hq hp h
      rw [hhead, ih hfits htail hothers]

/-! ## §2. Where the section ends. -/

/-- A section that stands for its list and for nothing else. -/
structure Unforgeable (params : List QueryParameter) : Prop where
  /-- No other list has these bytes. -/
  determined : ∀ others, writeQueryParameters others = writeQueryParameters params → others = params
  /-- The section ends at its own terminator, and gives the parameters. -/
  ends : ∀ fuel, params.length < fuel →
    Parses (readUntil parameter fuel) (writeQueryParameters params)
      (params.map wireParam)
  /-- A value has no quote between its quotes. -/
  quoted : ∀ param ∈ params, ∀ value, param.value = some value →
    0x27 ∉ (toUtf8 value).flatMap quoteByte
  /-- No string is written as NULL is. -/
  notNull : ∀ param ∈ params, ∀ value, param.value = some value →
    writeQuotedString (toUtf8 value) ≠ writeParamNull

theorem writeQuotedString_ne_null (value : Text) :
    writeQuotedString (toUtf8 value) ≠ writeParamNull := by
  intro h
  have hnull : Fits writeParamNull := by decide
  rw [writeQuotedString_eq] at h
  have htext := (writeStringBytes_inj (h ▸ hnull) hnull (congrArg (· ++ []) h)).1
  exact Option.some_ne_none value (paramText_injective htext)

/-- **The parameters stand for themselves exactly if all of them have names.** -/
theorem parameters_unforgeable_iff {params : List QueryParameter}
    (hfits : Fits (writeQueryParameters params)) :
    Unforgeable params ↔ ∀ param ∈ params, param.name ≠ [] := by
  constructor
  · intro h param hparam hname
    obtain ⟨before, tail, htail, hcut, hshorter, hbefore⟩ := parameters_cut hparam hname
    -- the reader is done at the empty name, with the tail still to be read
    have hread : Restores (readUntil parameter (params.length + 1))
        (before.flatMap writeQueryParameter ++ writeString []) (before.map wireParam) :=
      .readUntil restores_parameter_end (by omega) fun p hp =>
        restores_parameter (hbefore p hp)
    unfold writeQueryParameters at hfits
    rw [hcut] at hfits
    have hends := h.ends (params.length + 1) (Nat.lt_succ_self _) []
    unfold writeQueryParameters at hends
    rw [hcut, append_assoc, append_nil, hread (fits_append hfits).1] at hends
    injection hends with _ hrest
    exact htail hrest
  · intro hnames
    exact {
      determined := fun others => writeQueryParameters_inj hfits
      ends := fun fuel hfuel => Restores.readUntil restores_parameter_end hfuel
        (fun p hp => restores_parameter (hnames p hp)) hfits
      quoted := fun _ _ value _ => quote_not_mem (toUtf8 value)
      notNull := fun _ _ value _ => writeQuotedString_ne_null value }

/-- A quote, a backslash, the text of NULL and NULL itself, under their names. -/
theorem parameters_unforgeable_quoted :
    Fits (writeQueryParameters [⟨['a'], some ['\'', '\\', 'N']⟩, ⟨['b'], none⟩]) ∧
      Unforgeable [⟨['a'], some ['\'', '\\', 'N']⟩, ⟨['b'], none⟩] := by
  have hfits : Fits (writeQueryParameters [⟨['a'], some ['\'', '\\', 'N']⟩, ⟨['b'], none⟩]) := by
    decide
  exact ⟨hfits, (parameters_unforgeable_iff hfits).mpr (by decide)⟩

/-- **A parameter without a name** ends the section at its first byte; the rest of its
entry is left for whatever is read next. -/
theorem nameless_parameter_ends_section :
    readUntil parameter 2 (writeQueryParameters [⟨[], some ['x']⟩])
        = (.ok [], [2, 3, 0x27, 0x78, 0x27, 0]) ∧
      ¬ Unforgeable [⟨[], some ['x']⟩] := by
  have hread : readUntil parameter 2 (writeQueryParameters [⟨[], some ['x']⟩])
      = (.ok [], [2, 3, 0x27, 0x78, 0x27, 0]) := by decide +kernel
  refine ⟨hread, fun h => ?_⟩
  have hends := h.ends 2 (by decide) []
  rw [append_nil, hread] at hends
  cases hends

end StClickHouse
