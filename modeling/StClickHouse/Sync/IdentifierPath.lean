/-
  StClickHouse.Sync.IdentifierPath
  **WHAT A QUOTED TABLE NAME IS READ AS.**

  `quote_identifier_path` (`schema.rs` and `sync/schema.rs`, the same text twice) splits a
  table name at its dots, takes quoted parts out of their quotes, trims every part and quotes
  it again.  ClickHouse reads a back-quoted identifier with two kinds of escapes, a doubled
  quote and a back slash; the printer knows the first only, and the trimming does not know
  which blanks were quoted.

      quoted_path_iff        — so a path keeps its meaning iff nothing is escaped or padded
-/
import StClickHouse.Sync.Insert

namespace StClickHouse

open ByteReader RustText List

namespace Sync

/-! ## §1. What a path denotes. -/

/-- A character of a path, and whether it stands within quotes. -/
abbrev Span := List (Char × Bool)

/-- The parts of a path between its bare dots: `span` is the part under way. -/
def spans (span : Span) (quoted : Bool) : Text → List Span
  | [] => [span]
  | [ch] =>
    if ch = backquote then spans span (!quoted) []
    else if ch = '.' ∧ quoted = false then span :: spans [] quoted []
    else spans (span ++ [(ch, quoted)]) quoted []
  | ch :: next :: chars =>
    if ch = backquote then
      if quoted = true ∧ next = backquote then spans (span ++ [(backquote, quoted)]) quoted chars
      else spans span (!quoted) (next :: chars)
    else if ch = '.' ∧ quoted = false then span :: spans [] quoted (next :: chars)
    else spans (span ++ [(ch, quoted)]) quoted (next :: chars)

/-- The characters of a part. -/
def Span.text (span : Span) : Text := span.map Prod.fst

/-- A blank outside of quotes. -/
def bareBlank (c : Char × Bool) : Bool := isWhitespace c.1 && !c.2

/-- The identifier of a part: bare blanks around it are layout, quoted ones are not. -/
def Span.identifier (span : Span) : Text :=
  Span.text ((span.dropWhile bareBlank).rdropWhile bareBlank)

/-- The identifiers a path denotes. -/
def denotes (path : Text) : List Text :=
  (spans [] false (trim path)).map Span.identifier

/-! ## §2. The parts are the identifiers, trimmed. -/

variable {s p rest p' : Text} {ps ps' : List Text} {c : Char} {r : Reading}

theorem trim_padded {pre post : Text} (hpre : ∀ c ∈ pre, isWhitespace c = true)
    (hpost : ∀ c ∈ post, isWhitespace c = true) : trim (pre ++ (s ++ post)) = trim s := by
  have hend : ∀ t : Text, (t ++ post).rdropWhile isWhitespace = t.rdropWhile isWhitespace := by
    intro t
    unfold List.rdropWhile
    rw [reverse_append, dropWhile_append_of_pos]
    intro c hc
    exact hpost c (mem_reverse.mp hc)
  unfold trim
  rw [dropWhile_append_of_pos hpre, dropWhile_append]
  split
  · -- the text is all blank
    rename_i hblank
    have hnil : s.dropWhile isWhitespace = [] := isEmpty_iff.mp hblank
    have hpostNil : post.dropWhile isWhitespace = [] := dropWhile_eq_nil_iff.mpr hpost
    rw [hnil, hpostNil]
  · exact hend _

variable (span : Span)

theorem trim_identifier : trim span.identifier = trim span.text := by
  have hfront : span = span.takeWhile bareBlank ++ span.dropWhile bareBlank :=
    (takeWhile_append_dropWhile).symm
  have hback : span.dropWhile bareBlank
      = (span.dropWhile bareBlank).rdropWhile bareBlank
        ++ (span.dropWhile bareBlank).rtakeWhile bareBlank :=
    (rdropWhile_append_rtakeWhile ..).symm
  have hblank : ∀ c : Char × Bool, bareBlank c = true → isWhitespace c.1 = true := by
    intro c hc
    exact (Bool.and_eq_true_iff.mp hc).1
  have hsplit : span.text = Span.text (span.takeWhile bareBlank)
      ++ (span.identifier ++ Span.text ((span.dropWhile bareBlank).rtakeWhile bareBlank)) := by
    unfold Span.identifier Span.text
    rw [← map_append, ← map_append, ← hback, ← hfront]
  rw [hsplit, trim_padded]
  · intro c hc
    obtain ⟨m, hm, rfl⟩ := mem_map.mp hc
    exact hblank m (mem_takeWhile_imp hm)
  intro c hc
  obtain ⟨m, hm, rfl⟩ := mem_map.mp hc
  exact hblank m (mem_rtakeWhile_imp hm)

theorem text_snoc (ch : Char) (quoted : Bool) :
    Span.text (span ++ [(ch, quoted)]) = span.text ++ [ch] := by
  unfold Span.text
  rw [map_append]
  rfl

theorem splitIdentifierPath_ok {path : Text} {cs : Text} {parts : List Text} {quoted : Bool}
    {span : Span}
    (h : splitIdentifierPath path parts span.text quoted cs = .ok ps) :
    ps = parts ++ (spans span quoted cs).map fun s => trim s.text := by
  -- the cases of `spans`: no character, one, or two in sight; a quote, a bare dot, another
  fun_induction spans span quoted cs generalizing parts with
  | case1 span quoted =>
    rw [splitIdentifierPath] at h
    split at h
    · cases h
    split at h
    · cases h
    · exact (Except.ok.inj h).symm
  | case2 span quoted ih =>
    exact ih h
  | case3 span quoted ch hquote hdot ih =>
    rw [splitIdentifierPath, if_neg hquote, if_pos hdot] at h
    split at h
    · cases h
    · rw [@ih (parts ++ [trim span.text]) h, append_assoc]
      rfl
  | case4 span quoted ch hquote hdot ih =>
    rw [splitIdentifierPath, if_neg hquote, if_neg hdot, ← text_snoc] at h
    exact ih h
  | case5 span quoted next chars hdouble ih =>
    rw [splitIdentifierPath, if_pos rfl, if_pos hdouble, ← text_snoc] at h
    exact ih h
  | case6 span quoted next chars hdouble ih =>
    rw [splitIdentifierPath, if_pos rfl, if_neg hdouble] at h
    exact ih h
  | case7 span quoted ch next chars hquote hdot ih =>
    rw [splitIdentifierPath, if_neg hquote, if_pos hdot] at h
    split at h
    · cases h
    · rw [@ih (parts ++ [trim span.text]) h, append_assoc]
      rfl
  | case8 span quoted ch next chars hquote hdot ih =>
    rw [splitIdentifierPath, if_neg hquote, if_neg hdot, ← text_snoc] at h
    exact ih h

/-! ## §3. How ClickHouse reads a quoted path. -/

/-- What the text behind a back slash stands for, and how many of its characters after the
first belong to the escape (as in the two digits of a code). -/
abbrev Escapes := Text → Char × Nat

/-- What was read of a path: the identifier under way, those after it, and what follows. -/
abbrev Reading := Option (Text × List Text × Text)

/-- One more character of the identifier under way. -/
def Reading.push (c : Char) (r : Reading) : Reading :=
  r.map fun (p, ps, rest) => (c :: p, ps, rest)

/-- The identifier under way ends before those that were read. -/
def Reading.next (r : Reading) : Reading := r.map fun (p, ps, rest) => ([], p :: ps, rest)

/-- Within quotes, with the number of characters that belong to the last escape. -/
def readQuoted (esc : Escapes) : Nat → Text → Reading
  | _, [] => none
  | skip + 1, _ :: chars => readQuoted esc skip chars
  | 0, [ch] => if ch = backquote then some ([], [], []) else none
  | 0, ch :: next :: chars =>
    if ch = backquote then
      if next = backquote then (readQuoted esc 0 chars).push backquote
      -- the quote of the next identifier is passed over like a part of an escape
      else if next = '.' ∧ chars.head? = some backquote then (readQuoted esc 1 chars).next
      else some ([], [], next :: chars)
    else if ch = '\\' then
      (readQuoted esc (esc (next :: chars)).2 chars).push (esc (next :: chars)).1
    else (readQuoted esc 0 (next :: chars)).push ch

/-- A dotted path of quoted identifiers at the front of a text, and what follows it. -/
def readPath (esc : Escapes) : Text → Option (List Text × Text)
  | [] => none
  | ch :: chars =>
    if ch = backquote then (readQuoted esc 0 chars).map fun (p, ps, rest) => (p :: ps, rest)
    else none

/-- The body of `quote_identifier`. -/
def doubled (p : Text) : Text := p.flatMap fun ch => if ch = backquote then [ch, ch] else [ch]

/-- The rest of a printed path, from within the quotes of an identifier on. -/
def closing (p : Text) (ps : List Text) : Text :=
  doubled p ++ backquote :: ps.flatMap fun q => '.' :: quoteIdentifier q

theorem closing_nil_nil : closing [] [] = [backquote] := rfl

theorem closing_nil_cons (q : Text) (qs : List Text) :
    closing [] (q :: qs) = backquote :: '.' :: backquote :: closing q qs := by
  unfold closing doubled quoteIdentifier
  simp

theorem closing_quote (p : Text) (ps : List Text) :
    closing (backquote :: p) ps = backquote :: backquote :: closing p ps := rfl

theorem closing_plain (hc : c ≠ backquote) (p : Text) (ps : List Text) :
    closing (c :: p) ps = c :: closing p ps := by
  unfold closing doubled
  rw [flatMap_cons, if_neg hc]
  rfl

theorem length_closing_cons_le (c : Char) (p : Text) (ps : List Text) :
    (closing (c :: p) ps).length ≤ (closing p ps).length + 2 := by
  by_cases hc : c = backquote
  · rw [hc, closing_quote]
    simp
  · rw [closing_plain hc]
    simp

theorem intercalate_quoted (p : Text) (ps : List Text) :
    List.intercalate ['.'] ((p :: ps).map quoteIdentifier) = backquote :: closing p ps := by
  induction ps generalizing p with
  | nil =>
    unfold closing doubled quoteIdentifier
    simp
  | cons q qs ih =>
    have htail := ih q
    rw [map_cons, map_cons, intercalate_cons_cons, ← map_cons, htail]
    unfold closing quoteIdentifier doubled
    simp

/-! ## §4. Reading a printed path. -/

variable {esc : Escapes}

theorem push_eq_some
    (h : r.push c = some (p, ps, rest)) : ∃ p', p = c :: p' ∧ r = some (p', ps, rest) := by
  obtain ⟨⟨p', ps', rest'⟩, hr, heq⟩ := Option.map_eq_some_iff.mp h
  cases heq
  exact ⟨p', rfl, hr⟩

theorem next_eq_some (h : r.next = some (p, ps, rest)) :
    p = [] ∧ ∃ q qs, ps = q :: qs ∧ r = some (q, qs, rest) := by
  obtain ⟨⟨p', ps', rest'⟩, hr, heq⟩ := Option.map_eq_some_iff.mp h
  cases heq
  exact ⟨rfl, p', ps', rfl, hr⟩

/-- An identifier is not read from less text than it is printed as. -/
theorem readQuoted_length {skip : Nat}
    (h : readQuoted esc skip s = some (p, ps, rest)) :
    skip + (closing p ps).length + rest.length ≤ s.length := by
  fun_induction readQuoted esc skip s generalizing p ps rest with
  | case1 => cases h
  | case2 skip ch chars ih =>
    have hrest := ih h
    rw [length_cons]
    omega
  | case3 =>
    cases h
    simp [closing_nil_nil]
  | case4 => cases h
  | case5 chars ih =>
    obtain ⟨p', rfl, hr⟩ := push_eq_some h
    have hrest := ih hr
    rw [closing_quote, length_cons, length_cons, length_cons, length_cons]
    omega
  | case6 next chars hnext hdot ih =>
    obtain ⟨rfl, q, qs, rfl, hr⟩ := next_eq_some h
    have hrest := ih hr
    rw [closing_nil_cons, length_cons, length_cons, length_cons, length_cons,
      length_cons]
    omega
  | case7 =>
    cases h
    simp [closing_nil_nil]
    omega
  | case8 next chars _ ih =>
    -- an escape takes two characters at least, and no character is printed as more
    obtain ⟨p', rfl, hr⟩ := push_eq_some h
    have hrest := ih hr
    have hone := length_closing_cons_le (esc (next :: chars)).1 p' ps
    rw [length_cons, length_cons]
    omega
  | case9 ch next chars hquote hslash ih =>
    obtain ⟨p', rfl, hr⟩ := push_eq_some h
    have hrest := ih hr
    rw [closing_plain hquote, length_cons, length_cons]
    omega

/-- What follows a path in a statement: not a quote, and not a dot. -/
def Follows (rest : Text) : Prop := rest.head? ≠ some backquote ∧ rest.head? ≠ some '.'

theorem readQuoted_end (h : Follows rest) :
    readQuoted esc 0 (backquote :: rest) = some ([], [], rest) := by
  rcases rest with _ | ⟨next, chars⟩
  · rfl
  have hquote : next ≠ backquote := fun heq => h.1 (congrArg some heq)
  have hdot : next ≠ '.' := fun heq => h.2 (congrArg some heq)
  rw [readQuoted, if_pos rfl, if_neg hquote, if_neg fun hboth => hdot hboth.1]

theorem readQuoted_next (chars : Text) :
    readQuoted esc 0 (backquote :: '.' :: backquote :: chars) = (readQuoted esc 0 chars).next := by
  rw [readQuoted, if_pos rfl, if_neg (by decide), if_pos ⟨rfl, rfl⟩, readQuoted]

theorem readQuoted_double (chars : Text) :
    readQuoted esc 0 (backquote :: backquote :: chars) = (readQuoted esc 0 chars).push backquote := by
  rw [readQuoted, if_pos rfl, if_pos rfl]

theorem readQuoted_plain (hquote : c ≠ backquote) (hslash : c ≠ '\\') (chars : Text) :
    readQuoted esc 0 (c :: chars) = (readQuoted esc 0 chars).push c := by
  cases chars with
  | nil =>
    exact if_neg hquote
  | cons next chars => rw [readQuoted, if_neg hquote, if_neg hslash]

/-- A back slash is never read as itself and the rest as it was printed. -/
theorem readQuoted_slash {chars : Text}
    (hlength : chars.length = (closing p ps).length + rest.length) :
    readQuoted esc 0 ('\\' :: chars) ≠ some ('\\' :: p, ps, rest) := by
  intro h
  rcases chars with _ | ⟨next, chars⟩
  · cases h
  obtain ⟨p', heq, hr⟩ := push_eq_some h
  cases (List.cons.inj heq).2
  have hle := readQuoted_length hr
  rw [length_cons] at hlength
  omega

theorem push_eq_iff :
    r.push c = some (c :: p, ps, rest) ↔ r = some (p, ps, rest) := by
  constructor
  · intro h
    obtain ⟨p', heq, hr⟩ := push_eq_some h
    cases heq
    exact hr
  · rintro rfl
    rfl

theorem next_eq_iff {q : Text} {qs : List Text} :
    r.next = some ([], q :: qs, rest) ↔ r = some (q, qs, rest) := by
  constructor
  · intro h
    obtain ⟨_, q', qs', heq, hr⟩ := next_eq_some h
    cases heq
    exact hr
  · rintro rfl
    rfl

theorem readQuoted_char (c : Char) (p rest : Text) (ps : List Text) :
    readQuoted esc 0 (closing (c :: p) ps ++ rest) = some (c :: p, ps, rest)
      ↔ c ≠ '\\' ∧ readQuoted esc 0 (closing p ps ++ rest) = some (p, ps, rest) := by
  by_cases hquote : c = backquote
  · rw [hquote, closing_quote, cons_append, cons_append, readQuoted_double, push_eq_iff]
    exact (and_iff_right (by decide)).symm
  rw [closing_plain hquote, cons_append]
  by_cases hslash : c = '\\'
  · rw [hslash]
    constructor
    · intro h
      exact absurd h (readQuoted_slash length_append)
    · intro h
      exact absurd rfl h.1
  · rw [readQuoted_plain hquote hslash, push_eq_iff]
    exact (and_iff_right hslash).symm

theorem readQuoted_body (p rest : Text) (ps : List Text) :
    readQuoted esc 0 (closing p ps ++ rest) = some (p, ps, rest)
      ↔ '\\' ∉ p ∧ readQuoted esc 0 (closing [] ps ++ rest) = some ([], ps, rest) := by
  induction p with
  | nil => exact (and_iff_right not_mem_nil).symm
  | cons c p ih =>
    rw [readQuoted_char, ih, mem_cons, not_or, ← and_assoc]
    exact .and (.and ⟨Ne.symm, Ne.symm⟩ .rfl) .rfl

/-- **A printed path is read back iff no identifier has a back slash.** -/
theorem readQuoted_iff (hrest : Follows rest) (p : Text) (ps : List Text) :
    readQuoted esc 0 (closing p ps ++ rest) = some (p, ps, rest) ↔ ∀ q ∈ p :: ps, '\\' ∉ q := by
  induction ps generalizing p with
  | nil =>
    have hend : readQuoted esc 0 (closing [] [] ++ rest) = some ([], [], rest) :=
      readQuoted_end hrest
    rw [readQuoted_body, and_iff_left hend]
    simp
  | cons q qs ih =>
    rw [readQuoted_body, closing_nil_cons, cons_append, cons_append, cons_append,
      readQuoted_next, next_eq_iff, ih q]
    simp

theorem readPath_iff (hrest : Follows rest) (p : Text) (ps : List Text) :
    readPath esc (backquote :: closing p ps ++ rest) = some (p :: ps, rest)
      ↔ ∀ q ∈ p :: ps, '\\' ∉ q := by
  rw [← readQuoted_iff hrest, cons_append, readPath, if_pos rfl, Option.map_eq_some_iff]
  constructor
  · rintro ⟨⟨p', ps', rest'⟩, h, heq⟩
    cases heq
    exact h
  · intro h
    exact ⟨_, h, rfl⟩

theorem closing_of_readPath (h : readPath esc (backquote :: s) = some (p :: ps, rest)) :
    (closing p ps).length + rest.length ≤ s.length := by
  rw [readPath, if_pos rfl, Option.map_eq_some_iff] at h
  obtain ⟨⟨p', ps', rest'⟩, hread, heq⟩ := h
  cases heq
  have hle := readQuoted_length hread
  omega

theorem closing_nil_ne (c : Char) (p : Text) (ps ps' : List Text) :
    closing [] ps ≠ closing (c :: p) ps' := by
  intro h
  by_cases hc : c = backquote
  · rw [hc, closing_quote] at h
    rcases ps with _ | ⟨q, qs⟩
    · cases h
    exact absurd (List.cons.inj (List.cons.inj h).2).1 (by decide)
  · rw [closing_plain hc] at h
    exact hc (List.cons.inj h).1.symm

theorem closing_cons_inj {c' : Char}
    (h : closing (c :: p) ps = closing (c' :: p') ps') :
    c = c' ∧ closing p ps = closing p' ps' := by
  by_cases hc : c = backquote <;> by_cases hc' : c' = backquote
  · rw [hc, hc', closing_quote, closing_quote] at h
    exact ⟨hc.trans hc'.symm, (List.cons.inj (List.cons.inj h).2).2⟩
  · rw [hc, closing_quote, closing_plain hc'] at h
    exact absurd (List.cons.inj h).1.symm hc'
  · rw [hc', closing_quote, closing_plain hc] at h
    exact absurd (List.cons.inj h).1 hc
  · rw [closing_plain hc, closing_plain hc'] at h
    exact List.cons.inj h

theorem closing_inj_left (h : closing p ps = closing p' ps') :
    p = p' ∧ closing [] ps = closing [] ps' := by
  induction p generalizing p' with
  | nil =>
    cases p' with
    | nil => exact ⟨rfl, h⟩
    | cons c' p' => exact absurd h (closing_nil_ne c' p' ps ps')
  | cons c p ih =>
    rcases p' with _ | ⟨c', p'⟩
    · exact absurd h.symm (closing_nil_ne c p ps' ps)
    obtain ⟨rfl, htail⟩ := closing_cons_inj h
    obtain ⟨rfl, hend⟩ := ih htail
    exact ⟨rfl, hend⟩

theorem closing_inj (h : closing p ps = closing p' ps') :
    p :: ps = p' :: ps' := by
  induction ps generalizing p p' ps' with
  | nil =>
    obtain ⟨rfl, hend⟩ := closing_inj_left h
    rcases ps' with _ | ⟨q', qs'⟩
    · rfl
    cases hend
  | cons q qs ih =>
    obtain ⟨rfl, hend⟩ := closing_inj_left h
    rcases ps' with _ | ⟨q', qs'⟩
    · cases hend
    rw [closing_nil_cons, closing_nil_cons] at hend
    have htail : closing q qs = closing q' qs' :=
      (List.cons.inj (List.cons.inj (List.cons.inj hend).2).2).2
    rw [ih htail]

/-! ## §5. The statements around a path. -/

/-- The statements a table name is put into. -/
inductive Statement where
  | describe
  | insert

namespace Statement

/-- The text before the table name. -/
def before : Statement → Text
  | describe => "DESCRIBE TABLE ".toList
  | insert => "INSERT INTO ".toList

/-- The text after it. -/
def behind : Statement → Text
  | describe => []
  | insert => " FORMAT Native".toList

/-- The statement that `fetch_schema_for_table` and `begin_insert` send. -/
def text (st : Statement) (quoted : Text) : Text := st.before ++ quoted ++ st.behind

/-- The path in a statement, and what follows it. -/
def read (esc : Escapes) (st : Statement) (sent : Text) : Option (List Text × Text) :=
  readPath esc (sent.drop st.before.length)

theorem read_text (st : Statement) (quoted : Text) :
    st.read esc (st.text quoted) = readPath esc (quoted ++ st.behind) := by
  unfold read text
  rw [append_assoc, drop_left]

theorem follows_behind (st : Statement) : Follows st.behind := by
  cases st with
  | describe =>
    unfold Follows
    exact ⟨by decide, by decide⟩
  | insert =>
    unfold Follows
    exact ⟨by decide, by decide⟩

end Statement

/-! ## §6. A padded identifier is printed shorter. -/

theorem length_le_doubled (p : Text) : p.length ≤ (doubled p).length := by
  induction p with
  | nil => exact Nat.le_refl 0
  | cons c p ih =>
    unfold doubled at ih ⊢
    rw [flatMap_cons, length_append, length_cons]
    split
    · rw [length_cons]
      omega
    · rw [length_singleton]
      omega

theorem doubled_append (p q : Text) : doubled (p ++ q) = doubled p ++ doubled q :=
  flatMap_append

theorem exists_padding (p : Text) : ∃ pre post, p = pre ++ (trim p ++ post) := by
  obtain ⟨pre, hpre⟩ := dropWhile_suffix isWhitespace (l := p)
  obtain ⟨post, hpost⟩ := rdropWhile_prefix isWhitespace (p.dropWhile isWhitespace)
  exact ⟨pre, post, (hpre.symm.trans (congrArg (pre ++ ·) hpost.symm))⟩

theorem doubled_trim (p : Text) :
    (doubled (trim p)).length ≤ (doubled p).length
      ∧ ((doubled p).length ≤ (doubled (trim p)).length → trim p = p) := by
  obtain ⟨pre, post, hp⟩ := exists_padding p
  have hlength : (doubled p).length
      = (doubled pre).length + ((doubled (trim p)).length + (doubled post).length) := by
    conv_lhs => rw [hp]
    rw [doubled_append, doubled_append, length_append, length_append]
  constructor
  · omega
  intro hle
  have hpre : pre = [] := eq_nil_of_length_eq_zero (by
    have := length_le_doubled pre
    omega)
  have hpost : post = [] := eq_nil_of_length_eq_zero (by
    have := length_le_doubled post
    omega)
  rw [hpre, hpost, nil_append, append_nil] at hp
  exact hp.symm

theorem length_closing_next (p q : Text) (qs : List Text) :
    (closing p (q :: qs)).length = (doubled p).length + 3 + (closing q qs).length := by
  have h : closing p (q :: qs) = doubled p ++ closing [] (q :: qs) := rfl
  rw [h, closing_nil_cons, length_append, length_cons, length_cons, length_cons]
  omega

theorem length_closing_last (p : Text) : (closing p []).length = (doubled p).length + 1 :=
  length_append

/-- Trimmed identifiers are printed shorter, unless they were trimmed already. -/
theorem closing_trim (p : Text) (ps : List Text) :
    (closing (trim p) (ps.map trim)).length ≤ (closing p ps).length
      ∧ ((closing p ps).length ≤ (closing (trim p) (ps.map trim)).length
        → ∀ q ∈ p :: ps, trim q = q) := by
  induction ps generalizing p with
  | nil =>
    obtain ⟨hle, heq⟩ := doubled_trim p
    rw [map_nil, length_closing_last, length_closing_last]
    refine ⟨by omega, fun h q hq => ?_⟩
    cases mem_singleton.mp hq
    exact heq (by omega)
  | cons q qs ih =>
    obtain ⟨hle, heq⟩ := doubled_trim p
    obtain ⟨hle', heq'⟩ := ih q
    rw [map_cons, length_closing_next, length_closing_next]
    refine ⟨by omega, fun h r hr => ?_⟩
    rcases mem_cons.mp hr with rfl | hr
    · exact heq (by omega)
    · exact heq' (by omega) r hr

/-! ## §7. A path keeps its meaning. -/

/-- No identifier begins or ends with a blank (which only quotes can bring in). -/
def Unpadded (path : Text) : Prop := ∀ p ∈ denotes path, trim p = p

/-- No identifier has a back slash. -/
def Unescaped (path : Text) : Prop := ∀ p ∈ denotes path, '\\' ∉ p

theorem spans_ne_nil (quoted : Bool) (cs : Text) : spans span quoted cs ≠ [] := by
  fun_induction spans span quoted cs <;> simp_all

theorem quoteIdentifierPath_ok {path out : Text} (h : quoteIdentifierPath path = .ok out) :
    ∃ d ds, denotes path = d :: ds ∧ out = backquote :: closing (trim d) (ds.map trim) := by
  unfold quoteIdentifierPath at h
  rcases hsplit : splitIdentifierPath path [] [] false (trim path) with e | parts
  · rw [hsplit] at h
    cases h
  have hparts : parts = (denotes path).map trim := by
    rw [@splitIdentifierPath_ok parts path _ [] false [] hsplit]
    unfold denotes
    rw [map_map, nil_append]
    exact map_congr_left fun span _ => (trim_identifier span).symm
  have hsome : denotes path ≠ [] := by
    unfold denotes
    rw [Ne, map_eq_nil_iff]
    exact spans_ne_nil _ _ _
  obtain ⟨d, ds, hdenotes⟩ := exists_cons_of_ne_nil hsome
  refine ⟨d, ds, hdenotes, ?_⟩
  rw [hdenotes, map_cons] at hparts
  rw [hsplit, hparts] at h
  rw [← intercalate_quoted]
  exact (Except.ok.inj h).symm

/-- **A path keeps its meaning iff no identifier has a back slash or is padded**: it is read
    as what it denotes, and the rest of the statement as what was put there.  Among unpadded
    paths one text stands for one meaning. -/
theorem quoted_path_iff (esc : Escapes) {path path' out out' : Text}
    (h : quoteIdentifierPath path = .ok out) (h' : quoteIdentifierPath path' = .ok out') :
    ((∀ st : Statement, st.read esc (st.text out) = some (denotes path, st.behind))
        ↔ Unpadded path ∧ Unescaped path)
      ∧ (Unpadded path → out = out' → (denotes path = denotes path' ↔ Unpadded path')) := by
  obtain ⟨d, ds, hdenotes, hout⟩ := quoteIdentifierPath_ok h
  obtain ⟨d', ds', hdenotes', hout'⟩ := quoteIdentifierPath_ok h'
  have htrimmed : ∀ {p : Text} {ps : List Text}, (∀ q ∈ p :: ps, trim q = q) →
      trim p :: ps.map trim = p :: ps := by
    intro p ps hall
    exact (map_congr_left hall).trans (map_id _)
  unfold Unpadded Unescaped
  rw [hdenotes, hdenotes', hout, hout']
  constructor
  · constructor
    · intro hread
      have hpath := hread .describe
      have hpad : (closing d ds).length + Statement.describe.behind.length
          ≤ (closing (trim d) (ds.map trim) ++ Statement.describe.behind).length :=
        closing_of_readPath hpath
      have hall := (closing_trim d ds).2 (by
        rw [length_append] at hpad
        omega)
      have hsame := htrimmed hall
      rw [(List.cons.inj hsame).1, (List.cons.inj hsame).2] at hpath
      exact ⟨hall, (readPath_iff Statement.describe.follows_behind d ds).mp hpath⟩
    · rintro ⟨hpad, hslash⟩ st
      have hsame := htrimmed hpad
      rw [Statement.read_text, (List.cons.inj hsame).1, (List.cons.inj hsame).2]
      exact (readPath_iff st.follows_behind d ds).mpr hslash
  · intro hpad htext
    have hparts : trim d :: ds.map trim = trim d' :: ds'.map trim :=
      closing_inj (List.cons.inj htext).2
    rw [htrimmed hpad] at hparts
    rw [hparts, ← map_cons]
    constructor
    · intro heq q hq
      exact map_inj_left.mp (heq.trans (map_id _).symm) q hq
    · exact htrimmed

theorem quoted_path_iff_table :
    (∀ st : Statement, st.read (fun _ => (' ', 0)) (st.text "`db`.`a``b`".toList)
        = some (["db".toList, "a`b".toList], st.behind))
      ∧ Unpadded "db . `a``b`".toList := by
  have h : quoteIdentifierPath "db . `a``b`".toList = .ok "`db`.`a``b`".toList := by
    decide +kernel
  have hdenotes : denotes "db . `a``b`".toList = ["db".toList, "a`b".toList] := by decide +kernel
  have hpad : Unpadded "db . `a``b`".toList := by
    unfold Unpadded
    decide +kernel
  have hslash : Unescaped "db . `a``b`".toList := by
    unfold Unescaped
    decide +kernel
  exact ⟨(quoted_path_iff _ h h).1.mpr ⟨hpad, hslash⟩, hpad⟩

/-- The escapes of ClickHouse's string literals: control characters, codes of two hexadecimal
digits, and otherwise the character itself. -/
def clickHouseEscapes : Escapes
  | 'b' :: _ => ('\x08', 0)
  | 'f' :: _ => ('\x0c', 0)
  | 'r' :: _ => ('\r', 0)
  | 'n' :: _ => ('\n', 0)
  | 't' :: _ => ('\t', 0)
  | '0' :: _ => ('\x00', 0)
  | 'a' :: _ => ('\x07', 0)
  | 'v' :: _ => ('\x0b', 0)
  | 'x' :: h :: l :: _ => (Char.ofNat (fromHexDigit h.toNat * 16 + fromHexDigit l.toNat), 2)
  | c :: _ => (c, 0)
  | [] => ('\\', 0)

/-- The back slash at the end of the first part takes the part's last quote with it, and the
second part becomes a part of the statement.  A quoted blank is lost. -/
theorem slash_takes_the_quote :
    quoteIdentifierPath "a\\.`FORMAT Values (1) --`".toList
        = .ok "`a\\`.`FORMAT Values (1) --`".toList
      ∧ denotes "a\\.`FORMAT Values (1) --`".toList
        = ["a\\".toList, "FORMAT Values (1) --".toList]
      ∧ Statement.insert.read clickHouseEscapes
          (Statement.insert.text "`a\\`.`FORMAT Values (1) --`".toList)
        = some (["a`.".toList], "FORMAT Values (1) --` FORMAT Native".toList)
      ∧ quoteIdentifierPath "` t`".toList = quoteIdentifierPath "t".toList
      ∧ denotes "` t`".toList ≠ denotes "t".toList := by
  decide +kernel

end Sync

end StClickHouse
