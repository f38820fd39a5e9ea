/-
  StClickHouse.Wire.Limits
  **ERRORS AND SIZE CAPS.**

  The error type of both engines (`error.rs`, `sync/error.rs`) and the checks
  of `limits.rs`, which every count and length read off the wire passes
  through.  A protocol message is kept structured where it reports a size cap,
  so that `Error.isCap` can tell a cap from any other rejection; `render` is
  the text the source builds.
-/
import StClickHouse.Lib.Reader

namespace StClickHouse

open ByteReader

/-! ## §1. Errors. -/

/-- The text of a protocol error. -/
inductive Message where
  /-- Any text that is not a size cap. -/
  | text (s : String)
  /-- `{subject} {value} exceeds {bound}`. -/
  | limit (subject : String) (value : Nat) (bound : String)
  /-- `{subject} cumulative byte length exceeds limit {max}`. -/
  | budget (subject : String) (max : Nat)
  /-- `{subject} overflow`: a size that does not fit a machine word. -/
  | overflow (subject : String)
  deriving Repr, DecidableEq

/-- The message as the source formats it. -/
def Message.render : Message → String
  | .text s => s
  | .limit subject value bound => subject ++ " " ++ toString value ++ " exceeds " ++ bound
  | .budget subject max => subject ++ " cumulative byte length exceeds limit " ++ toString max
  | .overflow subject => subject ++ " overflow"

/-- The kinds of I/O error the model tells apart. -/
inductive IoKind where
  /-- The peer closed the stream inside a read. -/
  | unexpectedEof
  /-- A frame that does not decompress to what it claims. -/
  | invalidData
  /-- A read that took longer than the socket allows. -/
  | timedOut
  /-- Nothing to read yet, which is also how some systems report a read timeout. -/
  | wouldBlock
  /-- Any other transport failure. -/
  | other
  deriving Repr, DecidableEq

/-- The crate's error type. -/
inductive Error where
  | protocol (msg : Message)
  | io (kind : IoKind)
  | compression (msg : String)
  | authentication (msg : String)
  | serverError (code : Int) (name message : String)
  | timeout (msg : String)
  | connectionClosed (msg : String)
  | config (msg : String)
  | poolTimeout (msg : String)
  | responseTooLarge (limit received : Nat)
  deriving Repr, DecidableEq

instance : EndOfInput Error := ⟨.io .unexpectedEof⟩

/-- The crate's `Result`. -/
abbrev Result := Except Error

/-- What a read comes to: its result, or why it has stopped. -/
abbrev Readout := Except (Stop Error)

/-- A read of a stream that stops with the crate's error. -/
abbrev Read := Reader Error

namespace Error

/-- A protocol error with a plain text. -/
def text (s : String) : Error := .protocol (.text s)

/-- The socket must not be reused after this error. -/
def isBrokenConnection : Error → Bool
  | .connectionClosed _ | .io _ | .timeout _ | .responseTooLarge _ _ => true
  | _ => false

/-- One of the size caps fired. -/
def isCap : Error → Bool
  | .protocol (.limit _ _ _) | .protocol (.budget _ _) | .protocol (.overflow _) => true
  | _ => false

end Error

/-! ## §2. The caps. -/

/-- Largest length of one string value (16 MiB − 1). -/
def maxStringBytes : Nat := 0x00FFFFFF

/-- Largest wire size of one column (64 MiB). -/
def maxColumnBytes : Nat := 64 * 1024 * 1024

/-- Largest row count of one block, and of one nested column. -/
def maxBlockRows : Nat := 10000000

/-- Largest column count of one block. -/
def maxBlockColumns : Nat := 65536

/-- Largest count of JSON paths, Dynamic types and LowCardinality keys. -/
def maxJsonDynamicItems : Nat := 65536

/-- The number of values of a 64-bit `usize`. -/
def usizeBound : Nat := 2 ^ 64

/-- `limit {max}`, as the messages name a cap. -/
def limitText (max : Nat) : String := "limit " ++ toString max

/-- A length or count above its cap is refused. -/
def checkedLimit (subject : String) (value max : Nat) : Result Nat :=
  if value > max then .error (.protocol (.limit subject value (limitText max))) else .ok value

/-- Length of one string value. -/
def checkedStringLen (value : Nat) (what : String) : Result Nat :=
  checkedLimit what value maxStringBytes

/-- Running byte total of a column. -/
def checkedColumnBytes (acc add : Nat) (what : String) : Result Nat :=
  if acc + add ≥ usizeBound then
    .error (.protocol (.overflow (what ++ " cumulative byte length")))
  else checkedLimit (what ++ " cumulative byte length") (acc + add) maxColumnBytes

/-- `rows * width` as one buffer. -/
def checkedColumnLen (rows width : Nat) (what : String) : Result Nat :=
  if rows * width ≥ usizeBound then .error (.protocol (.overflow (what ++ " byte length")))
  else checkedLimit (what ++ " byte length") (rows * width) maxColumnBytes

/-- The last offset of an Array or Map column. -/
def checkedNestedTotal (value : Nat) (what : String) : Result Nat :=
  checkedLimit (what ++ " total") value maxBlockRows

/-- One offset: not below the previous one, and capped. -/
def checkedMonotonicOffset (prev value : Nat) (what : String) : Result Nat := do
  let value ← checkedNestedTotal value what
  if value < prev then
    .error (.text (what ++ " decreased from " ++ toString prev ++ " to " ++ toString value))
  else .ok value

/-- An item count. -/
def checkedCount (value : Nat) (what : String) (max : Nat) : Result Nat :=
  checkedLimit (what ++ " count") value max

/-- `rows * width` without a cap (`io.rs`). -/
def checkedLen (rows width : Nat) : Result Nat :=
  if rows * width ≥ usizeBound then .error (.protocol (.overflow "column byte length"))
  else .ok (rows * width)

/-- Charge `len` bytes against a remaining column budget. -/
def chargeBudget (budget len : Nat) (what : String) : Result Nat :=
  if budget < len then .error (.protocol (.budget what maxColumnBytes)) else .ok (budget - len)

/-! ## §3. What the checks let through. -/

variable {what : String} {subject : String} {e : Error}

variable {value max : Nat}

theorem checkedLimit_ok {n : Nat} (h : checkedLimit subject value max = .ok n) :
    n = value ∧ value ≤ max := by
  unfold checkedLimit at h
  split at h <;> cases h
  next hle =>
    exact ⟨rfl, by omega⟩

theorem checkedLimit_of_le (h : value ≤ max) :
    checkedLimit subject value max = .ok value := by
  unfold checkedLimit
  rw [if_neg (by omega)]

theorem checkedLimit_error (h : checkedLimit subject value max = .error e) : e.isCap = true := by
  unfold checkedLimit at h
  split at h <;> cases h
  rfl

variable {rows width : Nat}

theorem checkedColumnLen_ok {n : Nat} (h : checkedColumnLen rows width what = .ok n) :
    n = rows * width ∧ rows * width ≤ maxColumnBytes := by
  unfold checkedColumnLen at h
  split at h
  · cases h
  · exact checkedLimit_ok h

theorem checkedColumnLen_of_le (h : rows * width ≤ maxColumnBytes) :
    checkedColumnLen rows width what = .ok (rows * width) := by
  have hbound : maxColumnBytes < usizeBound := by decide
  unfold checkedColumnLen
  rw [if_neg (by omega)]
  exact checkedLimit_of_le h

variable {acc add : Nat}

theorem checkedColumnBytes_of_le (h : acc + add ≤ maxColumnBytes) :
    checkedColumnBytes acc add what = .ok (acc + add) := by
  have hbound : maxColumnBytes < usizeBound := by decide
  unfold checkedColumnBytes
  rw [if_neg (by omega)]
  exact checkedLimit_of_le h

theorem checkedColumnBytes_ok {n : Nat} (h : checkedColumnBytes acc add what = .ok n) :
    n = acc + add ∧ acc + add ≤ maxColumnBytes := by
  unfold checkedColumnBytes at h
  split at h
  · cases h
  · exact checkedLimit_ok h

theorem checkedColumnBytes_error (h : checkedColumnBytes acc add what = .error e) :
    e.isCap = true := by
  unfold checkedColumnBytes at h
  split at h
  · cases h; rfl
  · exact checkedLimit_error h

theorem checkedColumnLen_error (h : checkedColumnLen rows width what = .error e) :
    e.isCap = true := by
  unfold checkedColumnLen at h
  split at h
  · cases h; rfl
  · exact checkedLimit_error h

end StClickHouse
