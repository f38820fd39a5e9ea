/-
  StClickHouse.TypeName.TypeParser
  **THE TYPE NAME PARSER** of `shared/type_parser.rs`.

  `parseType` turns a type name into a `ColumnType`.  The source recurses
  with a growing `depth` and refuses `depth > MAX_TYPE_NESTING`; here the
  argument is the number of levels still allowed, so the recursion is
  structural and the refusal is the zero case.  The string primitives it
  rests on (`trim`, `parse::<u32>`) are those of `Lib.RustText`.
-/
import StClickHouse.TypeName.ColumnType

namespace StClickHouse

open RustText

/-! ## §1. The top-level comma. -/

/-- How one character moves the parenthesis depth. -/
def parenDelta (c : Char) : Int :=
  if c = '(' then 1 else if c = ')' then -1 else 0

/-- The scan of `find_top_level_comma` from a given depth.  The source
returns the comma's index and its callers slice around it; here the two
slices are returned. -/
def findCommaFrom : Int → Text → Option (Text × Text)
  | _, [] => none
  | depth, c :: cs =>
    if c = ',' ∧ depth = 0 then some ([], cs)
    else (findCommaFrom (depth + parenDelta c) cs).map (fun p => (c :: p.1, p.2))

/-- The texts before and after the first comma at depth 0. -/
def findTopLevelComma (s : Text) : Option (Text × Text) := findCommaFrom 0 s

/-! ## §2. The parser. -/

/-- The names without parameters. -/
def simpleTypes : List (Text × ColumnType) :=
  [("UInt8".toList, .uint8), ("UInt16".toList, .uint16), ("UInt32".toList, .uint32),
   ("UInt64".toList, .uint64), ("UInt128".toList, .uint128), ("UInt256".toList, .uint256),
   ("Int8".toList, .int8), ("Int16".toList, .int16), ("Int32".toList, .int32),
   ("Int64".toList, .int64), ("Int128".toList, .int128), ("Int256".toList, .int256),
   ("Float32".toList, .float32), ("Float64".toList, .float64), ("Bool".toList, .bool),
   ("String".toList, .string), ("JSON".toList, .json), ("Json".toList, .json),
   ("Dynamic".toList, .dynamic), ("Point".toList, .point), ("Ring".toList, .ring),
   ("Polygon".toList, .polygon), ("MultiPolygon".toList, .multiPolygon),
   ("Date".toList, .date), ("Date32".toList, .date32), ("Nothing".toList, .nothing),
   ("Time".toList, .time), ("DateTime".toList, .dateTime), ("UUID".toList, .uuid),
   ("IPv4".toList, .ipv4), ("IPv6".toList, .ipv6)]

/-- The branch for a name without parameters.  A name that starts with
`Time64` goes through the number parser; it holds no parenthesis here, so
`trim_start_matches("Time64(")` leaves it alone. -/
def parseSimple (base : Text) : Except String ColumnType :=
  match simpleTypes.find? (fun p => p.1 == base) with
  | some p => .ok p.2
  | none =>
    if "Time64".toList.isPrefixOf base then
      match parseU32 (base.rdropWhile (· == ')')) with
      | .ok scale => .ok (.time64 scale)
      | .error _ => .error "invalid Time64"
    else .ok (.other base)

/-- The element loop of `Tuple(...)` and `Variant(...)`.  Every round drops
at least the comma, so `remaining.length` rounds are enough. -/
def parseTypes (parse : Text → Except String ColumnType) :
    Nat → Text → Except String (List ColumnType)
  | 0, _ => .ok []
  | _ + 1, [] => .ok []
  | fuel + 1, c :: cs =>
    match findTopLevelComma (c :: cs) with
    | some (first, rest) => do
      let t ← parse first
      let ts ← parseTypes parse fuel rest
      return t :: ts
    | none => do
      let t ← parse (c :: cs)
      return [t]

/-- A number parameter, with the type name in front of the error. -/
def parseParam (what : String) (s : Text) : Except String UInt32 :=
  (parseU32 (trim s)).mapError (fun e => what ++ ": " ++ e)

/-- The text before the first comma (`split(',').next()`). -/
def beforeComma (s : Text) : Text := s.takeWhile (· ≠ ',')

/-- The branch for `base(inner)`; `s` is the whole trimmed name and `parse`
the recursive call one level down. -/
def parseParametric (parse : Text → Except String ColumnType) (s base inner : Text) :
    Except String ColumnType :=
  match String.ofList base with
  | "Nullable" => do return .nullable (← parse inner)
  | "Array" => do return .array (← parse inner)
  | "Map" =>
    match findTopLevelComma inner with
    | none => .error ("cannot parse Map types from: " ++ String.ofList inner)
    | some (k, v) => do
      let kt ← parse k
      let vt ← parse v
      return .map kt vt
  | "Tuple" => do return .tuple (← parseTypes parse inner.length inner)
  | "LowCardinality" => do return .lowCardinality (← parse inner)
  | "Enum8" => .ok .enum8
  | "Enum16" => .ok .enum16
  | "FixedString" => do
    return .fixedString (← (parseUsize (trim inner)).mapError ("FixedString: " ++ ·))
  | "DateTime64" => do return .dateTime64 (← parseParam "DateTime64" (beforeComma inner))
  | "DateTime" => .ok .dateTime
  | "Time64" => do return .time64 (← parseParam "Time64" (beforeComma inner))
  | "Decimal32" => do return .decimal 9 (← parseParam "Decimal32" inner)
  | "Decimal64" => do return .decimal 18 (← parseParam "Decimal64" inner)
  | "Decimal128" => do return .decimal 38 (← parseParam "Decimal128" inner)
  | "Decimal256" => do return .decimal 76 (← parseParam "Decimal256" inner)
  | "Decimal" =>
    match inner.dropWhile (· ≠ ',') with
    | [] => .error ("Decimal needs precision,scale: " ++ String.ofList s)
    | _ :: afterComma => do
      let precision ← parseParam "Decimal precision" (beforeComma inner)
      let scale ← parseParam "Decimal scale" afterComma
      return .decimal precision scale
  | "Variant" => do return .variant (← parseTypes parse inner.length inner)
  | "Object" | "object" => .ok .json
  | "AggregateFunction" => .ok .aggregateFunction
  | "SimpleAggregateFunction" => .ok .simpleAggregateFunction
  | _ => .ok (.other s)

/-- The text before the first opening parenthesis. -/
def baseName (s : Text) : Text := s.takeWhile (· ≠ '(')

/-- Cap on the nesting of a type name. -/
def maxTypeNesting : Nat := 256

/-- `parse_type_rec` with the number of nesting levels still allowed:
`depth > MAX_TYPE_NESTING` is the case of no level left. -/
def parseTypeRec : Nat → Text → Except String ColumnType
  | 0, _ => .error "type nesting exceeds 256 levels"
  | levels + 1, text =>
    let s := trim text
    if baseName s = [] then .error "empty type name"
    else
      match s.dropWhile (· ≠ '(') with
      | [] => parseSimple s
      | _ :: tail =>
        if tail.getLast? = some ')' then
          parseParametric (parseTypeRec levels) s (baseName s) (trim tail.dropLast)
        else
          .error ("malformed type name (unclosed paren): " ++ String.ofList s)

/-- Parse a type name; the outermost call is at depth 0. -/
def parseType (s : Text) : Except String ColumnType :=
  parseTypeRec (maxTypeNesting + 1) s

end StClickHouse
