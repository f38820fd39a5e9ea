/-
  StClickHouse.TypeName.ColumnType
  **COLUMN TYPES AND THEIR PRINTED NAMES.**

  The in-memory column type of `shared/type_parser.rs`: the enumeration
  `ColumnType`, the per-row byte width `fixedWidth` and the `Display`
  rendering `display`.  A type name is a list of characters (`Text`); the
  machine integers of the source (`usize`, `u32`) are `UInt64` and `UInt32`,
  so every value of the Lean type is a value of the Rust one.
-/
import StClickHouse.Lib.RustText

namespace StClickHouse

open RustText

/-- A structured column type, parsed from its type name. -/
inductive ColumnType where
  | uint8
  | uint16
  | uint32
  | uint64
  | uint128
  | uint256
  | int8
  | int16
  | int32
  | int64
  | int128
  | int256
  | float32
  | float64
  | bool
  | string
  | fixedString (n : UInt64)
  | date
  | date32
  | dateTime
  /-- `DateTime64(scale)`; a time zone parameter is dropped. -/
  | dateTime64 (scale : UInt32)
  /-- `Decimal(precision, scale)`. -/
  | decimal (precision scale : UInt32)
  | uuid
  | ipv4
  | ipv6
  /-- `Enum8(...)`; the labels are dropped. -/
  | enum8
  /-- `Enum16(...)`; the labels are dropped. -/
  | enum16
  | nullable (inner : ColumnType)
  | array (inner : ColumnType)
  | map (key value : ColumnType)
  | tuple (types : List ColumnType)
  | lowCardinality (inner : ColumnType)
  /-- `AggregateFunction(...)`; function and argument types are dropped. -/
  | aggregateFunction
  /-- `SimpleAggregateFunction(...)`; function and argument types are dropped. -/
  | simpleAggregateFunction
  | nothing
  | time
  | time64 (scale : UInt32)
  | json
  | variant (types : List ColumnType)
  | dynamic
  | point
  | ring
  | polygon
  | multiPolygon
  /-- Fallback for unknown types: the raw text is kept. -/
  | other (s : Text)
  deriving Repr

namespace ColumnType

/-! ## §1. The byte width of one row. -/

/-- The width of a decimal of the given precision. -/
def decimalWidth (precision : UInt32) : Option Nat :=
  if 1 ≤ precision ∧ precision ≤ 9 then some 4
  else if 10 ≤ precision ∧ precision ≤ 18 then some 8
  else if 19 ≤ precision ∧ precision ≤ 38 then some 16
  else if 39 ≤ precision ∧ precision ≤ 76 then some 32
  else none

/-- Number of bytes per row for fixed-size types, or `none` for variable ones. -/
def fixedWidth : ColumnType → Option Nat
  | .uint8 | .int8 | .bool | .enum8 => some 1
  | .uint16 | .int16 | .date | .enum16 => some 2
  | .uint32 | .int32 | .float32 | .date32 | .dateTime | .time | .ipv4 => some 4
  | .uint64 | .int64 | .float64 | .dateTime64 _ | .time64 _ => some 8
  | .ipv6 => some 16
  | .uint128 | .int128 | .uuid => some 16
  | .uint256 | .int256 => some 32
  | .fixedString n => some n.toNat
  | .decimal precision _ => decimalWidth precision
  | .nothing => some 0
  | .point => some 16
  | _ => none

/-! ## §2. `Display`. -/

/-- The name of a type that prints without parameters. -/
def simpleName : ColumnType → String
  | .uint8 => "UInt8"
  | .uint16 => "UInt16"
  | .uint32 => "UInt32"
  | .uint64 => "UInt64"
  | .uint128 => "UInt128"
  | .uint256 => "UInt256"
  | .int8 => "Int8"
  | .int16 => "Int16"
  | .int32 => "Int32"
  | .int64 => "Int64"
  | .int128 => "Int128"
  | .int256 => "Int256"
  | .float32 => "Float32"
  | .float64 => "Float64"
  | .bool => "Bool"
  | .string => "String"
  | .date => "Date"
  | .date32 => "Date32"
  | .dateTime => "DateTime"
  | .uuid => "UUID"
  | .ipv4 => "IPv4"
  | .ipv6 => "IPv6"
  | .enum8 => "Enum8"
  | .enum16 => "Enum16"
  | .aggregateFunction => "AggregateFunction"
  | .simpleAggregateFunction => "SimpleAggregateFunction"
  | .nothing => "Nothing"
  | .time => "Time"
  | .json => "JSON"
  | .dynamic => "Dynamic"
  | .point => "Point"
  | .ring => "Ring"
  | .polygon => "Polygon"
  | .multiPolygon => "MultiPolygon"
  | _ => ""

/-- `base(inner)`. -/
def wrap (base inner : Text) : Text := base ++ '(' :: (inner ++ [')'])

/-- Texts with a comma and a blank before every one but the first. -/
def joinComma : List Text → Text
  | [] => []
  | [t] => t
  | t :: u :: ts => t ++ ',' :: ' ' :: joinComma (u :: ts)

mutual

/-- The text `Display` writes for a column type. -/
def display : ColumnType → Text
  | .fixedString n => wrap "FixedString".toList (number n.toNat)
  | .dateTime64 s => wrap "DateTime64".toList (number s.toNat)
  | .decimal p s => wrap "Decimal".toList (joinComma [number p.toNat, number s.toNat])
  | .nullable inner => wrap "Nullable".toList (display inner)
  | .array inner => wrap "Array".toList (display inner)
  | .map k v => wrap "Map".toList (joinComma [display k, display v])
  | .tuple types => wrap "Tuple".toList (joinComma (displayTypes types))
  | .lowCardinality inner => wrap "LowCardinality".toList (display inner)
  | .time64 s => wrap "Time64".toList (number s.toNat)
  | .variant types => wrap "Variant".toList (joinComma (displayTypes types))
  | .other s => s
  | ct => (simpleName ct).toList

/-- The elements of `Tuple(...)` and `Variant(...)`. -/
def displayTypes : List ColumnType → List Text
  | [] => []
  | t :: ts => display t :: displayTypes ts

end

end ColumnType

end StClickHouse
