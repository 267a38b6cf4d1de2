/-
# Field types

The types a document field may have.  The service answers with a list of strings for each field:
a single value is the first of them, a list is all of them, and a string that does not read as
the type never makes a document fail.  A value is sent to the service as JSON.
-/
import DocSearch.Document.Instant.Reader
import DocSearch.Json.Record

namespace DocSearch

/-! ## 1. Types and their values -/

/-- The type of a document field. -/
inductive FieldType where
  | text
  | optText
  | texts
  | int32
  | int64
  | optInt32
  | optInt64
  | int32s
  | int64s
  | optInt64s
  | date
  | optDate
  | dates
deriving DecidableEq, Repr

/-- What a field holds, whatever the width of its integers. -/
inductive FieldKind where
  | text
  | nullableText
  | textList
  | int
  | nullableInt
  | intList
  | nullableIntList
  | date
  | nullableDate
  | dateList
deriving DecidableEq, Repr

namespace FieldKind

/-- Whether a field holds a list. -/
def isList : FieldKind → Bool
  | .textList => true
  | .intList => true
  | .nullableIntList => true
  | .dateList => true
  | _ => false

/-- The name of a kind. -/
def name : FieldKind → String
  | .text => "text"
  | .nullableText => "nullable_text"
  | .textList => "text_list"
  | .int => "int"
  | .nullableInt => "nullable_int"
  | .intList => "int_list"
  | .nullableIntList => "nullable_int_list"
  | .date => "date"
  | .nullableDate => "nullable_date"
  | .dateList => "date_list"

/-- The kinds by name. -/
def names : List (String × FieldKind) :=
  Json.byName name [.text, .nullableText, .textList, .int, .nullableInt, .intList,
    .nullableIntList, .date, .nullableDate, .dateList]

/-- Reads the name of a kind. -/
def ofJson (d : Json.Dialect) (j : Json) : Option FieldKind := j.oneOf? d names

end FieldKind

namespace FieldType

/-- The values of a field type. -/
abbrev Value : FieldType → Type
  | .text => String
  | .optText => Option String
  | .texts => List String
  | .int32 => Int32
  | .int64 => Int64
  | .optInt32 => Option Int32
  | .optInt64 => Option Int64
  | .int32s => List Int32
  | .int64s => List Int64
  | .optInt64s => List (Option Int64)
  | .date => Instant
  | .optDate => Option Instant
  | .dates => List Instant

/-- The value of a field that was never set. -/
def default : (t : FieldType) → t.Value
  | .text => ""
  | .optText => none
  | .texts => []
  | .int32 => 0
  | .int64 => 0
  | .optInt32 => none
  | .optInt64 => none
  | .int32s => []
  | .int64s => []
  | .optInt64s => []
  | .date => Instant.epoch
  | .optDate => none
  | .dates => []

/-- What a field of the type holds. -/
def kind : FieldType → FieldKind
  | .text => .text
  | .optText => .nullableText
  | .texts => .textList
  | .int32 => .int
  | .int64 => .int
  | .optInt32 => .nullableInt
  | .optInt64 => .nullableInt
  | .int32s => .intList
  | .int64s => .intList
  | .optInt64s => .nullableIntList
  | .date => .date
  | .optDate => .nullableDate
  | .dates => .dateList

/-! ## 2. From the strings of a hit -/

/-- Reads a 32-bit integer with blanks around it. -/
def readInt32 (s : String) : Option Int32 := (Decimal.readInt32 (Text.trim s)).toOption

/-- Reads a 64-bit integer with blanks around it. -/
def readInt64 (s : String) : Option Int64 := (Decimal.readInt64 (Text.trim s)).toOption

/-- The value that a hit's strings stand for. -/
def ofWire : (t : FieldType) → List String → t.Value
  | .text, values => values.head?.getD ""
  | .optText, values => values.head?
  | .texts, values => values
  | .int32, values => (values.head?.bind readInt32).getD 0
  | .int64, values => (values.head?.bind readInt64).getD 0
  | .optInt32, values => values.head?.bind readInt32
  | .optInt64, values => values.head?.bind readInt64
  | .int32s, values => values.filterMap readInt32
  | .int64s, values => values.filterMap readInt64
  | .optInt64s, values => values.map readInt64
  | .date, values => (values.head?.bind Instant.ofText).getD Instant.epoch
  | .optDate, values => values.head?.bind Instant.ofText
  | .dates, values => values.filterMap Instant.ofText

/-! ## 3. To JSON -/

/-- An optional value, `null` when it is missing. -/
def orNull {α : Type} (f : α → Json) : Option α → Json
  | none => .null
  | some a => f a

/-- The value as it is sent to the service. -/
def toJson : (t : FieldType) → t.Value → Json
  | .text, s => .str s
  | .optText, s => orNull .str s
  | .texts, values => .arr (values.map .str)
  | .int32, n => .int n.toInt
  | .int64, n => .int n.toInt
  | .optInt32, n => orNull (fun n : Int32 => .int n.toInt) n
  | .optInt64, n => orNull (fun n : Int64 => .int n.toInt) n
  | .int32s, values => .arr (values.map fun n => .int n.toInt)
  | .int64s, values => .arr (values.map fun n => .int n.toInt)
  | .optInt64s, values => .arr (values.map (orNull fun n => .int n.toInt))
  | .date, i => .str i.text
  | .optDate, i => orNull (fun i : Instant => .str i.text) i
  | .dates, values => .arr (values.map fun i => .str i.text)

end FieldType
end DocSearch
