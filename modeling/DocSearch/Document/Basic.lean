/-
# Documents

A schema is a table of named fields; a document of a schema has an identifier and a value for
each field.  A hit carries strings by field name: filling a document from them overwrites the
fields that are named and leaves the others.  Main statements: `fill_of_lookup`,
`fill_of_not_mem` (what filling does to one field).
-/
import DocSearch.Document.FieldType
import DocSearch.Json.Writer

namespace DocSearch

/-! ## 1. Schemas -/

/-- A field of a schema. -/
structure Field where
  name : String
  type : FieldType
deriving DecidableEq, Repr

/-- A table of fields with distinct names. -/
structure Schema where
  fields : List Field
  names_nodup : (fields.map Field.name).Nodup := by decide

namespace Schema

/-- The number of fields. -/
abbrev size (s : Schema) : Nat := s.fields.length

/-- The field at a position. -/
def field (s : Schema) (i : Fin s.size) : Field := s.fields[i]

/-- The names of the fields, in order. -/
def names (s : Schema) : List String := s.fields.map Field.name

end Schema

/-! ## 2. Documents -/

/-- The strings of a hit by field name. -/
abbrev WireFields := List (String × List String)

/-- A document of a schema. -/
@[ext] structure Document (s : Schema) where
  id : String
  value : (i : Fin s.size) → (s.field i).type.Value

namespace Document

variable {s : Schema}

/-- The document of which nothing was set. -/
def blank (s : Schema) : Document s := ⟨"", fun i => (s.field i).type.default⟩

/-- The document with another identifier. -/
def withId (id : String) (d : Document s) : Document s := { d with id }

/-- The document with every field that is named overwritten. -/
def fill (wire : WireFields) (d : Document s) : Document s :=
  { d with value := fun i =>
      match wire.lookup (s.field i).name with
      | some values => (s.field i).type.ofWire values
      | none => d.value i }

/-- The document of a hit. -/
def ofHit (id : String) (wire : WireFields) : Document s := fill wire (withId id (blank s))

/-- The fields of a document in table order, each as JSON. -/
def members (d : Document s) : List (String × Json) :=
  (List.finRange s.size).map fun i => ((s.field i).name, (s.field i).type.toJson (d.value i))

/-- The fields of a document as they are sent to the service: `null` is left out. -/
def fieldsJson (d : Document s) : List (String × Json) :=
  d.members.filter fun member => !member.2.isNull

theorem fill_of_lookup {wire : WireFields} {d : Document s} {i : Fin s.size} {values : List String}
    (h : wire.lookup (s.field i).name = some values) :
    (d.fill wire).value i = (s.field i).type.ofWire values := by
  simp [fill, h]

theorem fill_of_not_mem {wire : WireFields} {d : Document s} {i : Fin s.size}
    (h : wire.lookup (s.field i).name = none) : (d.fill wire).value i = d.value i := by
  simp [fill, h]

end Document

/-! ## 3. The strings of a hit -/

namespace WireFields

/-- A scalar as the service would spell it; `null`, lists and objects have no spelling. -/
def scalarText : Json → Option String
  | .str s => some s
  | .int n => some (Decimal.ofInt n)
  | .float x => some (Json.ofDouble x)
  | .bool true => some "true"
  | .bool false => some "false"
  | _ => none

/-- The strings of one field: those of the items of a list, or that of a bare scalar. -/
def values : Json → List String
  | .arr items => items.filterMap scalarText
  | j => (scalarText j).toList

/-- The strings of a hit's data. -/
def ofJson : Json → WireFields
  | .obj members => members.map fun member => (member.1, values member.2)
  | _ => []

end WireFields
end DocSearch
