/-
# Facets

A facet asks for the values of a field and how many documents carry each; it may ask for the
most frequent ones only, and may name the values or the integer ranges to be counted.
-/
import DocSearch.Text.Percent
import DocSearch.Filter.Range

namespace DocSearch

/-- What a facet counts. -/
inductive FacetConstraint where
  | ranges (rs : List Range)
  | values (vs : List String)
deriving DecidableEq, Repr

/-- A facet over one field. -/
structure Facet where
  name : String
  /-- How many of the most frequent values are wanted. -/
  top : Option UInt32
  constraint : Option FacetConstraint
deriving DecidableEq, Repr

namespace FacetConstraint

/-- The constraints joined by commas; nothing when there are none.  A value stands between
quotes, and since it is escaped no comma of its own is left in it. -/
def text : FacetConstraint → Option String
  | .ranges [] => none
  | .values [] => none
  | .ranges rs => some (String.intercalate "," (rs.map Range.text))
  | .values vs =>
    some (String.intercalate "," (vs.map fun value => "'" ++ Text.escape value ++ "'"))

/-- The constraint as an object with its kind. -/
def toJson : FacetConstraint → Json
  | .ranges rs => .obj [("kind", .str "int"), ("ranges", .arr (rs.map Range.toJson))]
  | .values vs => .obj [("kind", .str "text"), ("values", .arr (vs.map .str))]

/-- Reads the constraint of the named kind. -/
def ofRecord (record : Json.Record Json) : String → Option FacetConstraint
  | "int" => do
    let given ← record.fields? .json ["ranges"] 0
    let rs ← Json.required (Json.listOf? Range.ofJson) "ranges" given
    some (.ranges rs)
  | "text" => do
    let given ← record.fields? .json ["values"] 0
    let vs ← Json.required (Json.listOf? Json.string?) "values" given
    some (.values vs)
  | _ => none

/-- Reads a constraint: an object with its kind anywhere, or an array that starts with it. -/
def ofJson (j : Json) : Option FacetConstraint :=
  if j.isReadable then
    match j with
    | .obj members =>
      match members.filter fun member => decide (member.1 = "kind") with
      | [tag] =>
        tag.2.string?.bind
          (ofRecord (.named (members.filter fun member => decide (member.1 ≠ "kind"))))
      | _ => none
    | .arr (tag :: items) => tag.string?.bind (ofRecord (.listed items))
    | _ => none
  else none

end FacetConstraint

namespace Facet

/-- The facet over a field, with all its values. -/
def named (name : String) : Facet := ⟨name, none, none⟩

/-- The record of a facet. -/
def toJson (f : Facet) : Json :=
  .obj
    [("name", .str f.name),
     ("top_result", (f.top.map fun n => Json.int n.toNat).getD .null),
     ("constraint", (f.constraint.map FacetConstraint.toJson).getD .null)]

/-- Reads the record of a facet. -/
def ofJson (j : Json) : Option Facet := do
  let given ← j.fields? .json ["name", "top_result", "constraint"]
  let name ← Json.required Json.string? "name" given
  let top ← Json.optional (Json.nullable? Json.uint32?) none "top_result" given
  let constraint ← Json.optional (Json.nullable? FacetConstraint.ofJson) none "constraint" given
  some ⟨name, top, constraint⟩

end Facet
end DocSearch
