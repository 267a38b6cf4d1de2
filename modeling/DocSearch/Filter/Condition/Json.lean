/-
# Conditions in JSON

A condition is an object with its kind under the key `kind`, its own fields, and its two flags.
Reading allows the kind anywhere in the object, leaves out flags that have the value of a fresh
condition, ignores other keys, and takes an array of the kind and the fields in order as well.
Inside a group in JSON the kind may also be given by its position in the list of kinds.
Main statements: `Kind.ofJson_name`, `partsOfMembers_eq_map`.
-/
import DocSearch.Filter.Condition

namespace DocSearch

/-! ## 1. Parts -/

/-- The conjunctions by name. -/
def Conjunction.names : List (String × Conjunction) := Json.byName keyword [.and, .or]

/-- The name of a conjunction. -/
def Conjunction.toJson (c : Conjunction) : Json := .str c.keyword

/-- Reads the name of a conjunction. -/
def Conjunction.ofJson (d : Json.Dialect) (j : Json) : Option Conjunction := j.oneOf? d names

/-- The integer, or the record of the range. -/
def IntValue.toJson : IntValue → Json
  | .exact n => .int n.toInt
  | .range r => r.toJson

/-- Reads an integer, or else a range. -/
def IntValue.ofJson (j : Json) : Option IntValue :=
  if j.isReadable then
    match j.int64? with
    | some n => some (.exact n)
    | none => (Range.ofJson j).map .range
  else none

/-- The members that hold the flags. -/
def Flags.members (flags : Flags) : List (String × Json) :=
  [("conjunction", flags.conjunction.toJson), ("negate", .bool flags.negate)]

namespace Condition

/-- The kinds of conditions. -/
inductive Kind where
  | text
  | int
  | texts
  | ints
  | group
deriving DecidableEq, Repr

/-- The name of a kind. -/
def Kind.name : Kind → String
  | .text => "text"
  | .int => "int"
  | .texts => "text_list"
  | .ints => "int_list"
  | .group => "group"

/-- The kinds by name, in their order. -/
def Kind.names : List (String × Kind) := Json.byName name [.text, .int, .texts, .ints, .group]

/-- Reads the name of a kind. -/
def Kind.ofJson : Json → Option Kind
  | .str s => names.lookup s
  | _ => none

/-- Reads the kind of a condition inside a group: its name or, where that is allowed, its
position. -/
def Kind.ofNestedJson (d : Json.Dialect) : Json → Option Kind
  | .str s => names.lookup s
  | .int (.ofNat n) => if d.allowsPosition then (names[n]?).map (·.2) else none
  | _ => none

/-- The kind of a condition. -/
def kind : Condition → Kind
  | .text .. => .text
  | .int .. => .int
  | .texts .. => .texts
  | .ints .. => .ints
  | .group .. => .group

/-! ## 2. Writing -/

/-- The members of a condition without its kind. -/
def members : Condition → List (String × Json)
  | .text field value flags =>
    [("field", (field.map Json.str).getD .null), ("value", .str value)] ++ flags.members
  | .int field value flags => [("field", .str field), ("value", value.toJson)] ++ flags.members
  | .texts field values flags =>
    [("field", .str field), ("values", .arr (values.map .str))] ++ flags.members
  | .ints field values flags =>
    [("field", .str field), ("values", .arr (values.map fun n => .int n.toInt))] ++ flags.members
  | .group left operator right flags =>
    [("left", .obj (("kind", .str left.kind.name) :: members left)),
     ("operator", operator.toJson),
     ("right", .obj (("kind", .str right.kind.name) :: members right))] ++ flags.members

/-- The condition with its kind. -/
def toJson (c : Condition) : Json := .obj (("kind", .str c.kind.name) :: c.members)

/-! ## 3. Reading -/

/-- A part of a condition, with what it reads as when it is a condition itself. -/
abbrev Part := Json × Option Condition

/-- Reads the flags; a flag that is not given is that of a fresh condition. -/
def readFlags (d : Json.Dialect) (fresh : Flags) (given : List (String × Part)) : Option Flags := do
  let conjunction ←
    Json.optional (fun part : Part => Conjunction.ofJson d part.1) fresh.conjunction
      "conjunction" given
  let negate ← Json.optional (fun part : Part => part.1.bool?) fresh.negate "negate" given
  some ⟨conjunction, negate⟩

/-- Reads the fields of a condition of known kind. -/
def ofRecord (d : Json.Dialect) (record : Json.Record Part) : Kind → Option Condition
  | .text => do
    let given ← record.fields? d ["field", "value", "conjunction", "negate"] 0
    let field ←
      Json.optional (fun part : Part => part.1.nullable? Json.string?) none "field" given
    let value ← Json.required (fun part : Part => part.1.string?) "value" given
    let flags ← readFlags d .conjunct given
    some (.text field value flags)
  | .int => do
    let given ← record.fields? d ["field", "value", "conjunction", "negate"] 0
    let field ← Json.required (fun part : Part => part.1.string?) "field" given
    let value ← Json.required (fun part : Part => IntValue.ofJson part.1) "value" given
    let flags ← readFlags d .alternative given
    some (.int field value flags)
  | .texts => do
    let given ← record.fields? d ["field", "values", "conjunction", "negate"] 0
    let field ← Json.required (fun part : Part => part.1.string?) "field" given
    let values ← Json.required (fun part : Part => part.1.listOf? Json.string?) "values" given
    let flags ← readFlags d .alternative given
    some (.texts field values flags)
  | .ints => do
    let given ← record.fields? d ["field", "values", "conjunction", "negate"] 0
    let field ← Json.required (fun part : Part => part.1.string?) "field" given
    let values ← Json.required (fun part : Part => part.1.listOf? Json.int64?) "values" given
    let flags ← readFlags d .alternative given
    some (.ints field values flags)
  | .group => do
    let given ← record.fields? d ["left", "operator", "right", "conjunction", "negate"] 0
    let left ← Json.required (fun part : Part => part.2) "left" given
    let operator ←
      Json.required (fun part : Part => Conjunction.ofJson d part.1) "operator" given
    let right ← Json.required (fun part : Part => part.2) "right" given
    let flags ← readFlags d .conjunct given
    some (.group left operator right flags)

/-- Reads a condition from its parts, the kind among them. -/
def ofTagged (d : Json.Dialect) (kind? : Json → Option Kind) : Json.Record Part → Option Condition
  | .named members =>
    match members.filter fun member => decide (member.1 = "kind") with
    | [tag] =>
      (kind? tag.2.1).bind
        (ofRecord d.held (.named (members.filter fun member => decide (member.1 ≠ "kind"))))
    | _ => none
  | .listed [] => none
  | .listed (tag :: items) => (kind? tag.1).bind (ofRecord d.held (.listed items))

mutual

/-- Reads a condition inside a group. -/
def ofNestedJson (d : Json.Dialect) : Json → Option Condition
  | .obj members => ofTagged d (Kind.ofNestedJson d) (.named (partsOfMembers d members))
  | .arr items => ofTagged d (Kind.ofNestedJson d) (.listed (partsOfItems d items))
  | _ => none

/-- The members of an object as parts. -/
def partsOfMembers (d : Json.Dialect) : List (String × Json) → List (String × Part)
  | [] => []
  | member :: members =>
    (member.1, member.2, ofNestedJson d member.2) :: partsOfMembers d members

/-- The items of an array as parts. -/
def partsOfItems (d : Json.Dialect) : List Json → List Part
  | [] => []
  | item :: items => (item, ofNestedJson d item) :: partsOfItems d items

end

/-- The members or items of a value as parts. -/
def parts? (d : Json.Dialect) : Json → Option (Json.Record Part)
  | .obj members => some (.named (partsOfMembers d members))
  | .arr items => some (.listed (partsOfItems d items))
  | _ => none

/-- Reads a condition. -/
def ofJson (d : Json.Dialect) (j : Json) : Option Condition :=
  if j.isReadable then (parts? d j).bind (ofTagged d Kind.ofJson) else none

/-- Reads the fields of a condition of known kind, without the kind. -/
def ofFields (d : Json.Dialect) (kind : Kind) (j : Json) : Option Condition :=
  (parts? d j).bind fun record => ofRecord d record kind

theorem partsOfMembers_eq_map (d : Json.Dialect) (members : List (String × Json)) :
    partsOfMembers d members =
      members.map fun member => (member.1, member.2, ofNestedJson d member.2) := by
  induction members with
  | nil => rfl
  | cons member members ih => simp [partsOfMembers, ih]

/-- Every kind reads back from its name. -/
theorem Kind.ofJson_name (kind : Kind) : Kind.ofJson (.str kind.name) = some kind := by
  cases kind <;> rfl

end Condition
end DocSearch
