/-
# Records in JSON

A record with declared fields is read from an object, whose other members are ignored, or from
an array that lists the fields in order.  A known key may stand once.  A closed set of names is
read from a string, or from an object with one such name as its only key.  A tree may stem from
JSON or from TOML, and the two differ in what they let pass: that is a `Dialect`.  Everything here
is a reader into `Option`; a record type reads its fields one by one from the list that `fields?`
gives.  Main statements: `fields?_named`, `fields?_listed`.
-/
import DocSearch.Json.Basic

namespace DocSearch.Json

/-! ## 1. Scalars and lists -/

/-- Reads a string. -/
def string? : Json → Option String
  | .str s => some s
  | _ => none

/-- Reads a truth value. -/
def bool? : Json → Option Bool
  | .bool b => some b
  | _ => none

/-- Reads an integer from `least` to `greatest`. -/
def intWithin? (least greatest : Int) : Json → Option Int
  | .int n => if least ≤ n ∧ n ≤ greatest then some n else none
  | _ => none

/-- Reads a 64-bit signed integer. -/
def int64? (j : Json) : Option Int64 :=
  (j.intWithin? Int64.minValue.toInt Int64.maxValue.toInt).map Int64.ofInt

/-- Reads a 64-bit unsigned integer. -/
def uint64? (j : Json) : Option UInt64 :=
  (j.intWithin? 0 (UInt64.size - 1)).map fun n => UInt64.ofNat n.toNat

/-- Reads a 32-bit unsigned integer. -/
def uint32? (j : Json) : Option UInt32 :=
  (j.intWithin? 0 (UInt32.size - 1)).map fun n => UInt32.ofNat n.toNat

/-- Reads `null` as nothing, and anything else with `f`. -/
def nullable? {α : Type} (f : Json → Option α) : Json → Option (Option α)
  | .null => some none
  | j => (f j).map some

/-- Reads every item of an array with `f`. -/
def listOf? {α : Type} (f : Json → Option α) : Json → Option (List α)
  | .arr items => items.mapM f
  | _ => none

/-! ## 2. Dialects -/

/-- What the readers of names and records let pass. -/
structure Dialect where
  /-- Whether a value is no content, so that the key before it says all. -/
  isVoid : Json → Bool
  /-- Whether an array may go on behind the last field of a record. -/
  allowsSurplus : Bool
  /-- Whether a name in a record that is held back may be given by its position. -/
  allowsPosition : Bool

namespace Dialect

/-- In JSON `null` is no content. -/
def json : Dialect where
  isVoid := fun
    | .null => true
    | _ => false
  allowsSurplus := false
  allowsPosition := true

/-- In TOML, which has no null, an empty table or list is no content. -/
def toml : Dialect where
  isVoid := fun
    | .obj [] => true
    | .arr [] => true
    | _ => false
  allowsSurplus := true
  allowsPosition := false

/-- The dialect of the parts of a record that is held back until its kind is known. -/
def held (d : Dialect) : Dialect where
  isVoid := fun
    | .null => true
    | .obj [] => true
    | _ => false
  allowsSurplus := false
  allowsPosition := d.allowsPosition

end Dialect

/-- The values with their names. -/
def byName {α : Type} (name : α → String) (values : List α) : List (String × α) :=
  values.map fun a => (name a, a)

/-- Reads one of the listed names: a string, or an object whose one member has that name and no
content. -/
def oneOf? {α : Type} (d : Dialect) (names : List (String × α)) : Json → Option α
  | .str s => names.lookup s
  | .obj [(s, j)] => if d.isVoid j then names.lookup s else none
  | _ => none

/-! ## 3. Records -/

/-- The parts of a record: members by name, or items in the order of declaration. -/
inductive Record (α : Type) where
  | named (members : List (String × α))
  | listed (items : List α)

/-- The parts of an object or array. -/
def record? : Json → Option (Record Json)
  | .obj members => some (.named members)
  | .arr items => some (.listed items)
  | _ => none

/-- The parts of a record under the declared `names`.  A name may be given once; an array has at
least `least` items and, unless the dialect allows a surplus, no more than there are names. -/
def Record.fields? {α : Type} (d : Dialect) (names : List String) (least : Nat) :
    Record α → Option (List (String × α))
  | .named members =>
    let known := members.filter fun member => decide (member.1 ∈ names)
    if (known.map (·.1)).Nodup then some known else none
  | .listed items =>
    if least ≤ items.length ∧ (d.allowsSurplus ∨ items.length ≤ names.length) then
      some (names.zip items)
    else none

/-- The given fields of a record with the declared `names`. -/
def fields? (d : Dialect) (names : List String) (j : Json) : Option (List (String × Json)) :=
  (record? j).bind (Record.fields? d names 0)

/-- Reads a field that has to be given. -/
def required {α β : Type} (f : α → Option β) (name : String) (given : List (String × α)) :
    Option β :=
  (given.lookup name).bind f

/-- Reads a field that stands for `fallback` when it is not given. -/
def optional {α β : Type} (f : α → Option β) (fallback : β) (name : String)
    (given : List (String × α)) : Option β :=
  match given.lookup name with
  | none => some fallback
  | some part => f part

theorem fields?_named {α : Type} {d : Dialect} {names : List String} {members : List (String × α)}
    (known : ∀ member ∈ members, member.1 ∈ names) (once : (members.map (·.1)).Nodup) :
    (Record.named members).fields? d names 0 = some members := by
  have h : members.filter (fun member => decide (member.1 ∈ names)) = members :=
    List.filter_eq_self.2 fun member hm => by simpa using known member hm
  rw [Record.fields?, h]
  simp [once]

theorem fields?_listed {d : Dialect} {names : List String} {items : List Json}
    (h : items.length ≤ names.length) :
    (Record.listed items).fields? d names 0 = some (names.zip items) := by
  simp [Record.fields?, h]

end DocSearch.Json
