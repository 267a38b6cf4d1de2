/-
# Written TOML

A document is a row of sections: the plain members of a table under its header, then the tables
inside it, each under the path that leads to it.  A list of tables has a section for each item.
Sections are set off by blank lines.  Everything else is written inside the line of its member:
an array of two or more items with an item to a line, a table inside such an array in braces.

TOML has no null, no integer above `2 ^ 63 - 1`, and no document that is not a table.
-/
import DocSearch.Json.Basic
import DocSearch.Toml.Quoted

namespace DocSearch.Toml

/-! ## 1. What can be written -/

/-- Why a value has no TOML form. -/
inductive WriteFault where
  /-- Only a table is a document. -/
  | notTable
  | null
  | tooLarge
deriving DecidableEq, Repr

/-- The wording of a fault. -/
def WriteFault.message : WriteFault → String
  | .notTable => "a document has to be a table"
  | .null => "null has no form"
  | .tooLarge => "an integer is out of range"

mutual

/-- The first part of a value that has no TOML form. -/
def faultIn? : Json → Option WriteFault
  | .null => some .null
  | .unreadable => some .null
  | .int n => if Int64.maxValue.toInt < n then some .tooLarge else none
  | .arr items => itemFaultIn? items
  | .obj members => memberFaultIn? members
  | _ => none

/-- The first fault in the items of a list. -/
def itemFaultIn? : List Json → Option WriteFault
  | [] => none
  | item :: items => (faultIn? item).or (itemFaultIn? items)

/-- The first fault in the members of a table. -/
def memberFaultIn? : List (String × Json) → Option WriteFault
  | [] => none
  | member :: members => (faultIn? member.2).or (memberFaultIn? members)

end

/-! ## 2. Values inside a line -/

/-- The layout of a float: never an exponent. -/
def floatLayout : Double.Layout where
  tie := .up
  leastPlain := -400
  leastLarge := 400
  positiveSign := []
  infinity := "inf".toList
  nan := "nan".toList

/-- The items of an array between brackets. -/
def bracketed : List String → String
  | [] => "[]"
  | [item] => "[" ++ item ++ "]"
  | items => "[" ++ String.join (items.map fun item => "\n    " ++ item ++ ",") ++ "\n]"

/-- The members of a table between braces. -/
def braced (members : List String) : String :=
  if members.isEmpty then "\x7b\x7d"
  else "\x7b " ++ String.intercalate ", " members ++ " \x7d"

mutual

/-- A value as it stands after the equals sign of its member. -/
def value : Json → String
  | .bool true => "true"
  | .bool false => "false"
  | .int n => Decimal.ofInt n
  | .float x => String.ofList (x.text floatLayout)
  | .str s => quoted s
  | .arr items => bracketed (itemValues items)
  | .obj members => braced (memberValues members)
  | .null => ""
  | .unreadable => ""

/-- The items of an array. -/
def itemValues : List Json → List String
  | [] => []
  | item :: items => value item :: itemValues items

/-- The members of a table, each as it stands in a line. -/
def memberValues : List (String × Json) → List String
  | [] => []
  | member :: members => (key member.1 ++ " = " ++ value member.2) :: memberValues members

end

/-! ## 3. Sections -/

/-- A table with the path that leads to it. -/
structure Section where
  path : List String
  /-- Whether the table is an item of a list of tables. -/
  isItem : Bool
  members : List (String × Json)

/-- Whether a list is one of tables, and not empty. -/
def isTableList (items : List Json) : Bool := !items.isEmpty && items.all Json.isObject

/-- Whether a value is written inside the line of its member. -/
def isPlain : Json → Bool
  | .obj _ => false
  | .arr items => !isTableList items
  | _ => true

mutual

/-- The sections of a value that is not plain, found at the end of `path`. -/
def sections (path : List String) (isItem : Bool) : Json → List Section
  | .obj members => ⟨path, isItem, members⟩ :: memberSections path members
  | .arr items => if isTableList items then itemSections path items else []
  | _ => []

/-- The sections of the items of a list. -/
def itemSections (path : List String) : List Json → List Section
  | [] => []
  | item :: items => sections path true item ++ itemSections path items

/-- The sections of the members of a table. -/
def memberSections (path : List String) : List (String × Json) → List Section
  | [] => []
  | member :: members =>
    sections (path ++ [member.1]) false member.2 ++ memberSections path members

end

namespace Section

/-- The members that are written inside a line. -/
def plain (s : Section) : List (String × Json) := s.members.filter fun m => isPlain m.2

/-- The header of a section; the document itself has none. -/
def header (s : Section) : String :=
  let path := String.intercalate "." (s.path.map key)
  if s.path.isEmpty then ""
  else if s.isItem then "[[" ++ path ++ "]]\n"
  else "[" ++ path ++ "]\n"

/-- Whether a section is left out: it says nothing that the sections inside it do not say. -/
def isImplied (s : Section) : Bool :=
  s.plain.isEmpty && !s.isItem && (!s.members.isEmpty || s.path.isEmpty)

/-- The lines of a section. -/
def text (s : Section) : String :=
  s.header ++ String.join ((memberValues s.plain).map fun line => line ++ "\n")

end Section

/-! ## 4. Documents -/

/-- The document of a table. -/
def document (j : Json) : String :=
  String.intercalate "\n" (((sections [] false j).filter fun s => !s.isImplied).map Section.text)

/-- A value as a TOML document. -/
def write (j : Json) : Except WriteFault String :=
  match faultIn? j with
  | some fault => .error fault
  | none => if j.isObject then .ok (document j) else .error .notTable

end DocSearch.Toml
