/-
# Written JSON

`compact` writes a value without any blank, `pretty` with one member or item to a line, indented
by two spaces.  A string escapes the quote, the backslash and the control characters below
U+0020, and nothing else.  A double is positional from 10^-5 to below 10^16.
-/
import DocSearch.Json.Basic
import DocSearch.Text.Digits

namespace DocSearch.Json

/-! ## 1. Scalars -/

/-- The layout of a double in JSON text. -/
def doubleLayout : Double.Layout where
  tie := .even
  leastPlain := -5
  leastLarge := 16
  positiveSign := ['+']
  infinity := "null".toList
  nan := "null".toList

/-- The escaped form of one character of a string. -/
def escapeChar (c : Char) : List Char :=
  if c = '"' then ['\\', '"']
  else if c = '\\' then ['\\', '\\']
  else if c = '\n' then ['\\', 'n']
  else if c = '\r' then ['\\', 'r']
  else if c = '\t' then ['\\', 't']
  else if c = '\x08' then ['\\', 'b']
  else if c = '\x0c' then ['\\', 'f']
  else if c.toNat < 0x20 then
    ['\\', 'u', '0', '0', Text.lowerHex (c.toNat / 16), Text.lowerHex (c.toNat % 16)]
  else [c]

/-- A string between quotes. -/
def quoted (s : String) : String :=
  "\"" ++ String.ofList (s.toList.flatMap escapeChar) ++ "\""

/-- The text of a double. -/
def ofDouble (x : Double) : String :=
  match x with
  | .infinite _ => "null"
  | x => String.ofList (x.text doubleLayout)

/-! ## 2. Compact text -/

mutual

/-- A value on one line without blanks. -/
def compact : Json → String
  | .null => "null"
  | .bool true => "true"
  | .bool false => "false"
  | .int n => Decimal.ofInt n
  | .float x => ofDouble x
  | .str s => quoted s
  | .arr items => "[" ++ String.intercalate "," (compactItems items) ++ "]"
  | .obj members => "\x7b" ++ String.intercalate "," (compactMembers members) ++ "\x7d"
  | .unreadable => "null"

/-- The compact text of each item. -/
def compactItems : List Json → List String
  | [] => []
  | item :: items => compact item :: compactItems items

/-- The compact text of each member. -/
def compactMembers : List (String × Json) → List String
  | [] => []
  | member :: members => (quoted member.1 ++ ":" ++ compact member.2) :: compactMembers members

end

theorem compactItems_eq_map (items : List Json) : compactItems items = items.map compact := by
  induction items with
  | nil => rfl
  | cons item items ih => simp [compactItems, ih]

/-! ## 3. Indented text -/

/-- A line break followed by two spaces for each level. -/
def newline (level : Nat) : String :=
  String.ofList ('\n' :: List.replicate (2 * level) ' ')

/-- Lines between two brackets; an empty container stays on one line. -/
def block (level : Nat) (opening closing : String) (lines : List String) : String :=
  if lines.isEmpty then opening ++ closing
  else
    opening ++ newline (level + 1) ++ String.intercalate ("," ++ newline (level + 1)) lines ++
      newline level ++ closing

mutual

/-- A value with one member or item to a line. -/
def pretty (level : Nat) : Json → String
  | .arr items => block level "[" "]" (prettyItems (level + 1) items)
  | .obj members => block level "\x7b" "\x7d" (prettyMembers (level + 1) members)
  | j => compact j

/-- The indented text of each item. -/
def prettyItems (level : Nat) : List Json → List String
  | [] => []
  | item :: items => pretty level item :: prettyItems level items

/-- The indented text of each member. -/
def prettyMembers (level : Nat) : List (String × Json) → List String
  | [] => []
  | member :: members =>
    (quoted member.1 ++ ": " ++ pretty level member.2) :: prettyMembers level members

end

end DocSearch.Json
