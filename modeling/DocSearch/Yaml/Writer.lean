/-
# Written YAML

A value is a row of lines.  What holds a value decides how its lines are set: behind a key on the
same line, below the key and two columns further in, or behind the hyphen of a list item.  A list
is not set further in than the key it belongs to.  A key that is long or has several lines stands
behind a question mark, and its value behind a colon of its own.
-/
import DocSearch.Json.Basic
import DocSearch.Yaml.Scalar

namespace DocSearch.Yaml

/-- The layout of a float. -/
def floatLayout : Double.Layout where
  tie := .even
  leastPlain := -5
  leastLarge := 16
  positiveSign := []
  infinity := ".inf".toList
  nan := ".nan".toList

/-- Sets the first of some lines behind a mark, the others where they are. -/
def behind (mark : List Char) : List (List Char) → List (List Char)
  | [] => [mark]
  | line :: lines => (mark ++ ' ' :: line) :: lines

/-- The line of a short key. -/
def key (s : String) : List Char := (scalar s).flatten ++ [':']

/-- Whether a value needs lines of its own below its key. -/
def isTall : Json → Bool
  | .arr items => !items.isEmpty
  | .obj members => !members.isEmpty
  | _ => false

/-- Lines behind a mark; those of a list or an object go on in the column of the first. -/
def marked (mark : Char) (tall : Bool) (own : List (List Char)) : List (List Char) :=
  behind [mark] (if tall then hang own else own)

/-- The lines of a value behind or below its key. -/
def keyed (key : List Char) (j : Json) (own : List (List Char)) : List (List Char) :=
  match j with
  | .arr _ => if isTall j then key :: own else behind key own
  | .obj _ => if isTall j then key :: own.map indent else behind key own
  | _ => behind key own

mutual

/-- The lines of a value. -/
def lines : Json → List (List Char)
  | .null => ["null".toList]
  | .bool true => ["true".toList]
  | .bool false => ["false".toList]
  | .int n => [(Decimal.ofInt n).toList]
  | .float x => [x.text floatLayout]
  | .str s => scalar s
  | .arr items => if items.isEmpty then ["[]".toList] else itemLines items
  | .obj members => if members.isEmpty then ["\x7b\x7d".toList] else memberLines members
  | .unreadable => ["null".toList]

/-- The lines of list items, each behind a hyphen. -/
def itemLines : List Json → List (List Char)
  | [] => []
  | item :: items =>
    marked '-' (isTall item) (lines item) ++ itemLines items

/-- The lines of members, each behind its key. -/
def memberLines : List (String × Json) → List (List Char)
  | [] => []
  | member :: members =>
    (if isShortKey member.1 then keyed (key member.1) member.2 (lines member.2)
     else
      marked '?' false (scalar member.1) ++ marked ':' (isTall member.2) (lines member.2)) ++
      memberLines members

end

/-- A line with its end: a line feed, unless another break ends it. -/
def ended (line : List Char) : List Char :=
  if line.getLast?.any isBreak then line else line ++ ['\n']

/-- A value as a YAML document. -/
def write (j : Json) : String := String.ofList ((lines j).flatMap ended)

end DocSearch.Yaml
