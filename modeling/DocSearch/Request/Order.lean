/-
# The order of the hits

Hits are ranked by a field, upwards or downwards; in text a minus sign before the field asks for
the downward order.  Main statement: `text_ofText` (a text is kept by reading it).
-/
import DocSearch.Text.Percent
import DocSearch.Json.Record

namespace DocSearch

/-- The direction of an order. -/
inductive Direction where
  | ascending
  | descending
deriving DecidableEq, Repr

/-- The field by which hits are ranked. -/
structure Order where
  field : String
  direction : Direction
deriving DecidableEq, Repr

namespace Order

/-- Reads a field, after a minus sign for the downward order. -/
def ofText (s : String) : Order :=
  match s.toList with
  | '-' :: field => ⟨String.ofList field, .descending⟩
  | _ => ⟨s, .ascending⟩

/-- The minus sign of the downward order. -/
def sign : Direction → String
  | .ascending => ""
  | .descending => "-"

/-- The field, after a minus sign for the downward order. -/
def text (o : Order) : String := sign o.direction ++ o.field

/-- A text is kept by reading it. -/
theorem text_ofText (s : String) : (ofText s).text = s := by
  rw [← String.toList_inj]
  unfold ofText
  split
  · next field h => simp [text, sign, h]
  · simp [text, sign]

/-- The value of the rank parameter. -/
def rank (o : Order) : String := sign o.direction ++ Text.escape o.field

/-- The name of a direction. -/
def directionName : Direction → String
  | .ascending => "ascending"
  | .descending => "descending"

/-- The directions by name. -/
def directions : List (String × Direction) :=
  Json.byName directionName [.ascending, .descending]

/-- The record of an order. -/
def toJson (o : Order) : Json :=
  .obj [("field", .str o.field), ("direction", .str (directionName o.direction))]

/-- Reads the record of an order, upwards when no direction is given. -/
def ofJson (d : Json.Dialect) (j : Json) : Option Order := do
  let given ← j.fields? d ["field", "direction"]
  let field ← Json.required Json.string? "field" given
  let direction ← Json.optional (Json.oneOf? d directions) .ascending "direction" given
  some ⟨field, direction⟩

end Order
end DocSearch
