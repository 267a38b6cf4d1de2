/-
# Search requests

What a search asks for, and the query string that says it.  The parameters stand in a fixed
order: keyword, filter expression, facets, fields to return, page size, offset, order.  A raw
query takes the place of keyword and filter.
-/
import DocSearch.Filter.Expression
import DocSearch.Request.Facet
import DocSearch.Request.Order

namespace DocSearch

/-- A search request. -/
structure Search where
  keyword : Option String
  filter : Filter
  facets : List Facet
  /-- The fields to return. -/
  fields : List String
  /-- How many hits to skip. -/
  start : UInt32
  /-- How many hits to return. -/
  size : Option UInt32
  order : Option Order
  /-- A ready query that replaces keyword and filter. -/
  raw : Option String
deriving DecidableEq, Repr

namespace Search

/-- The search for everything that returns the given fields. -/
def returning (fields : List String) : Search where
  keyword := none
  filter := .empty
  facets := []
  fields := fields
  start := 0
  size := none
  order := none
  raw := none

/-- The search with further conditions after its own. -/
def restrictedTo (conditions : List Condition) (s : Search) : Search :=
  { s with filter := s.filter.append conditions }

/-! ## 1. Single parameters -/

/-- The keyword, unless it is missing or empty. -/
def keywordParam : Option String → Option String
  | none => none
  | some keyword => if keyword.isEmpty then none else some ("q=" ++ Text.escape keyword)

/-- The filter expression, unless there is none. -/
def filterParam (f : Filter) : Option String := f.compile.map fun expression => "bq=" ++ expression

/-- The characters of a raw query without blanks, then question marks in front, then ampersands
at both ends. -/
def trimRaw (cs : List Char) : List Char :=
  Text.trimWhere (fun c => decide (c = '&'))
    ((Text.trimWhere Text.isBlank cs).dropWhile fun c => decide (c = '?'))

/-- The raw query, unless nothing is left of it. -/
def rawParam (raw : String) : Option String :=
  let trimmed := String.ofList (trimRaw raw.toList)
  if trimmed.isEmpty then none else some trimmed

/-- The parameters of one facet besides its name. -/
def facetDetails (f : Facet) : List String :=
  let about := "facet-" ++ Text.escape f.name
  (f.top.map fun n => about ++ "-top-n=" ++ Decimal.ofNat n.toNat).toList ++
    ((f.constraint.bind FacetConstraint.text).map fun text =>
      about ++ "-constraints=" ++ text).toList

/-- The names of the facets and what each asks for; facets without a name are left out. -/
def facetParams (facets : List Facet) : List String :=
  match facets.filter fun f => !f.name.isEmpty with
  | [] => []
  | named =>
    ("facet=" ++ String.intercalate "," (named.map fun f => Text.escape f.name)) ::
      named.flatMap facetDetails

/-- The fields to return, unless there are none. -/
def fieldsParam : List String → Option String
  | [] => none
  | fields => some ("return-fields=" ++ String.intercalate "%2C" (fields.map Text.escape))

/-- The order. -/
def rankParam (o : Order) : String := "rank=" ++ o.rank

/-! ## 2. The query string -/

/-- The parameters that say which documents are wanted. -/
def selection (s : Search) : List String :=
  match s.raw with
  | some raw => (rawParam raw).toList
  | none => (keywordParam s.keyword).toList ++ (filterParam s.filter).toList

/-- The parameters of a search, in order. -/
def parameters (s : Search) : List String :=
  s.selection ++ facetParams s.facets ++ (fieldsParam s.fields).toList ++
    (s.size.map fun n => "size=" ++ Decimal.ofNat n.toNat).toList ++
    ["start=" ++ Decimal.ofNat s.start.toNat] ++ (s.order.map rankParam).toList

/-- The query string of a search. -/
def queryString (s : Search) : String := String.intercalate "&" s.parameters

/-- The URL of a search at the given address. -/
def url (address : String) (s : Search) : String := address ++ "?" ++ s.queryString

end Search
end DocSearch
