/-
# Searches on the command line

The options of a search, and the search they ask for.  Each filter is a field and a value on the
two sides of the first equals sign; the filters become conditions in a fixed order: texts that
have to match, texts of which one has to match, then integers.  The first filter in that order
that cannot be read is the failure.  Main statement: `splitFilter_eq_ok_iff`.
-/
import DocSearch.Failure
import DocSearch.Request.Search

namespace DocSearch

/-- The options of a search as they stand on the command line. -/
structure SearchOptions where
  keyword : Option String
  /-- Texts that have to match, as field and value. -/
  required : List String
  /-- Texts of which one has to match. -/
  alternatives : List String
  /-- Integers or ranges, as field and value. -/
  integers : List String
  /-- Names of the facets to count. -/
  facets : List String
  /-- Names of the fields to return. -/
  fields : List String
  size : Option UInt32
  start : UInt32
  rank : Option String
  /-- A ready query that replaces keyword and filters. -/
  raw : Option String
deriving DecidableEq, Repr

/-! ## 1. Filters -/

/-- Why a filter cannot be read. -/
inductive FilterFault where
  /-- There is no equals sign, or no field before it. -/
  | noField (filter : String)
  | badInteger (filter : String) (fault : Decimal.Fault)
  | badRange (fault : Range.Fault)
deriving DecidableEq, Repr

/-- The failure of a filter that cannot be read. -/
def FilterFault.failure : FilterFault → Failure
  | .noField filter => ⟨.other, "Invalid filter '" ++ filter ++ "': expected FIELD=VALUE"⟩
  | .badInteger filter fault =>
    ⟨.other, "Invalid integer in '" ++ filter ++ "': " ++ fault.message⟩
  | .badRange fault => .ofRange fault

/-- The field and the value of a filter, blanks around the field ignored. -/
def splitFilter (filter : String) : Except FilterFault (String × String) :=
  match Text.splitOnce ['='] filter.toList with
  | none => .error (.noField filter)
  | some (field, value) =>
    let field := Text.trimWhere Text.isBlank field
    if field.isEmpty then .error (.noField filter)
    else .ok (String.ofList field, String.ofList value)

/-- The text condition of a filter. -/
def textCondition (flags : Flags) (filter : String) : Except FilterFault Condition :=
  (splitFilter filter).map fun sides => .text (some sides.1) sides.2 flags

/-- The value of an integer filter: a range when it has two dots, else an integer. -/
def integerValue (filter value : String) : Except FilterFault IntValue :=
  if (Text.splitOnce ['.', '.'] value.toList).isSome then
    ((Range.ofText value).map IntValue.range).mapError .badRange
  else ((Decimal.readInt64 (Text.trim value)).map IntValue.exact).mapError (.badInteger filter)

/-- The integer condition of a filter. -/
def integerCondition (filter : String) : Except FilterFault Condition :=
  (splitFilter filter).bind fun sides =>
    (integerValue filter sides.2).map fun value => .int sides.1 value .alternative

/-- A filter is read exactly when it has an equals sign and something but blanks before it. -/
theorem splitFilter_eq_ok_iff {filter field value : String} :
    splitFilter filter = .ok (field, value) ↔
      ∃ before after, Text.splitOnce ['='] filter.toList = some (before, after) ∧
        Text.trimWhere Text.isBlank before ≠ [] ∧
        field = String.ofList (Text.trimWhere Text.isBlank before) ∧
        value = String.ofList after := by
  unfold splitFilter
  cases Text.splitOnce ['='] filter.toList with
  | none => simp
  | some sides =>
    obtain ⟨before, after⟩ := sides
    by_cases he : Text.trimWhere Text.isBlank before = []
    · simp [he]
    · simp only [List.isEmpty_iff, he, if_false, Except.ok.injEq, Prod.mk.injEq,
        Option.some.injEq]
      constructor
      · rintro ⟨hf, hv⟩
        exact ⟨before, after, ⟨rfl, rfl⟩, he, hf.symm, hv.symm⟩
      · rintro ⟨b, a, ⟨hb, ha⟩, -, hf, hv⟩
        exact ⟨hb ▸ hf.symm, ha ▸ hv.symm⟩

namespace SearchOptions

/-! ## 2. The search -/

/-- The options when none is given. -/
def none : SearchOptions := ⟨.none, [], [], [], [], [], .none, 0, .none, .none⟩

/-- The conditions that the filters ask for. -/
def conditions (o : SearchOptions) : Except FilterFault (List Condition) := do
  let required ← o.required.mapM (textCondition .conjunct)
  let alternatives ← o.alternatives.mapM (textCondition .alternative)
  let integers ← o.integers.mapM integerCondition
  return required ++ alternatives ++ integers

/-- The search that the options ask for.  Fields named on the command line are returned instead
of those in `fields`. -/
def toSearch (fields : List String) (o : SearchOptions) : Except FilterFault Search :=
  o.conditions.map fun conditions =>
    { keyword := o.keyword
      filter := ⟨conditions⟩
      facets := o.facets.map fun name => ⟨name, .none, .none⟩
      fields := if o.fields.isEmpty then fields else o.fields
      start := o.start
      size := o.size
      order := o.rank.map Order.ofText
      raw := o.raw }

end SearchOptions
end DocSearch
