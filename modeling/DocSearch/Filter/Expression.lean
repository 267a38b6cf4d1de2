/-
# The filter expression

A filter is a list of conditions.  It compiles to at most two clauses, joined by `+`: one for
the conditions that must all hold, one for the alternatives.

    to hold [A1, A2]             (and+A1+A2)
    alternatives [O1]            (or+O1)
    alternatives [O1, O2, ...]   (and+(or+O1)+(or+O2)+...)

Conditions that render nothing are dropped before they are counted; a filter of which nothing is
left has no expression.  Main statement: `compile_eq_none_iff`.
-/
import DocSearch.Filter.Condition.Json

namespace DocSearch

/-- The conditions of a search, in order. -/
structure Filter where
  conditions : List Condition
deriving DecidableEq, Repr

namespace Filter

/-- The filter without conditions. -/
def empty : Filter := ⟨[]⟩

/-- The filter with further conditions after its own. -/
def append (f : Filter) (conditions : List Condition) : Filter := ⟨f.conditions ++ conditions⟩

/-! ## 1. Buckets -/

/-- The fragments of a filter by bucket, in order. -/
structure Buckets where
  /-- Fragments that must all hold. -/
  and : List String
  /-- Fragments that are alternatives. -/
  or : List String
deriving DecidableEq, Repr

/-- The fragments of the conditions in one bucket, without those that render nothing. -/
def fragmentsIn (bucket : Conjunction) (conditions : List Condition) : List String :=
  ((conditions.filter fun c => decide (c.conjunction = bucket)).map Condition.fragment).filter
    fun fragment => !fragment.isEmpty

/-- The fragments of a filter, by bucket. -/
def buckets (f : Filter) : Buckets :=
  ⟨fragmentsIn .and f.conditions, fragmentsIn .or f.conditions⟩

/-! ## 2. Clauses -/

/-- The clause of the fragments that must all hold. -/
def andClause : List String → Option String
  | [] => none
  | fragments => some (Condition.operation "and" fragments)

/-- The clause of the alternatives; several are each wrapped. -/
def orClause : List String → Option String
  | [] => none
  | [fragment] => some (Condition.operation "or" [fragment])
  | fragments =>
    some (Condition.operation "and" (fragments.map fun fragment =>
      Condition.operation "or" [fragment]))

/-- The expression of a filter, if it has one. -/
def compile (f : Filter) : Option String :=
  let clauses := (andClause f.buckets.and).toList ++ (orClause f.buckets.or).toList
  if clauses.isEmpty then none else some (String.intercalate "+" clauses)

@[simp] theorem andClause_eq_none {fragments : List String} :
    andClause fragments = none ↔ fragments = [] := by
  cases fragments <;> simp [andClause]

@[simp] theorem orClause_eq_none {fragments : List String} :
    orClause fragments = none ↔ fragments = [] := by
  match fragments with
  | [] => simp [orClause]
  | [_] => simp [orClause]
  | _ :: _ :: _ => simp [orClause]

/-- A filter has no expression exactly when nothing of it is left. -/
theorem compile_eq_none_iff {f : Filter} :
    f.compile = none ↔ f.buckets.and = [] ∧ f.buckets.or = [] := by
  rw [← @andClause_eq_none f.buckets.and, ← @orClause_eq_none f.buckets.or, compile]
  cases andClause f.buckets.and <;> cases orClause f.buckets.or <;> simp

/-! ## 3. JSON -/

/-- The record of the conditions. -/
def toJson (f : Filter) : Json := .obj [("conditions", .arr (f.conditions.map Condition.toJson))]

/-- Reads the record of the conditions. -/
def ofJson (d : Json.Dialect) (j : Json) : Option Filter := do
  let given ← j.fields? d ["conditions"]
  let conditions ← Json.required (Json.listOf? (Condition.ofJson d)) "conditions" given
  some ⟨conditions⟩

end Filter
end DocSearch
