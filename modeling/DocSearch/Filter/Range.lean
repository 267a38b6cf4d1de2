/-
# Integer ranges

A range is written `from..to`, and one of the two bounds may be absent but not both; the type
holds that rule.  In JSON a range is a record of its bounds.  Main statement: `ofBounds_eq_ok_iff`.
-/
import DocSearch.Text.Blank
import DocSearch.Text.Decimal
import DocSearch.Json.Record

namespace DocSearch

/-- An interval of integers that is open on at most one side.  The bounds may be out of order,
and then no integer lies between them. -/
structure Range where
  lower : Option Int64
  upper : Option Int64
  bounded : lower.isSome ∨ upper.isSome
deriving DecidableEq, Repr

namespace Range

/-! ## 1. Construction -/

/-- Why something is not a range. -/
inductive Fault where
  /-- Both bounds are absent. -/
  | unbounded
  /-- The text has no two dots. -/
  | noDots (text : String)
  /-- A bound is not a 64-bit integer. -/
  | badBound (bound : String) (fault : Decimal.Fault)
deriving DecidableEq, Repr

/-- The wording of a fault. -/
def Fault.message : Fault → String
  | .unbounded => "at least one of from/to must be set"
  | .noDots text => "missing '..' in '" ++ text ++ "'"
  | .badBound bound fault => "'" ++ bound ++ "': " ++ fault.message

/-- The range with the given bounds. -/
def ofBounds (lower upper : Option Int64) : Except Fault Range :=
  if h : lower.isSome ∨ upper.isSome then .ok ⟨lower, upper, h⟩ else .error .unbounded

/-- The range `from..to`. -/
def between (lower upper : Int64) : Range := ⟨some lower, some upper, .inl rfl⟩

/-- The range `from..`. -/
def atLeast (lower : Int64) : Range := ⟨some lower, none, .inl rfl⟩

/-- The range `..to`. -/
def atMost (upper : Int64) : Range := ⟨none, some upper, .inr rfl⟩

theorem ofBounds_eq_ok_iff {lower upper : Option Int64} {r : Range} :
    ofBounds lower upper = .ok r ↔ r.lower = lower ∧ r.upper = upper := by
  obtain ⟨l, u, h⟩ := r
  unfold ofBounds
  split <;> grind

/-! ## 2. Text -/

/-- A bound in decimal, or nothing. -/
def boundText : Option Int64 → String
  | none => ""
  | some n => Decimal.ofInt n.toInt

/-- The range as `from..to`. -/
def text (r : Range) : String :=
  boundText r.lower ++ ".." ++ boundText r.upper

/-- Reads one bound, blanks around it ignored; a blank text is an absent bound. -/
def readBound (cs : List Char) : Except Fault (Option Int64) :=
  let bound := String.ofList (Text.trimWhere Text.isBlank cs)
  if bound.isEmpty then .ok none
  else
    match Decimal.readInt64 bound with
    | .ok n => .ok (some n)
    | .error fault => .error (.badBound bound fault)

/-- Reads `from..to`, `from..` or `..to`, split at the first two dots. -/
def ofText (s : String) : Except Fault Range :=
  match Text.splitOnce ['.', '.'] s.toList with
  | none => .error (.noDots s)
  | some (lower, upper) => do
    let lower ← readBound lower
    let upper ← readBound upper
    ofBounds lower upper

/-! ## 3. JSON -/

/-- The record of the bounds that are present. -/
def toJson (r : Range) : Json :=
  .obj ((r.lower.map fun n => ("from", Json.int n.toInt)).toList ++
    (r.upper.map fun n => ("to", Json.int n.toInt)).toList)

/-- Reads a record of two bounds, either of which may be `null` or not given. -/
def ofJson (j : Json) : Option Range := do
  let given ← j.fields? .json ["from", "to"]
  let lower ← Json.optional (Json.nullable? Json.int64?) none "from" given
  let upper ← Json.optional (Json.nullable? Json.int64?) none "to" given
  (ofBounds lower upper).toOption

end Range
end DocSearch
