/-
# Results of document batches

The service answers a batch with a status, its errors, and how many documents were added and
deleted.  The status `error` of an answer marks its result as an error; the mark is not part of the
record.  Results of several batches merge into one: counts add up, errors are kept in order, and the
status is that of the last error, or else the first that is not empty.  A count has 64 bits.  Where
they have no room for a sum there is no result, and the program stops.
Main statements: `merge_eq_some_iff`, `merge_blank`, `blank_merge`.
-/
import DocSearch.Json.Reader
import DocSearch.Json.Record
import DocSearch.Failure

namespace DocSearch

/-- The outcome of a document batch. -/
@[ext] structure BatchResult where
  /-- Whether the service rejected the batch, or it failed as a whole. -/
  isError : Bool
  status : String
  errors : List String
  adds : UInt64
  deletes : UInt64
deriving DecidableEq, Repr

namespace BatchResult

/-- The result of nothing done. -/
def blank : BatchResult := ⟨false, "", [], 0, 0⟩

/-- The result of a batch that failed as a whole. -/
def failed (text : String) : BatchResult := ⟨true, "error", [text], 0, 0⟩

/-- The result with the mark that its status calls for. -/
def marked (r : BatchResult) : BatchResult := { r with isError := r.status == "error" }

/-- The errors on one line. -/
def summary (r : BatchResult) : String := String.intercalate "; " r.errors

/-! ## 1. JSON -/

/-- The record of an error. -/
def errorToJson (text : String) : Json := .obj [("message", .str text)]

/-- Reads the record of an error, whose text may be left out. -/
def errorOfJson (d : Json.Dialect) (j : Json) : Option String :=
  (j.fields? d ["message"]).bind (Json.optional Json.string? "" "message")

/-- The record of a result. -/
def toJson (r : BatchResult) : Json :=
  .obj [("status", .str r.status), ("errors", .arr (r.errors.map errorToJson)),
    ("adds", .int r.adds.toNat), ("deletes", .int r.deletes.toNat)]

/-- Reads the record of a result, without its mark; every field may be left out. -/
def ofJson (d : Json.Dialect) (j : Json) : Option BatchResult := do
  let given ← j.fields? d ["status", "errors", "adds", "deletes"]
  let status ← Json.optional Json.string? "" "status" given
  let errors ← Json.optional (Json.listOf? (errorOfJson d)) [] "errors" given
  let adds ← Json.optional Json.uint64? 0 "adds" given
  let deletes ← Json.optional Json.uint64? 0 "deletes" given
  some ⟨false, status, errors, adds, deletes⟩

/-- Reads the body of an answer. -/
def ofBody (body : String) : Except Failure BatchResult :=
  match Json.read body with
  | .error fault => .error (.ofJson body fault)
  | .ok j =>
    match ofJson .json j with
    | some r => .ok r.marked
    | none => .error .unexpectedJson

/-! ## 2. Merging -/

/-- The sum of two counts, if 64 bits have room for it. -/
def addCounts (a b : UInt64) : Option UInt64 :=
  if a.toNat + b.toNat < UInt64.size then some (a + b) else none

theorem addCounts_eq_some_iff {a b sum : UInt64} :
    addCounts a b = some sum ↔ sum.toNat = a.toNat + b.toNat := by
  unfold addCounts
  split
  · next hroom =>
    have hadd : (a + b).toNat = a.toNat + b.toNat := by
      rw [UInt64.toNat_add, Nat.mod_eq_of_lt hroom]
    rw [Option.some_inj, ← UInt64.toNat_inj, hadd, eq_comm]
  · next hroom =>
    refine ⟨nofun, fun h => absurd ?_ hroom⟩
    exact h ▸ sum.toNat_lt

/-- The result of a batch, followed by that of a later one.  Without room for a count there is
none, and the program stops. -/
def merge (r later : BatchResult) : Option BatchResult := do
  let adds ← addCounts r.adds later.adds
  let deletes ← addCounts r.deletes later.deletes
  some {
    isError := r.isError || later.isError
    status := if r.status.isEmpty || later.isError then later.status else r.status
    errors := r.errors ++ later.errors
    adds := adds
    deletes := deletes }

/-- The result is that of a batch followed by a later one. -/
structure Merges (r later t : BatchResult) : Prop where
  isError : t.isError = (r.isError || later.isError)
  status : t.status = if r.status.isEmpty || later.isError then later.status else r.status
  errors : t.errors = r.errors ++ later.errors
  adds : t.adds.toNat = r.adds.toNat + later.adds.toNat
  deletes : t.deletes.toNat = r.deletes.toNat + later.deletes.toNat

/-- **Merging is exact or stops.** -/
theorem merge_eq_some_iff {r later t : BatchResult} :
    r.merge later = some t ↔ Merges r later t := by
  simp only [merge, Option.bind_eq_bind, Option.bind_eq_some_iff, addCounts_eq_some_iff]
  constructor
  · rintro ⟨adds, hadds, deletes, hdeletes, h⟩
    cases h
    exact ⟨rfl, rfl, rfl, hadds, hdeletes⟩
  · obtain ⟨isError, status, errors, adds, deletes⟩ := t
    rintro ⟨rfl, rfl, rfl, hadds, hdeletes⟩
    exact ⟨adds, hadds, deletes, hdeletes, rfl⟩

theorem merge_blank (r : BatchResult) : r.merge blank = some r := by
  rw [merge_eq_some_iff]
  refine ⟨(Bool.or_false _).symm, ?_, (List.append_nil _).symm, rfl, rfl⟩
  by_cases h : r.status = "" <;> simp [blank, h]

theorem blank_merge (r : BatchResult) : blank.merge r = some r := by
  rw [merge_eq_some_iff]
  exact ⟨rfl, rfl, rfl, (Nat.zero_add _).symm, (Nat.zero_add _).symm⟩

end BatchResult
end DocSearch
