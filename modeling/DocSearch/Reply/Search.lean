/-
# Search results

The answer to a search is a JSON object.  Each part of the result is read from its own keys: one
that is missing or malformed is left empty and spoils no other part.  Facets are read together:
one malformed facet empties the whole list.  When the service reports an error, the result holds
its text and no hits.  Main statements: `hits_ofEnvelope_of_error`,
`ofBody_of_parse`, `exists_ofBody_eq_error`.
-/
import DocSearch.Document.Basic
import DocSearch.Json.Reader
import DocSearch.Failure

namespace DocSearch

/-! ## 1. Parts of a result -/

/-- A document that was found. -/
@[ext] structure Hit (s : Schema) where
  id : String
  document : Document s

/-- A value of a facet, and how many documents carry it. -/
structure FacetCount where
  value : String
  count : UInt64
deriving DecidableEq, Repr

/-- What was counted for one facet. -/
structure FacetResult where
  name : String
  constraints : List FacetCount
deriving DecidableEq, Repr

/-- The name of a request and the time it took. -/
structure Timing where
  rid : String
  time : UInt64
  cpuTime : UInt64
deriving DecidableEq, Repr

/-- A remark of the service. -/
structure Remark where
  severity : String
  code : String
  text : String
deriving DecidableEq, Repr

/-- The outcome of a search. -/
structure SearchResult (s : Schema) where
  /-- Whether the search failed, or the service reported an error. -/
  isError : Bool
  /-- The text of the error, if there was one. -/
  error : Option String
  rank : Option String
  matchExpr : Option String
  /-- How many documents match. -/
  found : UInt64
  /-- How many of them were skipped. -/
  start : UInt64
  hits : List (Hit s)
  facets : List FacetResult
  timing : Option Timing
  remarks : List Remark

namespace FacetCount

/-- Reads the value of a facet: a string as it is, `null` as the empty string, anything else as
its JSON text. -/
def valueOfJson (j : Json) : Option String :=
  match j.settle with
  | none => none
  | some (.str s) => some s
  | some .null => some ""
  | some j => some j.compact

/-- The record of a count. -/
def toJson (c : FacetCount) : Json :=
  .obj [("value", .str c.value), ("count", .int c.count.toNat)]

/-- Reads the record of a count. -/
def ofJson (d : Json.Dialect) (j : Json) : Option FacetCount := do
  let given ← j.fields? d ["value", "count"]
  let value ← Json.required valueOfJson "value" given
  let count ← Json.optional Json.uint64? 0 "count" given
  some ⟨value, count⟩

end FacetCount

namespace FacetResult

/-- The record of a facet result. -/
def toJson (r : FacetResult) : Json :=
  .obj [("name", .str r.name), ("constraints", .arr (r.constraints.map FacetCount.toJson))]

/-- Reads the record of a facet result. -/
def ofJson (d : Json.Dialect) (j : Json) : Option FacetResult := do
  let given ← j.fields? d ["name", "constraints"]
  let name ← Json.required Json.string? "name" given
  let constraints ← Json.required (Json.listOf? (FacetCount.ofJson d)) "constraints" given
  some ⟨name, constraints⟩

/-- Reads the body of one facet of a response; it may leave the counts out. -/
def ofBody (member : String × Json) : Option FacetResult := do
  let given ← member.2.fields? .json ["constraints"]
  let constraints ← Json.optional (Json.listOf? (FacetCount.ofJson .json)) [] "constraints" given
  some ⟨member.1, constraints⟩

/-- The facets of a response, in order; none if one of them is malformed. -/
def readAll : Option Json → List FacetResult
  | some (.obj members) => (members.mapM ofBody).getD []
  | _ => []

end FacetResult

namespace Timing

/-- The timing that says nothing. -/
def blank : Timing := ⟨"", 0, 0⟩

/-- The record of a timing. -/
def toJson (t : Timing) : Json :=
  .obj [("rid", .str t.rid), ("time-ms", .int t.time.toNat), ("cpu-time-ms", .int t.cpuTime.toNat)]

/-- Reads the record of a timing; every field may be left out. -/
def ofJson (j : Json) : Option Timing := do
  let given ← j.fields? .json ["rid", "time-ms", "cpu-time-ms"]
  let rid ← Json.optional Json.string? "" "rid" given
  let time ← Json.optional Json.uint64? 0 "time-ms" given
  let cpuTime ← Json.optional Json.uint64? 0 "cpu-time-ms" given
  some ⟨rid, time, cpuTime⟩

end Timing

namespace Remark

/-- The record of a remark. -/
def toJson (r : Remark) : Json :=
  .obj [("severity", .str r.severity), ("code", .str r.code), ("message", .str r.text)]

/-- Reads the record of a remark; every field may be left out. -/
def ofJson (j : Json) : Option Remark := do
  let given ← j.fields? .json ["severity", "code", "message"]
  let severity ← Json.optional Json.string? "" "severity" given
  let code ← Json.optional Json.string? "" "code" given
  let text ← Json.optional Json.string? "" "message" given
  some ⟨severity, code, text⟩

end Remark

/-! ## 2. Hits -/

namespace Hit

variable {s : Schema}

/-- The identifier of an item of the hit list: a string or a number, and otherwise empty. -/
def idOf (item : Json) : String :=
  match item.get? "id" with
  | some (.str id) => id
  | some (.int n) => Decimal.ofInt n
  | some (.float x) => Json.ofDouble x
  | _ => ""

/-- The strings of an item of the hit list. -/
def wireOf (item : Json) : WireFields :=
  match item.get? "data" with
  | some data => WireFields.ofJson data
  | none => []

/-- The hit of an item of the hit list; every item is a hit. -/
def ofItem (item : Json) : Hit s := ⟨idOf item, Document.ofHit (idOf item) (wireOf item)⟩

/-- The hits of a hit list. -/
def readAll : Option Json → List (Hit s)
  | some (.arr items) => items.map ofItem
  | _ => []

end Hit

/-! ## 3. Results -/

namespace SearchResult

variable {s : Schema}

/-- The result of nothing found. -/
def blank : SearchResult s := ⟨false, none, none, none, 0, 0, [], [], none, []⟩

/-- The result of a search that failed before there was an answer to read. -/
def failed (text : String) : SearchResult s := { blank with isError := true, error := some text }

/-- What was counted for the facet with the name. -/
def facet? (name : String) (r : SearchResult s) : Option (List FacetCount) :=
  (r.facets.find? fun facet => facet.name == name).map FacetResult.constraints

/-- The documents of the hits. -/
def documents (r : SearchResult s) : List (Document s) := r.hits.map Hit.document

/-- The part of an answer under a key, if it is there, not `null`, and well formed. -/
def part? {α : Type} (f : Json → Option α) (name : String) (envelope : Json) : Option α :=
  match envelope.get? name with
  | none => none
  | some .null => none
  | some j => f j

/-- A number under a key of the part that holds the hits. -/
def hitNumber (name : String) (envelope : Json) : UInt64 :=
  (((envelope.get? "hits").bind (Json.get? name)).bind Json.uint64?).getD 0

/-- The remarks of an answer. -/
def remarksOf (envelope : Json) : List Remark :=
  (part? (Json.listOf? Remark.ofJson) "messages" envelope).getD []

/-- The timing of an answer: its own part, or else keys at the top of the answer. -/
def timingOf (envelope : Json) : Option Timing :=
  match part? Timing.ofJson "info" envelope with
  | some timing => some timing
  | none =>
    if ["rid", "time-ms", "cpu-time-ms"].any fun key => (envelope.get? key).isSome then
      some ((Timing.ofJson envelope).getD .blank)
    else none

/-- The error that an answer reports: its `error`, or with the status `error` the first remark. -/
def errorOf (envelope : Json) : Option String :=
  match part? some "error" envelope with
  | some (.str text) => some text
  | some j => some j.compact
  | none =>
    match envelope.get? "status" with
    | some (.str "error") =>
      some ((((remarksOf envelope).head?).map Remark.text).getD "unknown error")
    | _ => none

/-- The result that an answer holds. -/
def ofEnvelope (envelope : Json) : SearchResult s where
  isError := (errorOf envelope).isSome
  error := errorOf envelope
  rank := part? Json.string? "rank" envelope
  matchExpr := part? Json.string? "match-expr" envelope
  found := hitNumber "found" envelope
  start := hitNumber "start" envelope
  hits :=
    if (errorOf envelope).isSome then []
    else Hit.readAll ((envelope.get? "hits").bind (Json.get? "hit"))
  facets := FacetResult.readAll (envelope.get? "facets")
  timing := timingOf envelope
  remarks := remarksOf envelope

/-- Reads the body of an answer, which has to be a JSON object. -/
def ofBody (body : String) : Except Failure (SearchResult s) :=
  match Json.read body with
  | .error fault => .error ⟨.malformedResponse, fault.message body⟩
  | .ok j =>
    match j.settle with
    | some (.obj members) => .ok (ofEnvelope (.obj members))
    | some _ => .error ⟨.malformedResponse, "response is not a JSON object"⟩
    | none => .error ⟨.malformedResponse, "unexpected value"⟩

theorem ofBody_of_parse {body : String} {members : List (String × Json)}
    (h : Json.parse body = some (.obj members)) :
    ofBody body = .ok (ofEnvelope (.obj members) : SearchResult s) := by
  obtain ⟨j, hread, hsettle⟩ := Option.bind_eq_some_iff.mp h
  cases hbody : Json.read body with
  | error fault =>
    rw [hbody] at hread
    cases hread
  | ok given =>
    rw [hbody] at hread
    cases hread
    simp only [ofBody, hbody, hsettle]

/-- A body that is no JSON object gives no result. -/
theorem exists_ofBody_eq_error {body : String}
    (h : ∀ members, Json.parse body ≠ some (.obj members)) :
    ∃ detail, (ofBody body : Except Failure (SearchResult s)) =
      .error ⟨.malformedResponse, detail⟩ := by
  cases hbody : Json.read body with
  | error fault => exact ⟨fault.message body, by rw [ofBody, hbody]⟩
  | ok j =>
    have hparse : Json.parse body = j.settle := by simp [Json.parse, hbody, Except.toOption]
    cases hsettle : j.settle with
    | none => exact ⟨"unexpected value", by simp only [ofBody, hbody, hsettle]⟩
    | some value =>
      cases value with
      | obj members => exact absurd (hparse.trans hsettle) (h members)
      | _ => exact ⟨"response is not a JSON object", by simp only [ofBody, hbody, hsettle]⟩

/-- A result with an error has no hits. -/
theorem hits_ofEnvelope_of_error {envelope : Json}
    (h : (ofEnvelope envelope : SearchResult s).isError = true) :
    (ofEnvelope envelope : SearchResult s).hits = [] := by
  have h' : (errorOf envelope).isSome = true := h
  simp [ofEnvelope, h']

end SearchResult
end DocSearch
