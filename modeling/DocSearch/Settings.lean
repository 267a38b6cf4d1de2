/-
# Settings of a search domain

Which domain is searched, how it is reached, and which conditions every search carries.  The
addresses of the service follow from them.  Settings can be used when they name a domain and
leave room for a batch.  Main statement: `checked_eq_ok_iff`.
-/
import DocSearch.Filter.Condition.Json
import DocSearch.Failure

namespace DocSearch

/-- The settings of a search domain. -/
structure Settings where
  /-- The name of the domain, as it stands in the names of its hosts. -/
  domain : String
  apiVersion : String
  scheme : String
  /-- How long to wait for an answer. -/
  timeoutSeconds : UInt64
  /-- The greatest length of the text of a batch. -/
  maxBatchBytes : UInt64
  /-- The language of added documents. -/
  lang : String
  /-- Conditions that are added to every search. -/
  conditions : List Condition
deriving DecidableEq, Repr

namespace Settings

/-- The settings that hold where nothing else is set. -/
def standard : Settings where
  domain := ""
  apiVersion := "2011-02-01"
  scheme := "http"
  timeoutSeconds := 30
  maxBatchBytes := 5 * 1024 * 1024
  lang := "en"
  conditions := []

/-- The standard settings of a domain. -/
def ofDomain (domain apiVersion : String) : Settings := { standard with domain, apiVersion }

/-! ## 1. Addresses -/

/-- The address of an endpoint on one of the domain's hosts. -/
def address (st : Settings) (host endpoint : String) : String :=
  st.scheme ++ "://" ++ host ++ "-" ++ st.domain ++ "/" ++ st.apiVersion ++ "/" ++ endpoint

/-- Where searches go. -/
def searchAddress (st : Settings) : String := st.address "search" "search"

/-- Where document batches go. -/
def documentAddress (st : Settings) : String := st.address "doc" "documents/batch"

/-! ## 2. JSON -/

/-- The record of settings. -/
def toJson (st : Settings) : Json :=
  .obj
    [("search_id", .str st.domain), ("api_version", .str st.apiVersion),
     ("scheme", .str st.scheme), ("timeout_secs", .int st.timeoutSeconds.toNat),
     ("max_batch_bytes", .int st.maxBatchBytes.toNat), ("lang", .str st.lang),
     ("persistent_conditions", .arr (st.conditions.map Condition.toJson))]

/-- Reads the record of settings; a field that is left out is standard. -/
def ofJson (d : Json.Dialect) (j : Json) : Option Settings := do
  let given ← j.fields? d
    ["search_id", "api_version", "scheme", "timeout_secs", "max_batch_bytes", "lang",
     "persistent_conditions"]
  let domain ← Json.optional Json.string? standard.domain "search_id" given
  let apiVersion ← Json.optional Json.string? standard.apiVersion "api_version" given
  let scheme ← Json.optional Json.string? standard.scheme "scheme" given
  let timeoutSeconds ← Json.optional Json.uint64? standard.timeoutSeconds "timeout_secs" given
  let maxBatchBytes ← Json.optional Json.uint64? standard.maxBatchBytes "max_batch_bytes" given
  let lang ← Json.optional Json.string? standard.lang "lang" given
  let conditions ← Json.optional (Json.listOf? (Condition.ofJson d)) standard.conditions
    "persistent_conditions" given
  some ⟨domain, apiVersion, scheme, timeoutSeconds, maxBatchBytes, lang, conditions⟩

/-! ## 3. The environment -/

/-- The variable that replaces the domain. -/
def domainVariable : String := "CLOUDSEARCH_ID"

/-- The variable that replaces the version of the interface. -/
def apiVersionVariable : String := "CLOUDSEARCH_API_VERSION"

/-- A variable of the environment, unless it is empty. -/
def setVariable (env : String → Option String) (name : String) : Option String :=
  (env name).filter fun value => !value.isEmpty

/-- The settings with what the environment replaces. -/
def withEnvironment (env : String → Option String) (st : Settings) : Settings :=
  { st with
    domain := (setVariable env domainVariable).getD st.domain
    apiVersion := (setVariable env apiVersionVariable).getD st.apiVersion }

/-! ## 4. Use -/

/-- Why settings cannot be used. -/
inductive Fault where
  /-- No domain is named; the path is where one could be set. -/
  | noDomain (path : String)
  /-- No batch would fit. -/
  | noRoom
  /-- A settings file cannot be read. -/
  | unreadable (path reason : String)
deriving DecidableEq, Repr

/-- The wording of a fault. -/
def Fault.message : Fault → String
  | .noDomain path =>
    "No search domain configured (set search_id in " ++ path ++ " or " ++ domainVariable ++ ")"
  | .noRoom => "max_batch_bytes must be greater than zero"
  | .unreadable path reason => "Failed to read " ++ path ++ ": " ++ reason

/-- The failure of settings that cannot be used. -/
def Fault.failure (fault : Fault) : Failure := ⟨.config, fault.message⟩

/-- The settings, if they can be used. -/
def checked (path : String) (st : Settings) : Except Fault Settings :=
  if Text.isBlankText st.domain then .error (.noDomain path)
  else if st.maxBatchBytes = 0 then .error .noRoom
  else .ok st

/-- Settings can be used when they name a domain and leave room for a batch. -/
theorem checked_eq_ok_iff {path : String} {st used : Settings} :
    st.checked path = .ok used ↔
      st = used ∧ Text.isBlankText st.domain = false ∧ st.maxBatchBytes ≠ 0 := by
  unfold checked
  split
  · simp_all
  · split <;> simp_all

end Settings
end DocSearch
