/-
# Failures

What can go wrong between a request and its result, as a kind and a detail.  The kind decides
the wording in front of the detail, the exit code of the command line, and whether the failure
happened before the service had answered.
-/
import DocSearch.Filter.Range
import DocSearch.Json.Fault

namespace DocSearch

/-- The kinds of failures. -/
inductive FailureKind where
  /-- A text or record is not an integer range. -/
  | invalidRange
  /-- The settings cannot be used. -/
  | config
  /-- The request could not be made. -/
  | http
  /-- The service answered with nothing. -/
  | emptyResponse
  /-- The service reported an error. -/
  | service
  /-- The answer is not a search response. -/
  | malformedResponse
  /-- Input or output failed. -/
  | io
  /-- A text or value is not the JSON that was expected. -/
  | json
  /-- A value has no YAML form. -/
  | yaml
  /-- A text is not the TOML that was expected. -/
  | tomlParse
  /-- A value has no TOML form. -/
  | tomlSerialize
  /-- Anything else. -/
  | other
deriving DecidableEq, Repr

/-- A failure. -/
structure Failure where
  kind : FailureKind
  detail : String
deriving DecidableEq, Repr

/-- What stands before the detail of a failure. -/
def FailureKind.heading : FailureKind → String
  | .invalidRange => "Invalid range: "
  | .config => "Config error: "
  | .http => "HTTP request failed: "
  | .emptyResponse => "Empty response from "
  | .service => "Service error: "
  | .malformedResponse => "Malformed response: "
  | .io => "IO error: "
  | .json => "JSON error: "
  | .yaml => "YAML error: "
  | .tomlParse => "TOML parse error: "
  | .tomlSerialize => "TOML serialize error: "
  | .other => ""

/-- The exit code of a command that ends in a failure of the kind. -/
def FailureKind.exitCode : FailureKind → Nat
  | .config => 2
  | .tomlParse => 2
  | .http => 3
  | .emptyResponse => 3
  | .service => 4
  | .malformedResponse => 4
  | _ => 1

/-- Whether a failure of the kind happened before the service had answered. -/
def FailureKind.isTransport : FailureKind → Bool
  | .http => true
  | .emptyResponse => true
  | _ => false

namespace Failure

/-- The wording of a failure. -/
def message (f : Failure) : String := f.kind.heading ++ f.detail

/-- The exit code of a command that ends in the failure. -/
def exitCode (f : Failure) : Nat := f.kind.exitCode

/-- Whether the failure happened before the service had answered. -/
def isTransport (f : Failure) : Bool := f.kind.isTransport

/-- The failure of a text that is no range. -/
def ofRange (fault : Range.Fault) : Failure := ⟨.invalidRange, fault.message⟩

/-- The failure of a text that is no JSON. -/
def ofJson (text : String) (fault : Json.Fault) : Failure := ⟨.json, fault.message text⟩

/-- The failure of a value that is not the expected record. -/
def unexpectedJson : Failure := ⟨.json, "unexpected value"⟩

end Failure
end DocSearch
