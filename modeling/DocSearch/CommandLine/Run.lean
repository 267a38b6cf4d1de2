/-
# Running commands

What a command sends, shows and answers.  A run has two streams of text, one for results and one
for remarks, and an outcome: how the command ended, or the failure that ended it.  The commands
are exchanges, so that nothing but the service is left open.  The program as a whole loads the
settings, lets the command line replace the domain, and refuses to work on settings that name no
domain; only showing the settings needs none.
Main statement: `execute_eq_failed` (what keeps a command from running).
-/
import DocSearch.Client
import DocSearch.CommandLine.Invocation
import DocSearch.Settings.File

namespace DocSearch

/-- How a command ended that did not fail. -/
inductive ExitStatus where
  | success
  /-- The service rejected the request. -/
  | rejected
  /-- The program stopped before there was a result. -/
  | stopped
deriving DecidableEq, Repr

/-- The exit code of a status. -/
def ExitStatus.code : ExitStatus → Nat
  | .success => 0
  | .rejected => 4
  | .stopped => 101

/-- What a run has shown and how it ended. -/
structure Run where
  ending : Except Failure ExitStatus
  /-- The text of results. -/
  out : String
  /-- The text of remarks. -/
  notes : String

namespace Run

/-- A run that failed after some remarks. -/
def failed (notes : String) (f : Failure) : Run := ⟨.error f, "", notes⟩

/-- A run that shows a text on a line of its own, or fails to make it. -/
def showing (notes : String) (status : ExitStatus) : Except Failure String → Run
  | .ok text => ⟨.ok status, text ++ "\n", notes⟩
  | .error f => .failed notes f

/-- The exit code of the program. -/
def exitCode (r : Run) : Nat :=
  match r.ending with
  | .ok status => status.code
  | .error f => f.exitCode

/-- The line that reports a failure, unless silence was asked for. -/
def errorLine (quiet : Bool) (r : Run) : String :=
  match r.ending with
  | .ok _ => ""
  | .error f => if quiet then "" else "Error: " ++ f.message ++ "\n"

end Run

/-! ## 1. What is shown -/

/-- The documents of the command line have no fields: hits are told apart by identifier. -/
def hitSchema : Schema := { fields := [] }

/-- A line of warning. -/
def warning (text : String) : String := "Warning: " ++ text ++ "\n"

namespace SearchResult

/-- The remarks on a result: that nothing matched, unless silence was asked for, and what the
service remarked. -/
def notes (quiet : Bool) (r : SearchResult hitSchema) : String :=
  (if r.found = 0 && !quiet then "No documents matched.\n" else "") ++
    String.join (r.remarks.map fun remark =>
      warning ("[" ++ remark.severity ++ "] " ++ remark.code ++ ": " ++ remark.text))

/-- A list member that is left out when the list is empty. -/
def listMember (name : String) (items : List Json) : List (String × Json) :=
  if items.isEmpty then [] else [(name, .arr items)]

/-- The record of a result. -/
def toRecord (r : SearchResult hitSchema) : Json :=
  .obj
    ([("found", .int r.found.toNat), ("start", .int r.start.toNat),
      ("ids", .arr (r.hits.map fun hit => .str hit.id))] ++
    listMember "facets" (r.facets.map FacetResult.toJson) ++
    (r.rank.map fun rank => ("rank", Json.str rank)).toList ++
    listMember "messages" (r.remarks.map Remark.toJson))

end SearchResult

namespace BatchResult

/-- How the deletion of a document ended. -/
def exitStatus (r : BatchResult) : ExitStatus := if r.isError then .rejected else .success

/-- The remarks on the deletion of a document. -/
def notes (id : String) (r : BatchResult) : String :=
  if r.isError then warning ("delete of " ++ id ++ " failed: " ++ r.summary) else ""

/-- The record of the deletion of a document. -/
def toRecord (id : String) (r : BatchResult) : Json :=
  .obj
    ([("id", .str id), ("status", .str r.status), ("deletes", .int r.deletes.toNat)] ++
    SearchResult.listMember "errors" (r.errors.map errorToJson))

end BatchResult

/-! ## 2. Commands -/

namespace Invocation

/-- The search that options ask for. -/
def searchOf (options : SearchOptions) : Except Failure Search :=
  (options.toSearch hitSchema.names).mapError FilterFault.failure

/-- Shows the URL of a search. -/
def showUrl (i : Invocation) (st : Settings) (options : SearchOptions) : Run :=
  match searchOf options with
  | .error f => .failed "" f
  | .ok q => .showing "" .success (i.format.render (.obj [("url", .str (st.searchUrl q))]))

/-- Shows the result of a search. -/
def showResult (i : Invocation) : Except Failure (SearchResult hitSchema) → Run
  | .error f => .failed "" f
  | .ok r => .showing (r.notes i.quiet) .success (i.format.render r.toRecord)

/-- Searches and shows the result. -/
def search (i : Invocation) (st : Settings) (options : SearchOptions) : Exchange Run :=
  match searchOf options with
  | .error f => return .failed "" f
  | .ok q => do
    let outcome ← Client.trySearch st q
    return i.showResult outcome

/-- Shows the result of a deletion, unless the program stopped before there was one. -/
def showDeletion (i : Invocation) (id : String) : Option BatchResult → Run
  | none => ⟨.ok .stopped, "", ""⟩
  | some r => .showing (r.notes id) r.exitStatus (i.format.render (r.toRecord id))

/-- Deletes a document and shows the result. -/
def delete (i : Invocation) (st : Settings) (version : Int64) (id : String) : Exchange Run := do
  let outcome ← Client.deleteAll st version [id]
  return i.showDeletion id outcome

/-- Carries out the command with the given settings.  The version is that of deleted documents. -/
def perform (i : Invocation) (st : Settings) (version : Int64) : Exchange Run :=
  match i.command with
  | .config => return .showing "" .success (i.format.renderRecord st.toJson)
  | .url options => return i.showUrl st options
  | .search options => i.search st options
  | .delete id => i.delete st version id

/-! ## 3. The program -/

/-- Whether the command works on a domain. -/
def needsDomain (i : Invocation) : Bool :=
  match i.command with
  | .config => false
  | _ => true

/-- The settings with what the command line replaces. -/
def adjust (i : Invocation) (st : Settings) : Settings :=
  { st with domain := i.domain.getD st.domain }

/-- The settings that hold for the invocation, if they can be used. -/
def settings (i : Invocation) (standardPath : String) (files : String → FileContent)
    (env : String → Option String) : Except Failure Settings :=
  (Settings.load i.settingsPath standardPath files env).bind fun st =>
    let st := i.adjust st
    if i.needsDomain then (st.checked standardPath).mapError Settings.Fault.failure else .ok st

/-- Runs the program. -/
def execute (i : Invocation) (standardPath : String) (files : String → FileContent)
    (env : String → Option String) (version : Int64) : Exchange Run :=
  match i.settings standardPath files env with
  | .error f => return .failed "" f
  | .ok st => i.perform st version

/-- Settings that cannot be used keep every command from running. -/
theorem execute_eq_failed {i : Invocation} {standardPath : String}
    {files : String → FileContent} {env : String → Option String} {f : Failure}
    (h : i.settings standardPath files env = .error f) (version : Int64) :
    i.execute standardPath files env version = .done (.failed "" f) := by
  simp only [execute, h]
  rfl

end Invocation
end DocSearch
