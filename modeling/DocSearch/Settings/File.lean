/-
# Settings files

Settings are read from a TOML file and then corrected by the environment.  A file that was asked
for has to be there; the file at the standard place may be missing, and then everything is
standard.  What the file system says about a path is an argument, so that loading is a function.
-/
import DocSearch.Settings
import DocSearch.Toml.Reader

namespace DocSearch

/-- What the file system says about a path. -/
inductive FileContent where
  /-- There is no such file. -/
  | absent
  /-- There is something that cannot be read as text. -/
  | unreadable (reason : String)
  | text (s : String)
deriving DecidableEq, Repr

namespace Settings

/-- The reason why a missing file cannot be read. -/
def absentReason : String := "No such file or directory (os error 2)"

/-- The settings that a TOML text holds. -/
def ofToml (text : String) : Except Failure Settings :=
  match Toml.read text with
  | .error fault => .error ⟨.tomlParse, fault.message⟩
  | .ok j =>
    match ofJson .toml j with
    | some st => .ok st
    | none => .error ⟨.tomlParse, Toml.Fault.unexpected.message⟩

/-- The settings in the file at a path. -/
def ofFile (path : String) : FileContent → Except Failure Settings
  | .absent => .error (Fault.unreadable path absentReason).failure
  | .unreadable reason => .error (Fault.unreadable path reason).failure
  | .text text => ofToml text

/-- The settings in the file that was asked for, or in the standard place. -/
def ofFiles (asked : Option String) (standardPath : String) (files : String → FileContent) :
    Except Failure Settings :=
  match asked with
  | some path => ofFile path (files path)
  | none =>
    match files standardPath with
    | .absent => .ok standard
    | content => ofFile standardPath content

/-- The settings of a file, corrected by the environment. -/
def load (asked : Option String) (standardPath : String) (files : String → FileContent)
    (env : String → Option String) : Except Failure Settings :=
  (ofFiles asked standardPath files).map (withEnvironment env)

end Settings
end DocSearch
