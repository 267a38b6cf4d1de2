/-
# Output formats

A value is shown as indented JSON, as YAML or as TOML.  A record whose parts may be absent holds
`null` for such a part; in TOML, which has no null, the part is left out.
-/
import DocSearch.Failure
import DocSearch.Json.Writer
import DocSearch.Toml.Writer
import DocSearch.Yaml.Writer

namespace DocSearch

/-- The formats in which results are shown. -/
inductive Format where
  | json
  | yaml
  | toml
deriving DecidableEq, Repr

namespace Json

mutual

/-- A value without the members that are null. -/
def present : Json → Json
  | .arr items => .arr (presentItems items)
  | .obj members => .obj (presentMembers members)
  | j => j

/-- Items without the members in them that are null. -/
def presentItems : List Json → List Json
  | [] => []
  | item :: items => present item :: presentItems items

/-- Members without those that are null, here and further in. -/
def presentMembers : List (String × Json) → List (String × Json)
  | [] => []
  | member :: members =>
    if member.2.isNull then presentMembers members
    else (member.1, present member.2) :: presentMembers members

end

end Json

namespace Format

/-- A value in a format. -/
def render : Format → Json → Except Failure String
  | .json, j => .ok (j.pretty 0)
  | .yaml, j => .ok (Yaml.write j)
  | .toml, j => (Toml.write j).mapError fun fault => ⟨.tomlSerialize, fault.message⟩

/-- A record in a format, its absent parts left out where they cannot be written. -/
def renderRecord : Format → Json → Except Failure String
  | .toml, j => render .toml j.present
  | format, j => render format j

end Format
end DocSearch
