/-
# Invocations

What a command line asks for: a command, and the options that concern the whole program.  An
option of the whole program that stands on both levels counts as it stands on the inner one.
-/
import DocSearch.CommandLine.Arguments
import DocSearch.CommandLine.Filters
import DocSearch.Output

namespace DocSearch

open CommandLine

/-- A command of the program. -/
inductive Command where
  /-- Shows the URL of a search. -/
  | url (options : SearchOptions)
  /-- Searches, and shows the hits. -/
  | search (options : SearchOptions)
  /-- Deletes the document with the identifier. -/
  | delete (id : String)
  /-- Shows the settings. -/
  | config
deriving DecidableEq, Repr

/-- What a command line asks for. -/
structure Invocation where
  /-- The path of the settings file. -/
  settingsPath : Option String
  /-- The domain, in place of that of the settings. -/
  domain : Option String
  format : Format
  quiet : Bool
  /-- How often more detail was asked for. -/
  verbosity : Nat
  command : Command
deriving DecidableEq, Repr

/-- The version of the program. -/
def programVersion : String := "0.1.0"

/-- What the program answers when its version is asked for. -/
def versionLine : String := "cloudsearch " ++ programVersion

namespace CommandLine.Level

/-- The options of a search on its level. -/
def searchOptions (level : Level) : SearchOptions where
  keyword := level.value? .keyword
  required := level.list .required
  alternatives := level.list .alternative
  integers := level.list .integer
  facets := level.list .facet
  fields := level.list .field
  size := (level.value? .size).bind number?
  start := ((level.value? .start).bind number?).getD 0
  rank := level.value? .rank
  raw := level.value? .raw

/-- The command with the options of its level. -/
def toCommand (level : Level) : CommandName → Except UsageFault Command
  | .url => .ok (.url level.searchOptions)
  | .search => .ok (.search level.searchOptions)
  | .config => .ok .config
  | .delete =>
    match level.value? .id with
    | some id => .ok (.delete id)
    | none => .error .missingOption

/-- How often more detail was asked for: on the inner level, if it was there at all. -/
def verbosity (outer inner : Level) : Nat :=
  let count := fun level : Level => level.switches.count .verbose
  if count inner = 0 then count outer else count inner

/-- The format asked for on either level: YAML before TOML, and JSON when neither is. -/
def format (outer inner : Level) : Format :=
  if outer.has .yaml || inner.has .yaml then .yaml
  else if outer.has .toml || inner.has .toml then .toml
  else .json

end CommandLine.Level

namespace Invocation

/-- The invocation of a command on two levels. -/
def ofLevels (outer inner : Level) (command : Command) : Invocation where
  settingsPath := (inner.value? .config).or (outer.value? .config)
  domain := (inner.value? .domain).or (outer.value? .domain)
  format := Level.format outer inner
  quiet := outer.has .quiet || inner.has .quiet
  verbosity := Level.verbosity outer inner
  command := command

/-- Reads the level of a command and checks it. -/
def readInner (name : CommandName) (words : List String) : Except UsageFault (Level × Command) := do
  let (level, _) ← readLevel (some name) words .empty
  let level ← level.settle
  level.checkFormats
  let command ← level.toCommand name
  return (level, command)

/-- Reads the words of a command line. -/
def ofWords (words : List String) : Except UsageFault Invocation := do
  match ← readLevel none words .empty with
  | (outer, some (name, words)) =>
    let (inner, command) ← readInner name words
    let outer ← outer.settle
    outer.checkFormats
    return ofLevels outer inner command
  | (outer, none) =>
    let outer ← outer.settle
    .error (if outer.isEmpty then .nothingGiven else .noCommand)

/-- The level of detail that is logged. -/
def logLevel (i : Invocation) : String :=
  match i.verbosity with
  | 0 => "warn"
  | 1 => "debug"
  | _ => "trace"

end Invocation
end DocSearch
