/-
# The program

Reads the command line, the environment, the clock and the settings file, and runs the
invocation.  The service is reached through a function from requests to replies; the one used
here reports that no connection can be made.
-/
import DocSearch.CommandLine.Run
import Std.Time.DateTime.Timestamp

namespace DocSearch

/-- What the file system says about a path. -/
def readContent (path : String) : IO FileContent := do
  try
    let bytes ← IO.FS.readBinFile path
    return match String.fromUTF8? bytes with
      | some text => .text text
      | none => .unreadable "stream did not contain valid UTF-8"
  catch
    | .noFileOrDirectory .. => return .absent
    | e => return .unreadable (toString e)

/-- The path of the standard settings file. -/
def standardPath : IO String := do
  let configured := (← IO.getEnv "XDG_CONFIG_HOME").filter fun path => path.startsWith "/"
  let home := (← IO.getEnv "HOME").filter fun path => !path.isEmpty
  let base := (configured.or (home.map (· ++ "/.config"))).getD ".config"
  return base ++ "/cloudsearch/config.toml"

/-- The reply to every request where there is no connection. -/
def noConnection (_ : Request) : IO Reply := return .error ⟨.http, "no connection"⟩

/-- The exit code of a command line that is not carried out. -/
def usageCode : CommandLine.UsageFault → UInt32
  | .helpWanted => 0
  | .versionWanted => 0
  | _ => 2

/-- What is said about a command line that is not carried out. -/
def usageText : CommandLine.UsageFault → String
  | .versionWanted => versionLine
  | _ => "Usage: cloudsearch [OPTIONS] <url|search|delete|config>"

/-- Carries out an invocation. -/
def runInvocation (i : Invocation) : IO UInt32 := do
  let path ← standardPath
  let content ← readContent (i.settingsPath.getD path)
  let domain ← IO.getEnv Settings.domainVariable
  let apiVersion ← IO.getEnv Settings.apiVersionVariable
  let now ← Std.Time.Timestamp.now
  let env := fun name =>
    if name = Settings.domainVariable then domain
    else if name = Settings.apiVersionVariable then apiVersion
    else none
  let version := Int64.ofInt now.toSecondsSinceUnixEpoch.val
  let run ← Exchange.perform noConnection (i.execute path (fun _ => content) env version)
  IO.print run.out
  IO.eprint (run.notes ++ run.errorLine i.quiet)
  return UInt32.ofNat run.exitCode

end DocSearch

open DocSearch

/-- Runs the program on the words of the command line. -/
def main (words : List String) : IO UInt32 := do
  match Invocation.ofWords words with
  | .ok i => runInvocation i
  | .error fault =>
    let text := usageText fault
    if usageCode fault = 0 then IO.println text else IO.eprintln text
    return usageCode fault
