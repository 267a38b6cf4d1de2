/-
# The settings that hold for an invocation

Settings come from a file, and the environment and the command line replace some of them.  What a
file says is said here by its keys: a key that is there has its value, and where one is missing the
settings are standard (`Decodes`).  `Found` and `Lost` are about the files: there are settings, or
there are none, for which a file has to be unreadable or not decode, or one has to be missing that
was asked for.

An empty variable of the environment counts as none, but an empty domain on the command line counts
as a domain (`Effective`).  So settings can come out without one, and then only a command that needs
no domain gets them.

Main statements: `ofToml_eq_ok_iff`, `ofFiles_eq_ok_iff`, `effective_iff`, `settings_of_isUsable`.
-/
import DocSearch.CommandLine.Run
import DocSearch.Proofs.Json.Decode
import DocSearch.Proofs.Reply.Locality
import DocSearch.Proofs.Toml.Keys

namespace DocSearch

open Outcome

/-! ## 1. Settings in a table -/

namespace Json

/-- A field is what its member gives, or the fallback where it has none. -/
inductive Gives {α : Type} (read : Json → Option α) (members : List (String × Json))
    (name : String) (fallback : α) : α → Prop where
  | given {j : Json} {a : α} (h : (name, j) ∈ members) (hread : read j = some a) :
      Gives read members name fallback a
  | missing (h : ∀ j, (name, j) ∉ members) : Gives read members name fallback fallback

theorem optional_iff_gives {α : Type} {read : Json → Option α} {members : List (String × Json)}
    {name : String} {fallback a : α} (once : (members.map (·.1)).Nodup) :
    optional read fallback name members = some a ↔ Gives read members name fallback a := by
  refine optional_eq_some_iff (fun hnone => ?_) fun j hj => ?_
  · have hmissing : ∀ j, (name, j) ∉ members := fun j hmem => by
      rw [(lookup_eq_some_iff_mem once).mpr hmem] at hnone
      cases hnone
    exact ⟨fun | rfl => .missing hmissing,
      fun | .given hmem _ => absurd hmem (hmissing _) | .missing _ => rfl⟩
  · have hmem := (lookup_eq_some_iff_mem once).mp hj
    constructor
    · exact .given hmem
    · intro h
      cases h with
      | given hmem' hread =>
        rw [(lookup_eq_some_iff_mem once).mpr hmem'] at hj
        obtain rfl := Option.some.inj hj
        exact hread
      | missing hmissing => exact absurd hmem (hmissing j)

end Json

namespace Settings

/-- The settings are what the members of a table say, and standard where they say nothing. -/
structure Decodes (members : List (String × Json)) (st : Settings) : Prop where
  domain : Json.Gives Json.string? members "search_id" standard.domain st.domain
  apiVersion : Json.Gives Json.string? members "api_version" standard.apiVersion st.apiVersion
  scheme : Json.Gives Json.string? members "scheme" standard.scheme st.scheme
  timeoutSeconds :
    Json.Gives Json.uint64? members "timeout_secs" standard.timeoutSeconds st.timeoutSeconds
  maxBatchBytes :
    Json.Gives Json.uint64? members "max_batch_bytes" standard.maxBatchBytes st.maxBatchBytes
  lang : Json.Gives Json.string? members "lang" standard.lang st.lang
  conditions : Json.Gives (Json.listOf? (Condition.ofJson .toml)) members "persistent_conditions"
    standard.conditions st.conditions

/-- **A table is read as the settings that its members say.** -/
theorem ofJson_eq_some_iff {members : List (String × Json)} {st : Settings}
    (once : (members.map (·.1)).Nodup) :
    ofJson .toml (.obj members) = some st ↔ Decodes members st := by
  simp only [ofJson, Json.fields?_obj once, Option.bind_eq_bind, Option.bind_some,
    Option.bind_eq_some_iff]
  simp (disch := decide) only [Json.optional_filter, Json.optional_iff_gives once]
  constructor
  · rintro ⟨_, hdomain, _, hversion, _, hscheme, _, htimeout, _, hbytes, _, hlang, _, hconditions,
      h⟩
    obtain rfl := Option.some.inj h
    exact ⟨hdomain, hversion, hscheme, htimeout, hbytes, hlang, hconditions⟩
  · rintro ⟨hdomain, hversion, hscheme, htimeout, hbytes, hlang, hconditions⟩
    exact ⟨_, hdomain, _, hversion, _, hscheme, _, htimeout, _, hbytes, _, hlang, _, hconditions,
      rfl⟩

/-! ## 2. Settings files -/

/-- The text of a file gives the settings. -/
def TextGives (text : String) (st : Settings) : Prop :=
  ∃ members, Toml.read text = .ok (.obj members) ∧ Decodes members st

theorem ofToml_eq_ok_iff {text : String} {st : Settings} :
    ofToml text = .ok st ↔ TextGives text st := by
  unfold ofToml
  constructor
  · intro h
    split at h
    · cases h
    · rename_i j hread
      obtain ⟨members, rfl, once⟩ := Toml.nodup_of_read hread
      split at h
      · rename_i given hgiven
        obtain rfl := Except.ok.inj h
        exact ⟨members, hread, (ofJson_eq_some_iff once).mp hgiven⟩
      · cases h
  · rintro ⟨members, hread, hdecodes⟩
    obtain ⟨_, hobj, once⟩ := Toml.nodup_of_read hread
    cases hobj
    simp only [hread, (ofJson_eq_some_iff once).mpr hdecodes]

theorem exitCode_of_ofToml {text : String} {f : Failure} (h : ofToml text = .error f) :
    f.exitCode = 2 := by
  unfold ofToml at h
  split at h
  · obtain rfl := Except.error.inj h
    rfl
  · split at h
    · cases h
    · obtain rfl := Except.error.inj h
      rfl

theorem ofFile_eq_ok_iff {path : String} {content : FileContent} {st : Settings} :
    ofFile path content = .ok st ↔ ∃ text, content = .text text ∧ TextGives text st := by
  cases content with
  | absent => simp [ofFile]
  | unreadable reason => simp [ofFile]
  | text text => simp [ofFile, ofToml_eq_ok_iff]

theorem exitCode_of_ofFile {path : String} {content : FileContent} {f : Failure}
    (h : ofFile path content = .error f) : f.exitCode = 2 := by
  cases content with
  | absent =>
    obtain rfl := Except.error.inj h
    rfl
  | unreadable reason =>
    obtain rfl := Except.error.inj h
    rfl
  | text text => exact exitCode_of_ofToml h

section Files

variable {asked : Option String} {standardPath : String} {files : String → FileContent}

/-- There are settings: those of the file that was asked for, or else of the file in the standard
place, or the standard settings where there is no such file. -/
inductive Found (asked : Option String) (standardPath : String) (files : String → FileContent) :
    Settings → Prop where
  | file {text : String} {st : Settings} (h : files (asked.getD standardPath) = .text text)
      (hst : TextGives text st) : Found asked standardPath files st
  | nowhere (hasked : asked = none) (h : files standardPath = .absent) :
      Found asked standardPath files standard

/-- There are no settings: the file cannot be read, or was asked for and is not there, or its text
does not decode. -/
inductive Lost (asked : Option String) (standardPath : String) (files : String → FileContent) :
    Prop where
  | unreadable {reason : String} (h : files (asked.getD standardPath) = .unreadable reason)
  | missing {path : String} (hasked : asked = some path) (h : files path = .absent)
  | malformed {text : String} (h : files (asked.getD standardPath) = .text text)
      (hst : ∀ st, ¬ TextGives text st)

/-- The file that is asked for is the only one that is looked at. -/
theorem ofFiles_eq_ofFile (h : ¬ (asked = none ∧ files standardPath = .absent)) :
    ofFiles asked standardPath files =
      ofFile (asked.getD standardPath) (files (asked.getD standardPath)) := by
  cases asked with
  | some path => rfl
  | none =>
    have hthere : files standardPath ≠ .absent := fun habsent => h ⟨rfl, habsent⟩
    simp only [ofFiles, Option.getD_none]

theorem ofFiles_nowhere (h : files standardPath = .absent) :
    ofFiles none standardPath files = .ok standard := by
  simp only [ofFiles, h]

/-- **Settings are loaded exactly where there are any.** -/
theorem ofFiles_eq_ok_iff {st : Settings} :
    ofFiles asked standardPath files = .ok st ↔ Found asked standardPath files st := by
  by_cases hnowhere : asked = none ∧ files standardPath = .absent
  · obtain ⟨rfl, habsent⟩ := hnowhere
    rw [ofFiles_nowhere habsent]
    constructor
    · intro h
      obtain rfl := Except.ok.inj h
      exact .nowhere rfl habsent
    · intro h
      cases h with
      | file h hst =>
        rw [Option.getD_none, habsent] at h
        cases h
      | nowhere => rfl
  · rw [ofFiles_eq_ofFile hnowhere, ofFile_eq_ok_iff]
    constructor
    · rintro ⟨text, htext, hst⟩
      exact .file htext hst
    · intro h
      cases h with
      | file h hst => exact ⟨_, h, hst⟩
      | nowhere hasked h => exact absurd ⟨hasked, h⟩ hnowhere

theorem lost_iff : Lost asked standardPath files ↔ ∀ st, ¬ Found asked standardPath files st := by
  constructor
  · intro h st hfound
    rcases hfound with ⟨htext, hst⟩ | ⟨hasked, habsent⟩
    · rcases h with hcontent | ⟨hasked, habsent⟩ | ⟨hcontent, hnone⟩
      · rw [hcontent] at htext
        cases htext
      · rw [hasked, Option.getD_some, habsent] at htext
        cases htext
      · rw [hcontent] at htext
        cases htext
        exact hnone st hst
    · subst hasked
      rcases h with hcontent | ⟨hasked, -⟩ | ⟨hcontent, -⟩
      · rw [Option.getD_none, habsent] at hcontent
        cases hcontent
      · cases hasked
      · rw [Option.getD_none, habsent] at hcontent
        cases hcontent
  · intro h
    cases hcontent : files (asked.getD standardPath) with
    | unreadable reason => exact .unreadable hcontent
    | text text => exact .malformed hcontent fun st hst => h st (.file hcontent hst)
    | absent =>
      cases asked with
      | some path => exact .missing rfl hcontent
      | none => exact absurd (.nowhere rfl hcontent) (h _)

theorem exitCode_of_ofFiles {f : Failure} (h : ofFiles asked standardPath files = .error f) :
    f.exitCode = 2 := by
  by_cases hnowhere : asked = none ∧ files standardPath = .absent
  · obtain ⟨rfl, habsent⟩ := hnowhere
    rw [ofFiles_nowhere habsent] at h
    cases h
  · rw [ofFiles_eq_ofFile hnowhere] at h
    exact exitCode_of_ofFile h

end Files

/-! ## 3. The environment and the command line -/

/-- A variable of the environment replaces a value, unless it is not set or empty. -/
inductive Replaced (env : String → Option String) (name old : String) : String → Prop where
  | set {value : String} (h : env name = some value) (hne : value ≠ "") :
      Replaced env name old value
  | kept (h : ∀ value, env name = some value → value = "") : Replaced env name old old

theorem setVariable_eq_some_iff {env : String → Option String} {name value : String} :
    setVariable env name = some value ↔ env name = some value ∧ value ≠ "" := by
  rw [setVariable, Option.filter_eq_some_iff]
  simp

theorem setVariable_eq_none_iff {env : String → Option String} {name : String} :
    setVariable env name = none ↔ ∀ value, env name = some value → value = "" := by
  rw [setVariable, Option.filter_eq_none_iff]
  simp

theorem replaced_iff {env : String → Option String} {name old value : String} :
    Replaced env name old value ↔ value = (setVariable env name).getD old := by
  constructor
  · intro h
    cases h with
    | set h hne => rw [setVariable_eq_some_iff.mpr ⟨h, hne⟩, Option.getD_some]
    | kept h => rw [setVariable_eq_none_iff.mpr h, Option.getD_none]
  · rintro rfl
    cases hset : setVariable env name with
    | none => exact .kept (setVariable_eq_none_iff.mp hset)
    | some value =>
      obtain ⟨hvalue, hne⟩ := setVariable_eq_some_iff.mp hset
      exact .set hvalue hne

/-- Settings can be used that name a domain and leave room for a batch. -/
structure IsUsable (st : Settings) : Prop where
  domain : ∃ c ∈ st.domain.toList, Text.isBlank c = false
  room : st.maxBatchBytes ≠ 0

theorem isBlankText_eq_false_iff {s : String} :
    Text.isBlankText s = false ↔ ∃ c ∈ s.toList, Text.isBlank c = false := by
  simp [Text.isBlankText]

theorem checked_of_isUsable {st : Settings} (h : st.IsUsable) (path : String) :
    st.checked path = .ok st :=
  checked_eq_ok_iff.mpr ⟨rfl, isBlankText_eq_false_iff.mpr h.domain, h.room⟩

theorem checked_of_not_isUsable {st : Settings} (h : ¬ st.IsUsable) (path : String) :
    ∃ fault, st.checked path = .error fault := by
  cases hchecked : st.checked path with
  | error fault => exact ⟨fault, rfl⟩
  | ok used =>
    obtain ⟨-, hdomain, hroom⟩ := checked_eq_ok_iff.mp hchecked
    exact absurd ⟨isBlankText_eq_false_iff.mp hdomain, hroom⟩ h

end Settings

namespace Invocation

open Settings (Found Lost Replaced)

/-- The settings that hold for an invocation, given those of the file.  The command line and the
environment replace the domain, the environment replaces the version, and nothing else changes. -/
structure Effective (i : Invocation) (env : String → Option String) (file st : Settings) :
    Prop where
  given : ∀ name, i.domain = some name → st.domain = name
  domain : i.domain = none → Replaced env "CLOUDSEARCH_ID" file.domain st.domain
  apiVersion : Replaced env "CLOUDSEARCH_API_VERSION" file.apiVersion st.apiVersion
  others : st = { file with domain := st.domain, apiVersion := st.apiVersion }

/-- **One setting holds at a time.** -/
theorem effective_iff {i : Invocation} {env : String → Option String} {file st : Settings} :
    i.Effective env file st ↔ st = i.adjust (file.withEnvironment env) := by
  constructor
  · intro h
    have hversion := Settings.replaced_iff.mp h.apiVersion
    have hdomain : st.domain = (i.adjust (file.withEnvironment env)).domain := by
      cases hgiven : i.domain with
      | none =>
        rw [Settings.replaced_iff.mp (h.domain hgiven)]
        simp only [adjust, hgiven]
        rfl
      | some name =>
        rw [h.given name hgiven]
        simp only [adjust, hgiven]
        rfl
    rw [h.others, hdomain, hversion]
    rfl
  · rintro rfl
    refine ⟨fun name hname => ?_, fun hnone => ?_, Settings.replaced_iff.mpr rfl, rfl⟩
    · simp only [adjust, hname]
      rfl
    · refine Settings.replaced_iff.mpr ?_
      simp only [adjust, hnone]
      rfl

section Use

variable {i : Invocation} {standardPath : String} {files : String → FileContent}
  {env : String → Option String} {st : Settings}

/-- The settings that hold for an invocation. -/
def Holds (i : Invocation) (standardPath : String) (files : String → FileContent)
    (env : String → Option String) (st : Settings) : Prop :=
  ∃ file, Found i.settingsPath standardPath files file ∧ i.Effective env file st

theorem lost_or_holds (i : Invocation) (standardPath : String) (files : String → FileContent)
    (env : String → Option String) :
    Lost i.settingsPath standardPath files ∨ ∃ st, i.Holds standardPath files env st := by
  by_cases hlost : Lost i.settingsPath standardPath files
  · exact .inl hlost
  · rw [Settings.lost_iff, not_forall_not] at hlost
    obtain ⟨file, hfile⟩ := hlost
    exact .inr ⟨_, file, hfile, effective_iff.mpr rfl⟩

/-- Without settings no command is carried out. -/
theorem settings_of_lost (h : Lost i.settingsPath standardPath files)
    (env : String → Option String) :
    ∃ f, i.settings standardPath files env = .error f ∧ f.exitCode = 2 := by
  cases hfiles : Settings.ofFiles i.settingsPath standardPath files with
  | ok file => exact absurd (Settings.ofFiles_eq_ok_iff.mp hfiles) (Settings.lost_iff.mp h file)
  | error f =>
    refine ⟨f, ?_, Settings.exitCode_of_ofFiles hfiles⟩
    rw [settings, Settings.load, hfiles]
    rfl

/-- What is done with settings that hold. -/
theorem settings_of_holds (h : i.Holds standardPath files env st) :
    i.settings standardPath files env =
      if i.needsDomain then (st.checked standardPath).mapError Settings.Fault.failure
      else .ok st := by
  obtain ⟨file, hfile, hst⟩ := h
  rw [settings, Settings.load, Settings.ofFiles_eq_ok_iff.mpr hfile, effective_iff.mp hst]
  rfl

theorem needsDomain_iff : i.needsDomain = true ↔ i.command ≠ .config := by
  unfold needsDomain
  split <;> simp_all

/-- **A command gets settings that can be used**; only where they are shown, they need not be. -/
theorem settings_of_isUsable (h : i.Holds standardPath files env st)
    (husable : i.command = .config ∨ st.IsUsable) :
    i.settings standardPath files env = .ok st := by
  rw [settings_of_holds h]
  split
  · rename_i hneeds
    rw [Settings.checked_of_isUsable (husable.resolve_left (needsDomain_iff.mp hneeds))]
    rfl
  · rfl

theorem settings_of_not_isUsable (h : i.Holds standardPath files env st)
    (hcommand : i.command ≠ .config) (husable : ¬ st.IsUsable) :
    ∃ f, i.settings standardPath files env = .error f ∧ f.exitCode = 2 := by
  obtain ⟨fault, hfault⟩ := Settings.checked_of_not_isUsable husable standardPath
  refine ⟨fault.failure, ?_, rfl⟩
  rw [settings_of_holds h, if_pos (needsDomain_iff.mpr hcommand), hfault]
  rfl

end Use

end Invocation
end DocSearch
