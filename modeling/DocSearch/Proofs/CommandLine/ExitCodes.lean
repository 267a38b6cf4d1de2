/-
# What the program sends and how it ends

The program checks one thing after the other, and the first that is wrong decides how it ends:
whether there are settings, whether they can be used, whether the filters of a search ask for
something, and last what the service replies.  Nothing is sent before all of that is right, and then
one request at most, to the domain that the settings name (`Ends`).

A search hands on the failure of its one request with the code of that failure.  A deletion does
not: it comes to a result even where nothing was answered, so that all that goes wrong with it has
one code (`SearchEnds`, `DeleteEnds`).  Its one action makes one batch, with no counts to be added,
so it never stops before there is a result.

The format is JSON throughout.  In TOML a result may turn out not to be writable, which is one more
way to end.

Main statements: `searchEnds_iff`, `deleteEnds_iff`, `execute_ends`.
-/
import DocSearch.Proofs.Client.Searching
import DocSearch.Proofs.Client.Totals
import DocSearch.Proofs.CommandLine.Filters
import DocSearch.Proofs.CommandLine.Loading
import DocSearch.Proofs.Document.Batches

namespace DocSearch

open Outcome

/-! ## 1. Replies -/

namespace Client

open Json (Spells)
open SearchResult (Reports ReportsNone)
open BatchResult (Outcome)

/-- The code with which a search ends, given the reply to it. -/
inductive SearchEnds : Reply → Nat → Prop where
  | lost {f : Failure} (h : f.kind = .http ∨ f.kind = .emptyResponse) : SearchEnds (.error f) 3
  | failed {f : Failure} (h : ¬ (f.kind = .http ∨ f.kind = .emptyResponse)) :
      SearchEnds (.error f) f.exitCode
  | noObject {body : String} (h : ∀ e, ¬ Spells body e) : SearchEnds (.ok body) 4
  | reported {body m : String} {e : Json} (h : Spells body e) (reports : Reports e m) :
      SearchEnds (.ok body) 4
  | answered {body : String} {e : Json} (h : Spells body e) (none : ReportsNone e) :
      SearchEnds (.ok body) 0

/-- The code with which a deletion ends, given the reply to it. -/
inductive DeleteEnds : Reply → Nat → Prop where
  | lost (f : Failure) : DeleteEnds (.error f) 4
  | malformed {body : String} (h : Json.decode (BatchResult.ofJson .json) body = none) :
      DeleteEnds (.ok body) 4
  | rejected {body : String} {r : BatchResult}
      (h : Json.decode (BatchResult.ofJson .json) body = some r) (status : r.status = "error") :
      DeleteEnds (.ok body) 4
  | done {body : String} {r : BatchResult}
      (h : Json.decode (BatchResult.ofJson .json) body = some r) (status : r.status ≠ "error") :
      DeleteEnds (.ok body) 0

/-- The exit code of what a search gives. -/
def searchCode {s : Schema} : Except Failure (SearchResult s) → Nat
  | .error f => f.exitCode
  | .ok _ => 0

theorem exitCode_of_isTransport {f : Failure} (h : f.kind = .http ∨ f.kind = .emptyResponse) :
    f.exitCode = 3 := by
  rcases h with h | h <;> rw [Failure.exitCode, h] <;> rfl

theorem Agree.searchEnds {s : Schema} {reply : Reply}
    {tried : Except Failure (SearchResult s)} {found : SearchResult s}
    (h : Agree reply tried found) : SearchEnds reply (searchCode tried) := by
  cases h with
  | noReply f =>
    by_cases h : f.kind = .http ∨ f.kind = .emptyResponse
    · rw [searchCode, exitCode_of_isTransport h]
      exact .lost h
    · exact .failed h
  | @noObject _ f h kind =>
    have hcode : f.exitCode = 4 := by
      rw [Failure.exitCode, kind]
      rfl
    rw [searchCode, hcode]
    exact .noObject h
  | reported h reports => exact .reported h reports
  | answered h none => exact .answered h none

/-- A reply has one way to end a search. -/
theorem SearchEnds.unique {reply : Reply} {code code' : Nat} (h : SearchEnds reply code)
    (h' : SearchEnds reply code') : code = code' := by
  cases h with
  | lost h =>
    cases h' with
    | lost => rfl
    | failed h' => exact absurd h h'
  | failed h =>
    cases h' with
    | lost h' => exact absurd h' h
    | failed => rfl
  | noObject h =>
    cases h' with
    | noObject => rfl
    | reported h' => exact absurd h' (h _)
    | answered h' => exact absurd h' (h _)
  | reported h reports =>
    cases h' with
    | noObject h' => exact absurd h (h' _)
    | reported => rfl
    | answered h' none =>
      cases Option.some.inj (h.1.symm.trans h'.1)
      exact absurd none reports.not_reportsNone
  | answered h none =>
    cases h' with
    | noObject h' => exact absurd h (h' _)
    | reported h' reports =>
      cases Option.some.inj (h.1.symm.trans h'.1)
      exact absurd none reports.not_reportsNone
    | answered => rfl

/-- **A search ends with the code that the reply calls for.** -/
theorem searchEnds_iff {s : Schema} {reply : Reply} {code : Nat} :
    SearchEnds reply code ↔
      searchCode (strictSearch (readReply reply) : Except Failure (SearchResult s)) = code := by
  have hends := (agree (s := s) reply).searchEnds
  constructor
  · exact hends.unique
  · rintro rfl
    exact hends

theorem deleteEnds_of_outcome {reply : Reply} {r : BatchResult} (h : Outcome reply r) :
    DeleteEnds reply r.exitStatus.code := by
  cases h with
  | noReply f => exact .lost f
  | noJson h => exact .malformed (by simp [Json.decode, h, Except.toOption])
  | noRecord h hrecord => exact .malformed (by simp [Json.decode, h, Except.toOption, hrecord])
  | @answer body j record _ h hrecord same mark =>
    have hdecode : Json.decode (BatchResult.ofJson .json) body = some record := by
      simp [Json.decode, h, Except.toOption, hrecord]
    have hstatus : r.status = record.status := by rw [same]
    cases hmark : r.isError with
    | true =>
      rw [BatchResult.exitStatus, hmark]
      exact .rejected hdecode (hstatus.symm.trans (mark.mp hmark))
    | false =>
      rw [BatchResult.exitStatus, hmark]
      refine .done hdecode fun herror => ?_
      rw [mark.mpr (hstatus.trans herror)] at hmark
      cases hmark

theorem DeleteEnds.unique {reply : Reply} {code code' : Nat} (h : DeleteEnds reply code)
    (h' : DeleteEnds reply code') : code = code' := by
  have hsame : ∀ {body : String} {r r' : BatchResult},
      Json.decode (BatchResult.ofJson .json) body = some r →
      Json.decode (BatchResult.ofJson .json) body = some r' → r = r' :=
    fun hr hr' => Option.some.inj (hr.symm.trans hr')
  cases h with
  | lost f =>
    cases h' with
    | lost => rfl
  | malformed h =>
    cases h' with
    | malformed => rfl
    | rejected => rfl
    | done h' => exact absurd (h.symm.trans h') (by simp)
  | rejected h status =>
    cases h' with
    | malformed => rfl
    | rejected => rfl
    | done h' status' => exact absurd (hsame h h' ▸ status) status'
  | done h status =>
    cases h' with
    | malformed h' => exact absurd (h'.symm.trans h) (by simp)
    | rejected h' status' => exact absurd (hsame h' h ▸ status') status
    | done => rfl

/-- **A deletion ends with the code that the reply calls for.** -/
theorem deleteEnds_iff {reply : Reply} {code : Nat} :
    DeleteEnds reply code ↔ (readBatchReply reply).exitStatus.code = code := by
  have hends := deleteEnds_of_outcome (outcome_iff.mpr (rfl : readBatchReply reply = _))
  constructor
  · exact hends.unique
  · rintro rfl
    exact hends

end Client

/-! ## 2. Addresses -/

namespace Settings

theorem searchUrl_eq (st : Settings) (q : Search) :
    st.searchUrl q = st.scheme ++ "://search-" ++ st.domain ++ "/" ++ st.apiVersion ++ "/search?" ++
      (st.restrict q).queryString := by
  rw [← String.toList_inj]
  simp [searchUrl, Search.url, searchAddress, address]

theorem documentAddress_eq (st : Settings) :
    st.documentAddress =
      st.scheme ++ "://doc-" ++ st.domain ++ "/" ++ st.apiVersion ++ "/documents/batch" := by
  rw [← String.toList_inj]
  simp [documentAddress, address]

end Settings

/-! ## 3. Commands -/

/-- Every filter of the options asks for something. -/
def SearchOptions.HasValidFilters (o : SearchOptions) : Prop :=
  ∀ given ∈ o.filters, ∃ c, given.1.Asks given.2 c

namespace Invocation

open Client (SearchEnds DeleteEnds)
open Settings (Lost)

/-- A filter that asks for nothing is a general failure. -/
theorem exitCode_of_searchOf {o : SearchOptions} {f : Failure} (h : searchOf o = .error f) :
    f.exitCode = 1 := by
  obtain ⟨fault, -, rfl⟩ := searchOf_error_iff.mp h
  cases fault <;> rfl

theorem searchOf_of_not_valid {o : SearchOptions} (h : ¬ o.HasValidFilters) :
    ∃ f, searchOf o = .error f ∧ f.exitCode = 1 := by
  cases hsearch : searchOf o with
  | error f => exact ⟨f, rfl, exitCode_of_searchOf hsearch⟩
  | ok q => exact absurd ((exists_searchOf_eq_ok_iff o).mp ⟨q, hsearch⟩) h

/-- The run sends the requests and ends with the code. -/
structure RunsTo (run : Exchange.Outcome Run) (requests : List Request) (code : Nat) : Prop where
  requests_eq : run.requests = requests
  code_eq : run.result.exitCode = code

section Commands

variable (answer : List Request → Reply) {i : Invocation} {st : Settings} {version : Int64}

theorem runsTo_config (hjson : i.format = .json) (h : i.command = .config) :
    RunsTo (Exchange.run answer (i.perform st version)) [] 0 := by
  rw [perform, h, hjson]
  exact ⟨rfl, rfl⟩

/-- A filter that asks for nothing ends a search, and the URL of one, before anything is sent. -/
theorem runsTo_badFilter {o : SearchOptions} (h : i.command = .url o ∨ i.command = .search o)
    (hfilters : ¬ o.HasValidFilters) :
    RunsTo (Exchange.run answer (i.perform st version)) [] 1 := by
  obtain ⟨f, hsearch, hcode⟩ := searchOf_of_not_valid hfilters
  rcases h with h | h
  · rw [perform, h]
    dsimp only
    rw [showUrl, hsearch]
    exact ⟨rfl, hcode⟩
  · rw [perform, h]
    dsimp only
    rw [search, hsearch]
    exact ⟨rfl, hcode⟩

theorem runsTo_url (hjson : i.format = .json) {o : SearchOptions} (h : i.command = .url o)
    (hfilters : o.HasValidFilters) :
    RunsTo (Exchange.run answer (i.perform st version)) [] 0 := by
  obtain ⟨q, hq⟩ := (exists_searchOf_eq_ok_iff o).mpr hfilters
  rw [perform, h]
  dsimp only
  rw [showUrl, hq, hjson]
  exact ⟨rfl, rfl⟩

theorem exitCode_showResult (hjson : i.format = .json)
    (tried : Except Failure (SearchResult hitSchema)) :
    (i.showResult tried).exitCode = Client.searchCode tried := by
  cases tried with
  | error f => rfl
  | ok r =>
    rw [showResult, hjson]
    rfl

/-- A search sends its one request, and the reply decides. -/
theorem runsTo_search (hjson : i.format = .json) {o : SearchOptions} {q : Search} {code : Nat}
    (h : i.command = .search o) (hq : searchOf o = .ok q)
    (hends : SearchEnds (answer [.get (st.searchUrl q)]) code) :
    RunsTo (Exchange.run answer (i.perform st version)) [.get (st.searchUrl q)] code := by
  rw [perform, h]
  dsimp only
  rw [search, hq]
  refine ⟨rfl, ?_⟩
  rw [← Client.searchEnds_iff.mp hends, ← exitCode_showResult hjson]
  rfl

/-- One action is one batch. -/
theorem batches_singleton (ceiling : Nat) (a : Action) : batches ceiling [a] = [[a]] := by
  simp [batches, batchesFrom]

/-- A deletion sends its one request, and the reply decides. -/
theorem runsTo_delete (hjson : i.format = .json) {id : String} {code : Nat}
    (h : i.command = .delete id)
    (hends : DeleteEnds
      (answer [.post st.documentAddress (batchText [.delete version id])]) code) :
    RunsTo (Exchange.run answer (i.perform st version))
      [.post st.documentAddress (batchText [.delete version id])] code := by
  have hrun : Exchange.run answer (Client.deleteAll st version [id]) =
      ⟨some (Client.readBatchReply
          (answer [.post st.documentAddress (batchText [.delete version id])])),
        [.post st.documentAddress (batchText [.delete version id])]⟩ :=
    Client.run_submit_cons answer (batches_singleton _ (.delete version id))
  rw [perform, h]
  dsimp only
  rw [delete]
  -- what follows the requests only shows their result
  change RunsTo (Exchange.run answer ((Client.deleteAll st version [id]).bind fun outcome =>
    .done (i.showDeletion id outcome))) _ code
  rw [Exchange.run_bind, hrun, showDeletion, hjson]
  exact ⟨rfl, Client.deleteEnds_iff.mp hends⟩

end Commands

/-! ## 4. The program -/

section Program

variable {i : Invocation} {standardPath : String} {files : String → FileContent}
  {env : String → Option String} {version : Int64} {answer : List Request → Reply}

/-- What the program sends and the code with which it ends. -/
inductive Ends (i : Invocation) (standardPath : String) (files : String → FileContent)
    (env : String → Option String) (version : Int64) (answer : List Request → Reply) :
    List Request → Nat → Prop where
  | lost (h : Lost i.settingsPath standardPath files) :
      Ends i standardPath files env version answer [] 2
  | config {st : Settings} (hst : i.Holds standardPath files env st) (h : i.command = .config) :
      Ends i standardPath files env version answer [] 0
  | unusable {st : Settings} (hst : i.Holds standardPath files env st) (h : i.command ≠ .config)
      (husable : ¬ st.IsUsable) : Ends i standardPath files env version answer [] 2
  | badFilter {st : Settings} {o : SearchOptions} (hst : i.Holds standardPath files env st)
      (husable : st.IsUsable) (h : i.command = .url o ∨ i.command = .search o)
      (hfilters : ¬ o.HasValidFilters) : Ends i standardPath files env version answer [] 1
  | url {st : Settings} {o : SearchOptions} (hst : i.Holds standardPath files env st)
      (husable : st.IsUsable) (h : i.command = .url o) (hfilters : o.HasValidFilters) :
      Ends i standardPath files env version answer [] 0
  | search {st : Settings} {o : SearchOptions} {q : Search} {code : Nat}
      (hst : i.Holds standardPath files env st) (husable : st.IsUsable)
      (h : i.command = .search o) (hq : searchOf o = .ok q)
      (hends : SearchEnds (answer [.get (st.searchUrl q)]) code) :
      Ends i standardPath files env version answer [.get (st.searchUrl q)] code
  | delete {st : Settings} {id : String} {code : Nat} (hst : i.Holds standardPath files env st)
      (husable : st.IsUsable) (h : i.command = .delete id)
      (hends : DeleteEnds
        (answer [.post st.documentAddress (batchText [.delete version id])]) code) :
      Ends i standardPath files env version answer
        [.post st.documentAddress (batchText [.delete version id])] code

theorem runsTo_of_error {f : Failure} (h : i.settings standardPath files env = .error f)
    (version : Int64) (answer : List Request → Reply) :
    RunsTo (Exchange.run answer (i.execute standardPath files env version)) [] f.exitCode := by
  rw [execute_eq_failed h version]
  exact ⟨rfl, rfl⟩

theorem execute_of_ok {st : Settings} (h : i.settings standardPath files env = .ok st)
    (version : Int64) : i.execute standardPath files env version = i.perform st version := by
  rw [execute, h]

/-- The program does what the relation says. -/
theorem Ends.runsTo (hjson : i.format = .json) {requests : List Request} {code : Nat}
    (h : i.Ends standardPath files env version answer requests code) :
    RunsTo (Exchange.run answer (i.execute standardPath files env version)) requests code := by
  have hperform : ∀ {st : Settings}, i.Holds standardPath files env st →
      i.command = .config ∨ st.IsUsable →
      i.execute standardPath files env version = i.perform st version :=
    fun hst husable => execute_of_ok (settings_of_isUsable hst husable) version
  cases h with
  | lost h =>
    obtain ⟨f, hf, hcode⟩ := settings_of_lost h env
    exact hcode ▸ runsTo_of_error hf version answer
  | config hst h =>
    rw [hperform hst (.inl h)]
    exact runsTo_config answer hjson h
  | unusable hst h husable =>
    obtain ⟨f, hf, hcode⟩ := settings_of_not_isUsable hst h husable
    exact hcode ▸ runsTo_of_error hf version answer
  | badFilter hst husable h hfilters =>
    rw [hperform hst (.inr husable)]
    exact runsTo_badFilter answer h hfilters
  | url hst husable h hfilters =>
    rw [hperform hst (.inr husable)]
    exact runsTo_url answer hjson h hfilters
  | search hst husable h hq hends =>
    rw [hperform hst (.inr husable)]
    exact runsTo_search answer hjson h hq hends
  | delete hst husable h hends =>
    rw [hperform hst (.inr husable)]
    exact runsTo_delete answer hjson h hends

/-- The program ends in one of these ways. -/
theorem exists_ends (i : Invocation) (standardPath : String) (files : String → FileContent)
    (env : String → Option String) (version : Int64) (answer : List Request → Reply) :
    ∃ requests code, i.Ends standardPath files env version answer requests code := by
  -- the cases are split in the order in which the program checks
  rcases lost_or_holds i standardPath files env with hlost | ⟨st, hst⟩
  · exact ⟨_, _, .lost hlost⟩
  · by_cases husable : st.IsUsable
    · cases hcommand : i.command with
      | config => exact ⟨_, _, .config hst hcommand⟩
      | url o =>
        by_cases hfilters : o.HasValidFilters
        · exact ⟨_, _, .url hst husable hcommand hfilters⟩
        · exact ⟨_, _, .badFilter hst husable (.inl hcommand) hfilters⟩
      | search o =>
        by_cases hfilters : o.HasValidFilters
        · obtain ⟨q, hq⟩ := (exists_searchOf_eq_ok_iff o).mpr hfilters
          exact ⟨_, _, .search hst husable hcommand hq
            (Client.searchEnds_iff (s := hitSchema).mpr rfl)⟩
        · exact ⟨_, _, .badFilter hst husable (.inr hcommand) hfilters⟩
      | delete id => exact ⟨_, _, .delete hst husable hcommand (Client.deleteEnds_iff.mpr rfl)⟩
    · by_cases hcommand : i.command = .config
      · exact ⟨_, _, .config hst hcommand⟩
      · exact ⟨_, _, .unusable hst hcommand husable⟩

/-- Only settings that hold and can be used are ever worked with, and one request is sent at
most. -/
theorem Ends.contacts {requests : List Request} {code : Nat}
    (h : i.Ends standardPath files env version answer requests code) :
    requests = [] ∨ ∃ st, i.Holds standardPath files env st ∧ st.IsUsable ∧
      ((∃ q, requests = [.get (st.searchUrl q)]) ∨
        ∃ body, requests = [.post st.documentAddress body]) := by
  cases h with
  | search hst husable => exact .inr ⟨_, hst, husable, .inl ⟨_, rfl⟩⟩
  | delete hst husable => exact .inr ⟨_, hst, husable, .inr ⟨_, rfl⟩⟩
  | _ => exact .inl rfl

/-- **What the program sends and how it ends.**  It goes one of the ways of `Ends` and no other.
Nothing is sent but to the domain of settings that can be used, and what is posted is the one
deletion. -/
theorem execute_ends (hjson : i.format = .json) :
    let run := Exchange.run answer (i.execute standardPath files env version)
    (∀ requests code, i.Ends standardPath files env version answer requests code ↔
      run.requests = requests ∧ run.result.exitCode = code) ∧
    (run.requests = [] ∨ ∃ st, i.Holds standardPath files env st ∧ st.IsUsable ∧
      ((∃ q, run.requests = [.get (st.searchUrl q)]) ∨
        ∃ body, run.requests = [.post st.documentAddress body])) ∧
    (∀ (st : Settings) (q : Search), st.searchUrl q = st.scheme ++ "://search-" ++ st.domain ++
      "/" ++ st.apiVersion ++ "/search?" ++ (st.restrict q).queryString) ∧
    (∀ st : Settings, st.documentAddress = st.scheme ++ "://doc-" ++ st.domain ++ "/" ++
      st.apiVersion ++ "/documents/batch") ∧
    ∀ id, batchOfBody (batchText [.delete version id]) =
      some [⟨.delete, id, version, none, none⟩] := by
  intro run
  obtain ⟨requests, code, hends⟩ := exists_ends i standardPath files env version answer
  obtain ⟨hrequests, hcode⟩ : RunsTo run requests code := hends.runsTo hjson
  refine ⟨fun requests code => ⟨fun h => ?_, ?_⟩, ?_, Settings.searchUrl_eq,
    Settings.documentAddress_eq, fun id => ?_⟩
  · obtain ⟨hrequests, hcode⟩ : RunsTo run requests code := h.runsTo hjson
    exact ⟨hrequests, hcode⟩
  · rintro ⟨rfl, rfl⟩
    rwa [hrequests, hcode]
  · rw [hrequests]
    exact hends.contacts
  · refine batchOfBody_batchText fun a ha => ?_
    rw [List.mem_singleton.mp ha]
    exact Action.hasExactFields_delete version id

/-- A deletion, with the domain of the command line. -/
def deletion (domain : Option String) : Invocation := ⟨none, domain, .json, false, 0, .delete "m1"⟩

/-- An environment that names a domain. -/
def namesMovies (name : String) : Option String :=
  if name = "CLOUDSEARCH_ID" then some "movies" else none

/-- A blank domain on the command line counts, though the environment names another one.  Without
it the deletion is sent there, and its failure has not the code that a search would have. -/
theorem execute_ends_deletion :
    ((deletion (some " ")).format = .json ∧
      (deletion (some " ")).Ends "" (fun _ => .absent) namesMovies 1
        (fun _ => .error ⟨.http, "timed out"⟩) [] 2) ∧
    (deletion none).format = .json ∧
      (deletion none).Ends "" (fun _ => .absent) namesMovies 1
        (fun _ => .error ⟨.http, "timed out"⟩)
        [.post "http://doc-movies/2011-02-01/documents/batch"
          "[\x7b\"type\":\"delete\",\"id\":\"m1\",\"version\":1\x7d]"] 4 :=
  ⟨⟨rfl, ((execute_ends rfl).1 [] 2).mpr ⟨rfl, rfl⟩⟩,
    rfl, ((execute_ends rfl).1 _ 4).mpr ⟨by decide, rfl⟩⟩

/-- A search in a domain of the command line. -/
def onMovies : Invocation := ⟨none, some "movies", .json, false, 0, .search SearchOptions.none⟩

/-- A connection may fail in another way than to make a request or to get an answer, and then the
search does not end in success. -/
theorem execute_onMovies_cut :
    let run := Exchange.run (fun _ => .error ⟨.io, "cable cut"⟩)
      (onMovies.execute "" (fun _ => .absent) (fun _ => none) 1)
    run.requests = [.get "http://search-movies/2011-02-01/search?start=0"] ∧
      run.result.exitCode = 1 := by
  decide

end Program

end Invocation
end DocSearch
