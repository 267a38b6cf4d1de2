/-
# The two ways to search

A search may be asked to put what went wrong into its result, or to fail on it.  Both send the same
request and read the reply the same way; they differ in what they do with a failure and with an
error that the service reports.  `Agree` says, for each kind of reply, what the two give.

The way that fails goes by the mark of the result and by its text of an error, and has a text ready
for a marked result without one.  There is no such result: an answer is marked exactly when it
reports an error, and then that is the text (`isSound_ofEnvelope`).

Main statements: `agree`, `search_trySearch`.
-/
import DocSearch.Client
import DocSearch.Proofs.Json.Members
import DocSearch.Proofs.Reply.Errors

namespace DocSearch

open Json (Spells)

namespace Client

variable {s : Schema}

open SearchResult (Reports ReportsNone)

/-- What comes of a reply, for a search that may fail and for one that may not. -/
inductive Agree : Reply → Except Failure (SearchResult s) → SearchResult s → Prop where
  | noReply (f : Failure) :
      Agree (.error f) (.error f) (.failed ("An error occurred: " ++ f.message))
  | noObject {body : String} {f : Failure} (h : ∀ e, ¬ Spells body e)
      (kind : f.kind = .malformedResponse) :
      Agree (.ok body) (.error f) (.failed ("An error occurred: " ++ f.message))
  | reported {body m : String} {e : Json} {r : SearchResult s} (h : Spells body e)
      (reports : Reports e m) (decoded : r = .ofEnvelope e) (marked : r.isError = true)
      (error : r.error = some m) (hits : r.hits = []) : Agree (.ok body) (.error ⟨.service, m⟩) r
  | answered {body : String} {e : Json} {r : SearchResult s} (h : Spells body e)
      (none : ReportsNone e) (decoded : r = .ofEnvelope e) (unmarked : r.isError = false) :
      Agree (.ok body) (.ok r) r

theorem agree_object {body : String} {members : List (String × Json)}
    (h : Json.parse body = some (.obj members)) :
    Agree (.ok body) (strictSearch (readReply (.ok body)) : Except Failure (SearchResult s))
      (settleSearch (readReply (.ok body))) := by
  have hread : readReply (.ok body) = .ok (.ofEnvelope (.obj members) : SearchResult s) :=
    SearchResult.ofBody_of_parse h
  have hspells : Spells body (.obj members) := ⟨h, rfl⟩
  rw [hread, settleSearch]
  rcases SearchResult.reports_or_reportsNone (.obj members) with ⟨m, hm⟩ | hnone
  · have herror : (.ofEnvelope (.obj members) : SearchResult s).error = some m :=
      SearchResult.errorOf_of_reports hm
    have hsound := SearchResult.isSound_ofEnvelope (s := s) (.obj members)
    have hmark : (.ofEnvelope (.obj members) : SearchResult s).isError = true :=
      hsound.marked.mpr (by rw [herror, Option.isSome_some])
    have hstrict : strictSearch (.ok (.ofEnvelope (.obj members) : SearchResult s)) =
        .error ⟨.service, m⟩ := by
      simp only [strictSearch, Except.bind, hmark, herror]
    rw [hstrict]
    exact .reported hspells hm rfl hmark herror (hsound.hits hmark)
  · have herror : (.ofEnvelope (.obj members) : SearchResult s).error = none :=
      SearchResult.errorOf_of_reportsNone hnone
    have hmark : (.ofEnvelope (.obj members) : SearchResult s).isError = false := by
      have hsound := (SearchResult.isSound_ofEnvelope (s := s) (.obj members)).marked
      rw [herror] at hsound
      simpa using hsound
    have hstrict : strictSearch (.ok (.ofEnvelope (.obj members) : SearchResult s)) =
        .ok (.ofEnvelope (.obj members)) := by
      simp only [strictSearch, Except.bind, hmark]
    rw [hstrict]
    exact .answered hspells hnone rfl hmark

/-- Whatever the reply is, the two ways agree. -/
theorem agree (reply : Reply) :
    Agree reply (strictSearch (readReply reply) : Except Failure (SearchResult s))
      (settleSearch (readReply reply)) := by
  cases reply with
  | error f => exact .noReply f
  | ok body =>
    by_cases h : ∃ members, Json.parse body = some (.obj members)
    · obtain ⟨members, hmembers⟩ := h
      exact agree_object hmembers
    · obtain ⟨detail, hdetail⟩ := SearchResult.exists_ofBody_eq_error (s := s) fun members hm =>
        h ⟨members, hm⟩
      have hread : readReply (.ok body) =
          (.error ⟨.malformedResponse, detail⟩ : Except Failure (SearchResult s)) := hdetail
      rw [hread]
      refine .noObject ?_ rfl
      intro e he
      obtain ⟨members, rfl, -⟩ := he.exists_members
      exact h ⟨members, he.1⟩

end Client
end DocSearch
