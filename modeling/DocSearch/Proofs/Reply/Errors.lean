/-
# Errors that an answer reports

An answer of the service may report an error in three ways: as a text, as any other value, or by a
status next to remarks.  `Reports` says which text stands for the error in each case, and
`ReportsNone` when there is none; every answer is one or the other.  The reader of answers finds
exactly these texts, whatever value stands for the error and however broken the remarks are.  So a
result is marked exactly when it holds the text of an error.

Main statements: `errorOf_of_reports`, `errorOf_eq_none_iff`, `isSound_ofEnvelope`.
-/
import DocSearch.Reply.Search

namespace DocSearch

/-! ## 1. Errors that the service reports -/

namespace SearchResult

/-- There is nothing under the key, or `null`. -/
def Lacks (key : String) (envelope : Json) : Prop :=
  envelope.get? key = none ∨ envelope.get? key = some .null

/-- The answer reports an error with the text: its `error`, as it is if it is a string and else as
JSON; or, where that is missing and the status is `error`, the text of the first remark, if there
is one. -/
inductive Reports (envelope : Json) : String → Prop where
  | text {m : String} (h : envelope.get? "error" = some (.str m)) : Reports envelope m
  | value {j : Json} (h : envelope.get? "error" = some j) (hnull : j ≠ .null)
      (hstr : ∀ m, j ≠ .str m) : Reports envelope j.compact
  | remark {first : Remark} {others : List Remark} (h : Lacks "error" envelope)
      (hstatus : envelope.get? "status" = some (.str "error"))
      (hremarks : remarksOf envelope = first :: others) : Reports envelope first.text
  | unknown (h : Lacks "error" envelope)
      (hstatus : envelope.get? "status" = some (.str "error"))
      (hremarks : remarksOf envelope = []) : Reports envelope "unknown error"

/-- The answer reports no error. -/
structure ReportsNone (envelope : Json) : Prop where
  error : Lacks "error" envelope
  status : envelope.get? "status" ≠ some (.str "error")

variable {envelope : Json}

theorem part?_of_lacks {key : String} (h : Lacks key envelope) :
    part? some key envelope = none := by
  rcases h with h | h <;> rw [part?, h]

theorem part?_of_ne_null {key : String} {j : Json} (h : envelope.get? key = some j)
    (hnull : j ≠ .null) : part? some key envelope = some j := by
  rw [part?, h]
  cases j with
  | null => exact absurd rfl hnull
  | _ => rfl

/-- Every answer reports one error or none. -/
theorem reports_or_reportsNone (envelope : Json) :
    (∃ m, Reports envelope m) ∨ ReportsNone envelope := by
  by_cases h : Lacks "error" envelope
  · by_cases hstatus : envelope.get? "status" = some (.str "error")
    · cases hremarks : remarksOf envelope with
      | nil => exact .inl ⟨_, .unknown h hstatus hremarks⟩
      | cons first others => exact .inl ⟨_, .remark h hstatus hremarks⟩
    · exact .inr ⟨h, hstatus⟩
  · obtain ⟨hnone, hnull⟩ := not_or.mp h
    obtain ⟨j, hj⟩ := Option.ne_none_iff_exists'.mp hnone
    rw [hj] at hnull
    have hnull : j ≠ .null := fun e => hnull (congrArg some e)
    by_cases hstr : ∃ m, j = .str m
    · obtain ⟨m, rfl⟩ := hstr
      exact .inl ⟨m, .text hj⟩
    · exact .inl ⟨j.compact, .value hj hnull fun m hm => hstr ⟨m, hm⟩⟩

theorem errorOf_of_reports {m : String} (h : Reports envelope m) : errorOf envelope = some m := by
  cases h with
  | text h => rw [errorOf, part?_of_ne_null h (by simp)]
  | value h hnull hstr =>
    rename_i j
    rw [errorOf, part?_of_ne_null h hnull]
    cases j with
    | str m => exact absurd rfl (hstr m)
    | _ => rfl
  | remark h hstatus hremarks =>
    simp only [errorOf, part?_of_lacks h, hstatus, hremarks, List.head?_cons, Option.map_some,
      Option.getD_some]
  | unknown h hstatus hremarks =>
    simp only [errorOf, part?_of_lacks h, hstatus, hremarks, List.head?_nil, Option.map_none,
      Option.getD_none]

theorem errorOf_of_reportsNone (h : ReportsNone envelope) : errorOf envelope = none := by
  simp only [errorOf, part?_of_lacks h.error]
  split
  · rename_i hstatus
    exact absurd hstatus h.status
  · rfl

/-- No answer does both. -/
theorem Reports.not_reportsNone {m : String} (h : Reports envelope m) : ¬ ReportsNone envelope := by
  intro hnone
  have herror := errorOf_of_reports h
  rw [errorOf_of_reportsNone hnone] at herror
  cases herror

theorem errorOf_eq_none_iff : errorOf envelope = none ↔ ReportsNone envelope := by
  refine ⟨fun h => ?_, errorOf_of_reportsNone⟩
  rcases reports_or_reportsNone envelope with ⟨n, hn⟩ | hnone
  · rw [errorOf_of_reports hn] at h
    cases h
  · exact hnone

/-! ## 2. Marks and hits -/

variable {s : Schema}

/-- The result is marked exactly when it holds the text of an error, and then it has no hits. -/
structure IsSound (r : SearchResult s) : Prop where
  marked : r.isError = true ↔ r.error.isSome = true
  hits : r.isError = true → r.hits = []

theorem isSound_ofEnvelope (envelope : Json) : (ofEnvelope envelope : SearchResult s).IsSound where
  marked := Iff.rfl
  hits := hits_ofEnvelope_of_error

end SearchResult
end DocSearch
