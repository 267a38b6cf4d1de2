/-
# What is left of a raw query

A raw query may come with loose signs around it: blanks, the question mark in front of a query
string, ampersands to other parameters.  They are taken off one kind after the other, and each kind
once: blanks at both ends, then question marks in front, then ampersands at both ends.  So what is
taken off has a fixed shape (`IsWrapped`), and only ampersands are certain to be gone from both ends
of what is left.  A blank or a question mark behind an ampersand comes to the front and stays there.

Trimming is complete when taking off more would change nothing (`IsSettled`).  It is complete
exactly for the raw queries in which the loose signs stand in the order in which they are taken off
(`IsTidy`), and `IsClean` is the condition on what is left that both of these come down to.

Main statements: `trimRaw_eq_self_iff`, `trimRaw_of_isWrapped`, `isSettled_iff_isTidy`.
-/
import DocSearch.Proofs.Request.QueryString

namespace DocSearch
namespace Search

open Text

/-! ## 1. Loose signs -/

/-- Whether a character is a question mark. -/
def isMark (c : Char) : Bool := decide (c = '?')

/-- Whether a character is an ampersand. -/
def isAmpersand (c : Char) : Bool := decide (c = '&')

/-- Whether a character may stand loose around a raw query. -/
def isLoose (c : Char) : Bool := isBlank c || isMark c || isAmpersand c

theorem trimRaw_eq (cs : List Char) :
    trimRaw cs = trimWhere isAmpersand ((trimWhere isBlank cs).dropWhile isMark) := rfl

theorem eq_of_isMark {c : Char} (h : isMark c = true) : c = '?' := of_decide_eq_true h

theorem eq_of_isAmpersand {c : Char} (h : isAmpersand c = true) : c = '&' := of_decide_eq_true h

/-- A text has no loose sign at its ends: no blank and no ampersand at either, and no question mark
in front. -/
structure IsClean (cs : List Char) : Prop where
  blank_start : StopsAt isBlank cs
  blank_stop : StopsAt isBlank cs.reverse
  mark_start : StopsAt isMark cs
  ampersand_start : StopsAt isAmpersand cs
  ampersand_stop : StopsAt isAmpersand cs.reverse

theorem isClean_nil : IsClean [] :=
  ⟨stopsAt_nil _, stopsAt_nil _, stopsAt_nil _, stopsAt_nil _, stopsAt_nil _⟩

/-- **The texts that stay as they are** are those without loose signs. -/
theorem trimRaw_eq_self_iff {cs : List Char} : trimRaw cs = cs ↔ IsClean cs := by
  constructor
  · intro h
    -- No step may make the text shorter, so each of them leaves it alone.
    have hblank := trimWhere_sublist isBlank cs
    have hmark := List.dropWhile_sublist (l := trimWhere isBlank cs) isMark
    have hamp := trimWhere_sublist isAmpersand ((trimWhere isBlank cs).dropWhile isMark)
    rw [← trimRaw_eq, h] at hamp
    have hblankSelf : trimWhere isBlank cs = cs :=
      hblank.eq_of_length_le (hamp.trans hmark).length_le
    rw [hblankSelf] at hmark hamp
    have hmarkSelf : cs.dropWhile isMark = cs := hmark.eq_of_length_le hamp.length_le
    have hampSelf : trimWhere isAmpersand cs = cs := by
      rwa [trimRaw_eq, hblankSelf, hmarkSelf] at h
    obtain ⟨hstart, hstop⟩ := trimWhere_eq_self_iff.mp hblankSelf
    obtain ⟨hstart', hstop'⟩ := trimWhere_eq_self_iff.mp hampSelf
    exact ⟨hstart, hstop, dropWhile_eq_self_iff.mp hmarkSelf, hstart', hstop'⟩
  · intro h
    rw [trimRaw_eq, trimWhere_eq_self_iff.mpr ⟨h.blank_start, h.blank_stop⟩,
      dropWhile_eq_self_iff.mpr h.mark_start,
      trimWhere_eq_self_iff.mpr ⟨h.ampersand_start, h.ampersand_stop⟩]

/-! ## 2. What is taken off -/

/-- The text stands between loose signs, in the order in which these are taken off: blanks, question
marks and ampersands in front of it, ampersands and blanks behind. -/
inductive IsWrapped (core : List Char) : List Char → Prop where
  | wrap {blanks marks ampersands ampersands' blanks' : List Char}
      (hblanks : ∀ c ∈ blanks, isBlank c = true) (hmarks : ∀ c ∈ marks, isMark c = true)
      (hampersands : ∀ c ∈ ampersands, isAmpersand c = true)
      (hampersands' : ∀ c ∈ ampersands', isAmpersand c = true)
      (hblanks' : ∀ c ∈ blanks', isBlank c = true) :
      IsWrapped core (blanks ++ (marks ++ (ampersands ++ core ++ ampersands')) ++ blanks')

/-- **Nothing but loose signs is taken off**, and these in their order. -/
theorem isWrapped_trimRaw (cs : List Char) : IsWrapped (trimRaw cs) cs := by
  obtain ⟨blanks, blanks', hcs, hblanks, hblanks'⟩ := exists_eq_trimWhere isBlank cs
  obtain ⟨ampersands, ampersands', hinner, hampersands, hampersands'⟩ :=
    exists_eq_trimWhere isAmpersand ((trimWhere isBlank cs).dropWhile isMark)
  have hmarks : ∀ c ∈ (trimWhere isBlank cs).takeWhile isMark, isMark c = true :=
    List.all_eq_true.mp List.all_takeWhile
  have hwrap : IsWrapped (trimRaw cs) _ := .wrap hblanks hmarks hampersands hampersands' hblanks'
  rwa [trimRaw_eq, ← hinner, List.takeWhile_append_dropWhile, ← hcs] at hwrap

/-- A row of one kind has no sign of another kind at its ends. -/
theorem stopsAt_of_kind {p q : Char → Bool} {row : List Char} (hrow : ∀ c ∈ row, q c = true)
    (hpq : ∀ c, q c = true → p c = false) : StopsAt p row ∧ StopsAt p row.reverse :=
  ⟨stopsAt_of_forall fun c hc => hpq c (hrow c hc),
    stopsAt_of_forall fun c hc => hpq c (hrow c (List.mem_reverse.mp hc))⟩

/-- **Loose signs in their order are all taken off** a clean text. -/
theorem trimRaw_of_isWrapped {core cs : List Char} (h : IsWrapped core cs) (hcore : IsClean core) :
    trimRaw cs = core := by
  cases h with
  | @wrap blanks marks ampersands ampersands' blanks' hblanks hmarks hampersands hampersands'
      hblanks' =>
    have hmarkBlank : ∀ c, isMark c = true → isBlank c = false := fun c hc => by
      rw [eq_of_isMark hc]
      decide
    have hampBlank : ∀ c, isAmpersand c = true → isBlank c = false := fun c hc => by
      rw [eq_of_isAmpersand hc]
      decide
    have hampMark : ∀ c, isAmpersand c = true → isMark c = false := fun c hc => by
      rw [eq_of_isAmpersand hc]
      decide
    obtain ⟨hm, hm'⟩ := stopsAt_of_kind hmarks hmarkBlank
    obtain ⟨ha, ha'⟩ := stopsAt_of_kind hampersands hampBlank
    obtain ⟨hb, hb'⟩ := stopsAt_of_kind hampersands' hampBlank
    have hstart : StopsAt isBlank (marks ++ (ampersands ++ core ++ ampersands')) :=
      hm.append ((ha.append hcore.blank_start).append hb)
    have hstop : StopsAt isBlank (marks ++ (ampersands ++ core ++ ampersands')).reverse := by
      simp only [List.reverse_append]
      exact (hb'.append (hcore.blank_stop.append ha')).append hm'
    have hmarkStart : StopsAt isMark (ampersands ++ core ++ ampersands') :=
      ((stopsAt_of_kind hampersands hampMark).1.append hcore.mark_start).append
        (stopsAt_of_kind hampersands' hampMark).1
    rw [trimRaw_eq, trimWhere_of_ends hstart hstop hblanks hblanks',
      dropWhile_append_stop hmarks hmarkStart,
      trimWhere_of_ends hcore.ampersand_start hcore.ampersand_stop hampersands hampersands']

/-- A clean text between loose signs that stand in their order. -/
def IsTidy (cs : List Char) : Prop := ∃ core, IsWrapped core cs ∧ IsClean core

theorem isTidy_iff {cs : List Char} : IsTidy cs ↔ IsClean (trimRaw cs) := by
  constructor
  · rintro ⟨core, hwrapped, hcore⟩
    rwa [trimRaw_of_isWrapped hwrapped hcore]
  · intro h
    exact ⟨trimRaw cs, isWrapped_trimRaw cs, h⟩

/-! ## 3. The query string -/

theorem rawParam_eq_none_iff {raw : String} : rawParam raw = none ↔ trimRaw raw.toList = [] := by
  simp [rawParam]

/-- Only what is left of a raw query gets into the query string. -/
theorem queryString_congr_raw {raw other : String} (h : rawParam raw = rawParam other)
    (s : Search) :
    ({ s with raw := some raw } : Search).queryString =
      ({ s with raw := some other } : Search).queryString := by
  simp only [queryString, parameters, selection, h]

/-- Where nothing is left of a raw query, the search has no selection. -/
theorem queryString_of_nothing {raw : String} (h : rawParam raw = none) (s : Search) :
    ({ s with raw := some raw } : Search).queryString =
      ({ s with raw := none, keyword := none, filter := .empty } : Search).queryString := by
  simp only [queryString, parameters, selection, h]
  rfl

theorem isWellFormed_queryString {s : Search} (h : s.raw = none) :
    Query.IsWellFormed s.queryString := by
  rw [queryString, parameters_eq h]
  exact Query.isWellFormed_queryText (by simp [PairGroups.all, pairGroups])
    (isPair_of_mem_pairGroups s)

/-- What is left of a raw query. -/
def remainder (raw : String) : String := String.ofList (trimRaw raw.toList)

/-- Trimming a raw query is complete.  What is left has no loose sign at its ends, is left alone
when it is trimmed again, and so may take the place of the raw query; and of loose signs nothing is
left, so that they bring no parameter into the query string. -/
structure IsSettled (raw : String) : Prop where
  clean : IsClean (remainder raw).toList
  again : rawParam (remainder raw) = rawParam raw
  splice : ∀ s : Search, ({ s with raw := some (remainder raw) } : Search).queryString =
    ({ s with raw := some raw } : Search).queryString
  nothing : (∀ c ∈ raw.toList, isLoose c = true) → rawParam raw = none ∧ ∀ s : Search,
    ({ s with raw := some raw } : Search).queryString =
      ({ s with raw := none, keyword := none, filter := .empty } : Search).queryString ∧
    Query.IsWellFormed ({ s with raw := some raw } : Search).queryString

/-- A clean text of loose signs is empty. -/
theorem IsClean.eq_nil_of_isLoose {cs : List Char} (h : IsClean cs)
    (hloose : ∀ c ∈ cs, isLoose c = true) : cs = [] := by
  cases cs with
  | nil => rfl
  | cons c cs =>
    have hc := hloose c List.mem_cons_self
    rw [isLoose, h.blank_start c rfl, h.mark_start c rfl, h.ampersand_start c rfl] at hc
    cases hc

theorem isSettled_of_isClean {raw : String} (h : IsClean (trimRaw raw.toList)) :
    IsSettled raw := by
  have hagain : rawParam (remainder raw) = rawParam raw := by
    rw [rawParam, rawParam, remainder, String.toList_ofList, trimRaw_eq_self_iff.mpr h]
  refine ⟨?_, hagain, queryString_congr_raw hagain, fun hloose => ?_⟩
  · rwa [remainder, String.toList_ofList]
  · have hsub : ∀ c ∈ trimRaw raw.toList, isLoose c = true := fun c hc => by
      refine hloose c ?_
      rw [trimRaw_eq] at hc
      exact (trimWhere_sublist _ _).mem
        ((List.dropWhile_sublist _).mem ((trimWhere_sublist _ _).mem hc))
    have hnone : rawParam raw = none := rawParam_eq_none_iff.mpr (h.eq_nil_of_isLoose hsub)
    refine ⟨hnone, fun s => ?_⟩
    rw [queryString_of_nothing hnone s]
    exact ⟨rfl, isWellFormed_queryString rfl⟩

/-- **Trimming a raw query is complete exactly when its loose signs stand in the order in which they
are taken off.**  Of every raw query, nothing but loose signs in that order is taken off; no
ampersand is left at either end; and nothing is left at all exactly of loose signs in their
order. -/
theorem isSettled_iff_isTidy (raw : String) :
    (IsSettled raw ↔ IsTidy raw.toList) ∧ IsWrapped (remainder raw).toList raw.toList ∧
      StopsAt isAmpersand (remainder raw).toList ∧
      StopsAt isAmpersand (remainder raw).toList.reverse ∧
      (rawParam raw = none ↔ IsWrapped [] raw.toList) := by
  have hremainder : (remainder raw).toList = trimRaw raw.toList := String.toList_ofList
  obtain ⟨hstart, hstop⟩ :=
    stopsAt_trimWhere isAmpersand ((trimWhere isBlank raw.toList).dropWhile isMark)
  rw [hremainder, rawParam_eq_none_iff]
  refine ⟨⟨fun h => ?_, fun h => isSettled_of_isClean (isTidy_iff.mp h)⟩,
    isWrapped_trimRaw raw.toList, hstart, hstop, fun h => ?_,
    fun h => trimRaw_of_isWrapped h isClean_nil⟩
  · rw [isTidy_iff, ← hremainder]
    exact h.clean
  · rw [← h]
    exact isWrapped_trimRaw raw.toList

/-- A question mark between ampersands comes to the front and is taken for a query. -/
theorem not_isSettled_mark :
    (∀ c ∈ "&?&".toList, isLoose c = true) ∧ rawParam "&?&" = some "?" ∧ rawParam "?" = none ∧
      ¬ IsSettled "&?&" := by
  have hloose : ∀ c ∈ "&?&".toList, isLoose c = true := List.all_eq_true.mp (by decide)
  refine ⟨hloose, by decide, by decide, fun h => ?_⟩
  exact absurd (h.nothing hloose).1 (by decide)

end Search
end DocSearch
