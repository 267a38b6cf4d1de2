/-
# Query strings taken apart

A query string is a row of pieces between ampersands, and a piece is a name and a value around
the first equals sign.  When names and values hold neither of the two signs, the pairs that went
into a query string come out again, and the string has no empty piece: it does not begin or end
with an ampersand and has no two of them in a row.

Main statements: `pairs_queryText`, `isWellFormed_queryText`.
-/
import DocSearch.Proofs.Text.Percent
import DocSearch.Proofs.Text.Split

namespace DocSearch
namespace Query

/-! ## 1. The reader -/

/-- The pieces of a query string, between ampersands. -/
def pieces (query : String) : List (List Char) := query.toList.splitOn '&'

/-- The name and the value of a piece, around its first equals sign. -/
def pair? (piece : List Char) : Option (String × String) :=
  (Text.splitOnce ['='] piece).map fun sides => (String.ofList sides.1, String.ofList sides.2)

/-- The names and values of a query string, if every piece has an equals sign. -/
def pairs (query : String) : Option (List (String × String)) := (pieces query).mapM pair?

/-- The piece of a name and a value. -/
def piece (pair : String × String) : String := pair.1 ++ "=" ++ pair.2

/-- The query string of names and values. -/
def queryText (ps : List (String × String)) : String := String.intercalate "&" (ps.map piece)

/-! ## 2. The alphabet -/

/-- The characters of query strings. -/
def isQueryChar (c : Char) : Bool :=
  c.isAlphanum || ['-', '_', '.', '~', '%', '\'', '(', ')', '+', ',', '=', '&'].contains c

/-- The characters of names and values in query strings. -/
def isPartChar (c : Char) : Bool := isQueryChar c && c ≠ '=' && c ≠ '&'

/-- A text that may stand as a name or a value. -/
def IsPart (t : String) : Prop := ∀ c ∈ t.toList, isPartChar c = true

instance (t : String) : Decidable (IsPart t) :=
  decidable_of_iff (t.toList.all isPartChar = true) List.all_eq_true

theorem isPart_append {s t : String} (hs : IsPart s) (ht : IsPart t) : IsPart (s ++ t) := by
  intro c hc
  rw [String.toList_append, List.mem_append] at hc
  rcases hc with hc | hc
  · exact hs c hc
  · exact ht c hc

theorem isPart_intercalate {sep : String} {parts : List String} (hsep : IsPart sep)
    (hparts : ∀ part ∈ parts, IsPart part) : IsPart (String.intercalate sep parts) := by
  intro c hc
  rcases Text.mem_intercalate hc with hc | ⟨part, hpart, hc⟩
  · exact hsep c hc
  · exact hparts part hpart c hc

theorem isPartChar_of_isAlphanum {c : Char} (h : c.isAlphanum = true) : isPartChar c = true := by
  have heq : c ≠ '=' := by
    rintro rfl
    exact absurd h (by decide)
  have hamp : c ≠ '&' := by
    rintro rfl
    exact absurd h (by decide)
  simp [isPartChar, isQueryChar, h, heq, hamp]

theorem isPartChar_of_isEscaped {c : Char} (h : Text.isEscaped c = true) :
    isPartChar c = true := by
  simp only [Text.isEscaped, Text.isUnreserved, Bool.or_eq_true, decide_eq_true_eq] at h
  rcases h with ((((h | rfl) | rfl) | rfl) | rfl) | rfl
  · exact isPartChar_of_isAlphanum h
  all_goals decide

/-- An encoded text may stand as a name or a value, whatever was encoded. -/
theorem isPart_escape (s : String) : IsPart (Text.escape s) :=
  fun _ hc => isPartChar_of_isEscaped (Text.mem_escape hc)

/-- A name that is not empty, and a value. -/
structure IsPair (pair : String × String) : Prop where
  named : pair.1 ≠ ""
  name : IsPart pair.1
  value : IsPart pair.2

/-! ## 3. Pieces -/

theorem toList_piece (pair : String × String) :
    (piece pair).toList = pair.1.toList ++ '=' :: pair.2.toList := by
  simp [piece]

theorem isQueryChar_of_isPartChar {c : Char} (h : isPartChar c = true) : isQueryChar c = true := by
  simp only [isPartChar, Bool.and_eq_true] at h
  exact h.1.1

theorem IsPart.not_mem_equals {t : String} (h : IsPart t) : '=' ∉ t.toList :=
  fun hc => absurd (h _ hc) (by decide)

theorem IsPart.not_mem_ampersand {t : String} (h : IsPart t) : '&' ∉ t.toList :=
  fun hc => absurd (h _ hc) (by decide)

/-- A name ends at the first equals sign. -/
theorem pair?_piece {pair : String × String} (h : IsPair pair) :
    pair? (piece pair).toList = some pair := by
  have hsplit := Text.splitOnce_append [] h.name.not_mem_equals pair.2.toList
  rw [List.append_assoc, List.singleton_append] at hsplit
  rw [pair?, toList_piece, hsplit]
  simp

theorem count_equals_piece {pair : String × String} (h : IsPair pair) :
    (piece pair).toList.count '=' = 1 := by
  rw [toList_piece, List.count_append, List.count_cons_self,
    List.count_eq_zero.mpr h.name.not_mem_equals, List.count_eq_zero.mpr h.value.not_mem_equals]

theorem not_mem_ampersand_piece {pair : String × String} (h : IsPair pair) :
    '&' ∉ (piece pair).toList := by
  rw [toList_piece, List.mem_append, List.mem_cons]
  rintro (hc | hc | hc)
  · exact h.name.not_mem_ampersand hc
  · exact absurd hc (by decide)
  · exact h.value.not_mem_ampersand hc

/-! ## 4. Query strings -/

/-- **Splitting finds the pieces that were joined.** -/
theorem pieces_queryText {ps : List (String × String)} (hne : ps ≠ [])
    (h : ∀ pair ∈ ps, IsPair pair) :
    pieces (queryText ps) = ps.map fun pair => (piece pair).toList := by
  have hsep : "&".toList = ['&'] := rfl
  rw [pieces, queryText, String.toList_intercalate, hsep, List.map_map]
  refine List.splitOn_intercalate '&' ?_ (by simpa using hne)
  intro l hl
  obtain ⟨pair, hpair, rfl⟩ := List.mem_map.mp hl
  exact not_mem_ampersand_piece (h pair hpair)

/-- **The pairs of a query string are those it was made of.** -/
theorem pairs_queryText {ps : List (String × String)} (hne : ps ≠ [])
    (h : ∀ pair ∈ ps, IsPair pair) : pairs (queryText ps) = some ps := by
  rw [pairs, pieces_queryText hne h]
  exact Text.mapM_map_eq_some fun pair hpair => pair?_piece (h pair hpair)

/-- A query string that nothing can be slipped into: every piece is a name and a value, no piece
is empty, and every character is in the alphabet. -/
structure IsWellFormed (query : String) : Prop where
  one_equals : ∀ p ∈ pieces query, p.count '=' = 1
  named : ∀ p ∈ pieces query, ∀ pair ∈ pair? p, pair.1 ≠ ""
  start : ¬ ['&'] <+: query.toList
  stop : ¬ ['&'] <:+ query.toList
  inside : ¬ ['&', '&'] <:+: query.toList
  alphabet : ∀ c ∈ query.toList, isQueryChar c = true

/-- An ampersand at either end, or next to another, leaves an empty piece. -/
theorem ampersands_of_pieces {query : String} (h : [] ∉ pieces query) :
    ¬ ['&'] <+: query.toList ∧ ¬ ['&'] <:+ query.toList ∧ ¬ ['&', '&'] <:+: query.toList := by
  refine ⟨?_, ?_, ?_⟩
  · rintro ⟨behind, hquery⟩
    refine h ?_
    rw [pieces, ← hquery]
    have hsplit := List.splitOn_append_cons_self (a := '&') [] behind
    rw [List.nil_append] at hsplit
    rw [List.singleton_append, hsplit]
    simp
  · rintro ⟨before, hquery⟩
    refine h ?_
    rw [pieces, ← hquery, List.splitOn_append_cons_self]
    simp
  · rintro ⟨before, behind, hquery⟩
    refine h ?_
    have hsplit := List.splitOn_append_cons_self (a := '&') [] behind
    rw [List.nil_append] at hsplit
    rw [pieces, ← hquery, List.append_assoc, List.cons_append, List.singleton_append,
      List.splitOn_append_cons_self, hsplit]
    simp

/-- **A query string of names and values is well formed.** -/
theorem isWellFormed_queryText {ps : List (String × String)} (hne : ps ≠ [])
    (h : ∀ pair ∈ ps, IsPair pair) : IsWellFormed (queryText ps) := by
  have hpieces : ∀ p ∈ pieces (queryText ps), ∃ pair ∈ ps, (piece pair).toList = p := by
    intro p hp
    rw [pieces_queryText hne h] at hp
    exact List.mem_map.mp hp
  have hnone : [] ∉ pieces (queryText ps) := by
    intro hnil
    obtain ⟨pair, -, hpair⟩ := hpieces [] hnil
    rw [toList_piece] at hpair
    simp at hpair
  obtain ⟨hstart, hstop, hinside⟩ := ampersands_of_pieces hnone
  refine ⟨?_, ?_, hstart, hstop, hinside, ?_⟩
  · intro p hp
    obtain ⟨pair, hpair, rfl⟩ := hpieces p hp
    exact count_equals_piece (h pair hpair)
  · intro p hp found hfound
    obtain ⟨pair, hpair, rfl⟩ := hpieces p hp
    rw [pair?_piece (h pair hpair), Option.mem_some_iff] at hfound
    subst hfound
    exact (h _ hpair).named
  · intro c hc
    rcases Text.mem_intercalate hc with hc | ⟨text, htext, hc⟩
    · simp only [String.reduceToList, List.mem_singleton] at hc
      subst hc
      decide
    · obtain ⟨pair, hpair, rfl⟩ := List.mem_map.mp htext
      rw [toList_piece, List.mem_append, List.mem_cons] at hc
      rcases hc with hc | rfl | hc
      · exact isQueryChar_of_isPartChar ((h pair hpair).name c hc)
      · decide
      · exact isQueryChar_of_isPartChar ((h pair hpair).value c hc)

end Query
end DocSearch
