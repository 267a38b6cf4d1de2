/-
# Negation, position by position

A condition contributes to a filter at the place where it stands: its operands are put next to
those of its siblings, and the keyword around them all, that of the group or of the bucket,
combines them.  This module compares what a condition contributes with what its negation
contributes at the same place, for every place in every filter.

A place inside a condition is a path down its groups (`Place`), and a place in a filter is a place
inside one of its conditions (`Site`); either can be filled with a condition, and either says how
the value of the whole follows from the contribution of what it is filled with, everything else
unchanged.  That this is the value of the expression is `truth_fill`, by one lemma for the groups
on the path (`combine_fill`).

The negation of a condition is one operand, the complement of the operands combined by the
condition's own conjunction (`exists_forest_negated`).  So negation is complement wherever the own
conjunction is the keyword around the condition, as it always is at the top of a filter, and for a
condition with one operand, which any keyword leaves as it is.  What remains is a list of several
values that stands in a group whose operator is not the conjunction of the list: there the list
contributes its values under the operator, and its negation the complement of its values under the
conjunction.

Main statement: `truth_fill_negated`.
-/
import DocSearch.Proofs.Filter.Meaning

namespace DocSearch

open Expression

/-! ## 1. Contributions -/

namespace Condition

/-- The operands that a condition renders. -/
def operands (c : Condition) : List Node := (Expression.read c.fragment).getD []

/-- What a condition contributes where a keyword stands around it: its operands, combined. -/
def contribution (v : Atom → Bool) (keyword : Conjunction) (c : Condition) : Bool :=
  combine keyword (c.operands.map (Node.eval v))

/-- Whether a condition is a list that renders several operands. -/
def listsSeveral (c : Condition) : Bool := c.isList && decide (1 < c.operands.length)

/-- Whether a condition at the top of a filter lets the filter be true: it renders nothing, or
what it contributes to its bucket is true. -/
def isSatisfied (v : Atom → Bool) (c : Condition) : Bool :=
  c.fragment.isEmpty || c.contribution v c.conjunction

theorem operands_eq_forest (c : Condition) : c.operands = c.forest := by
  rw [operands, fragment_eq_rowText]
  by_cases h : c.forest = []
  · rw [h]
    rfl
  · rw [read_rowText h, Option.getD_some]

theorem contribution_eq (v : Atom → Bool) (keyword : Conjunction) (c : Condition) :
    c.contribution v keyword = combine keyword (c.forest.map (Node.eval v)) := by
  rw [contribution, operands_eq_forest]

theorem forest_ne_nil {c : Condition} (h : c.fragment ≠ "") : c.forest ≠ [] :=
  fun e => h (c.fragment_eq_empty_iff.mpr e)

theorem isSatisfied_iff (v : Atom → Bool) (c : Condition) :
    c.isSatisfied v = true ↔ (c.fragment ≠ "" → c.holds v = true) := by
  rw [isSatisfied, contribution_eq, ← holds, Bool.or_eq_true, String.isEmpty_iff, ne_eq,
    ← Decidable.or_iff_not_imp_left]

end Condition

/-! ## 2. Operands under a keyword -/

namespace Expression

@[simp] theorem combine_singleton (keyword : Conjunction) (b : Bool) : combine keyword [b] = b := by
  cases keyword <;> simp [combine]

/-- Operands may be combined among themselves before the others join them. -/
theorem combine_append (keyword : Conjunction) (bs cs : List Bool) :
    combine keyword (bs ++ cs) = combine keyword (combine keyword bs :: cs) := by
  cases keyword <;> simp [combine]

theorem combine_append_right (keyword : Conjunction) (bs cs : List Bool) :
    combine keyword (bs ++ cs) = combine keyword (bs ++ [combine keyword cs]) := by
  cases keyword <;> simp [combine]

/-- The value of a group of operands that may be negated. -/
def negateIf (negate b : Bool) : Bool := if negate then !b else b

theorem eval_complementWhen (v : Atom → Bool) (negate : Bool) (n : Node) :
    (complementWhen negate n).eval v = negateIf negate (n.eval v) := by
  cases negate <;> rfl

/-- Operands under a keyword are one node, once there are any. -/
theorem exists_under_eq (keyword : Conjunction) {row : List Node} (h : row ≠ []) :
    ∃ n, under keyword row = [n] ∧
      ∀ v : Atom → Bool, n.eval v = combine keyword (row.map (Node.eval v)) := by
  obtain ⟨n, ns, rfl⟩ := List.exists_cons_of_ne_nil h
  exact ⟨.op keyword n ns, rfl, fun v => eval_op v keyword n ns⟩

end Expression

/-! ## 3. Places -/

/-- A place in a condition: the condition itself, or a place in the left or the right part of a
group. -/
inductive Place where
  | here
  | inLeft (inner : Place) (operator : Conjunction) (right : Condition) (flags : Flags)
  | inRight (left : Condition) (operator : Conjunction) (inner : Place) (flags : Flags)

namespace Place

/-- The condition with another one at the place. -/
def fill (c : Condition) : Place → Condition
  | .here => c
  | .inLeft inner operator right flags => .group (inner.fill c) operator right flags
  | .inRight left operator inner flags => .group left operator (inner.fill c) flags

/-- The keyword that encloses a place: the operator of the nearest group, or else the one around
the whole condition. -/
def keyword (around : Conjunction) : Place → Conjunction
  | .here => around
  | .inLeft inner operator _ _ => inner.keyword operator
  | .inRight _ operator inner _ => inner.keyword operator

/-- What the whole condition contributes when the place contributes `b`. -/
def value (v : Atom → Bool) (b : Bool) : Place → Bool
  | .here => b
  | .inLeft inner operator right flags =>
    negateIf flags.negate
      (combine operator (inner.value v b :: right.operands.map (Node.eval v)))
  | .inRight left operator inner flags =>
    negateIf flags.negate
      (combine operator (left.operands.map (Node.eval v) ++ [inner.value v b]))

/-- Groups do not disappear around something that renders. -/
theorem forest_fill_ne_nil {c : Condition} (h : c.forest ≠ []) (p : Place) :
    (p.fill c).forest ≠ [] := by
  cases p with
  | here => exact h
  | inLeft inner operator right flags =>
    have hinner := forest_fill_ne_nil h inner
    obtain ⟨n, hunder, -⟩ := exists_under_eq operator
      (List.append_ne_nil_of_left_ne_nil hinner right.forest)
    simp [fill, Condition.forest, hunder]
  | inRight left operator inner flags =>
    have hinner := forest_fill_ne_nil h inner
    obtain ⟨n, hunder, -⟩ := exists_under_eq operator
      (List.append_ne_nil_of_right_ne_nil left.forest hinner)
    simp [fill, Condition.forest, hunder]

/-- A group says what its operator makes of the operands of its two parts. -/
theorem combine_group (v : Atom → Bool) (around operator : Conjunction) (flags : Flags)
    {left right : Condition} (h : left.forest ++ right.forest ≠ []) :
    combine around ((Condition.group left operator right flags).forest.map (Node.eval v))
      = negateIf flags.negate
          (combine operator (left.forest.map (Node.eval v) ++ right.forest.map (Node.eval v))) := by
  obtain ⟨n, hunder, heval⟩ := exists_under_eq operator h
  rw [Condition.forest, hunder, List.map_singleton, List.map_singleton, combine_singleton,
    eval_complementWhen, heval, List.map_append]

/-- **The contribution of the whole follows from that of the place.**  The induction goes down the
groups on the path: what the keyword of a group makes of all operands is what it makes of those of
the one part, combined, with those of the other. -/
theorem combine_fill (v : Atom → Bool) {c : Condition} (h : c.forest ≠ []) (p : Place)
    (around : Conjunction) :
    combine around ((p.fill c).forest.map (Node.eval v))
      = p.value v (c.contribution v (p.keyword around)) := by
  induction p generalizing around with
  | here => rw [Condition.contribution_eq]; rfl
  | inLeft inner operator right flags ih =>
    have hinner := forest_fill_ne_nil h inner
    rw [fill, combine_group v around operator flags
      (List.append_ne_nil_of_left_ne_nil hinner right.forest), combine_append, ih, value,
      Condition.operands_eq_forest, keyword]
  | inRight left operator inner flags ih =>
    have hinner := forest_fill_ne_nil h inner
    rw [fill, combine_group v around operator flags
      (List.append_ne_nil_of_right_ne_nil left.forest hinner), combine_append_right, ih, value,
      Condition.operands_eq_forest, keyword]

end Place

/-- A place in a filter: a place in one of its conditions, with the others before and after. -/
structure Site where
  before : List Condition
  place : Place
  after : List Condition

namespace Site

/-- The filter with a condition at the place. -/
def fill (c : Condition) (p : Site) : Filter := ⟨p.before ++ p.place.fill c :: p.after⟩

/-- The keyword that encloses a condition at the place: the operator of the nearest group, or else
the keyword of the bucket. -/
def keyword (c : Condition) (p : Site) : Conjunction :=
  p.place.keyword (p.place.fill c).conjunction

/-- The truth of the filter when the place contributes `b`. -/
def value (v : Atom → Bool) (b : Bool) (p : Site) : Bool :=
  p.before.all (Condition.isSatisfied v) && p.place.value v b &&
    p.after.all (Condition.isSatisfied v)

/-- **The truth of a filter follows from the contribution at any place of it.** -/
theorem truth_fill (v : Atom → Bool) {c : Condition} (h : c.fragment ≠ "") (p : Site) :
    Expression.truth v (p.fill c).compile
      = some (p.value v (c.contribution v (p.keyword c))) := by
  have hforest := Condition.forest_ne_nil h
  have hfill : (p.place.fill c).isSatisfied v
      = p.place.value v (c.contribution v (p.keyword c)) := by
    have hne : (p.place.fill c).fragment.isEmpty = false := by
      rw [Condition.fragment_eq_rowText, isEmpty_rowText, List.isEmpty_eq_false_iff]
      exact Place.forest_fill_ne_nil hforest p.place
    rw [Condition.isSatisfied, hne, Bool.false_or, Condition.contribution_eq]
    exact Place.combine_fill v hforest p.place _
  have hall : (p.fill c).normalForm.all (Node.eval v)
      = (p.fill c).conditions.all (Condition.isSatisfied v) := by
    rw [Bool.eq_iff_iff, Filter.eval_normalForm_iff, List.all_eq_true]
    exact forall₂_congr fun d _ => (d.isSatisfied_iff v).symm
  rw [Filter.truth_compile, hall, fill, List.all_append, List.all_cons, hfill, value,
    Bool.and_assoc]

end Site

/-! ## 4. Negation -/

namespace Condition

/-- A negated list is one operand, whatever the number of its values. -/
theorem exists_listForest_negated (atoms : List Atom) {conjunction : Conjunction}
    (h : listForest atoms ⟨conjunction, false⟩ ≠ []) :
    ∃ n, listForest atoms ⟨conjunction, true⟩ = [n] ∧
      ∀ v : Atom → Bool, n.eval v
        = !combine conjunction ((listForest atoms ⟨conjunction, false⟩).map (Node.eval v)) := by
  match atoms with
  | [] => exact absurd rfl h
  | [a] =>
    refine ⟨.not (.atom a), rfl, fun v => ?_⟩
    exact congrArg (!·) (combine_singleton conjunction (v a)).symm
  | a :: b :: atoms =>
    refine ⟨.not (.op conjunction (.atom a) ((b :: atoms).map .atom)), rfl, fun v => ?_⟩
    exact congrArg (!·) (eval_op v conjunction _ _)

/-- **A negated condition is one operand**, the complement of the operands of the condition under
its own conjunction. -/
theorem exists_forest_negated {c : Condition} (hplain : c.flags.negate = false)
    (h : c.forest ≠ []) :
    ∃ n, c.negated.forest = [n] ∧
      ∀ v : Atom → Bool, n.eval v = !combine c.conjunction (c.forest.map (Node.eval v)) := by
  obtain ⟨⟨conjunction, negate⟩, hflags⟩ : ∃ flags, c.flags = flags := ⟨_, rfl⟩
  obtain rfl : negate = false := by rw [hflags] at hplain; exact hplain
  cases c with
  | text field value flags =>
    obtain rfl : flags = ⟨conjunction, false⟩ := hflags
    exact exists_listForest_negated [.text field value] h
  | int field value flags =>
    obtain rfl : flags = ⟨conjunction, false⟩ := hflags
    exact exists_listForest_negated [.int field value] h
  | texts field values flags =>
    obtain rfl : flags = ⟨conjunction, false⟩ := hflags
    exact exists_listForest_negated (values.map fun value => .text (some field) value) h
  | ints field values flags =>
    obtain rfl : flags = ⟨conjunction, false⟩ := hflags
    exact exists_listForest_negated (values.map fun n => .int field (.exact n)) h
  | group left operator right flags =>
    obtain rfl : flags = ⟨conjunction, false⟩ := hflags
    have hparts : left.forest ++ right.forest ≠ [] := by
      intro e
      exact h (by rw [forest, e]; rfl)
    obtain ⟨n, hunder, -⟩ := exists_under_eq operator hparts
    have hforest : (group left operator right ⟨conjunction, false⟩).forest = [n] := by
      rw [forest, hunder]
      rfl
    have hnegated : (group left operator right ⟨conjunction, false⟩).negated.forest = [.not n] := by
      change (under operator (left.forest ++ right.forest)).map (complementWhen true) = _
      rw [hunder]
      rfl
    refine ⟨.not n, hnegated, fun v => ?_⟩
    rw [hforest, List.map_singleton, combine_singleton, Node.eval]

/-- What a negated condition contributes is the same wherever it stands. -/
theorem contribution_negated (v : Atom → Bool) (keyword : Conjunction) {c : Condition}
    (hplain : c.flags.negate = false) (h : c.fragment ≠ "") :
    c.negated.contribution v keyword = !c.contribution v c.conjunction := by
  obtain ⟨n, hn, heval⟩ := exists_forest_negated hplain (forest_ne_nil h)
  rw [contribution_eq, contribution_eq, hn, List.map_singleton, combine_singleton, heval]

/-- Negation does not make a condition disappear. -/
theorem fragment_negated_ne_empty {c : Condition} (hplain : c.flags.negate = false)
    (h : c.fragment ≠ "") : c.negated.fragment ≠ "" := by
  obtain ⟨n, hn, -⟩ := exists_forest_negated hplain (forest_ne_nil h)
  intro e
  rw [fragment_eq_empty_iff, hn] at e
  exact List.cons_ne_nil _ _ e

/-- Only a list renders several operands. -/
theorem length_operands_le_one {c : Condition} (h : c.isList = false) : c.operands.length ≤ 1 := by
  rw [operands_eq_forest]
  cases c with
  | text => simp [forest]
  | int => simp [forest]
  | texts => exact absurd h (by simp [isList])
  | ints => exact absurd h (by simp [isList])
  | group left operator right flags =>
    rw [forest, List.length_map]
    cases left.forest ++ right.forest <;> simp [under]

/-- Conjunctions make the same of one operand. -/
theorem contribution_congr (v : Atom → Bool) (j k : Conjunction) {c : Condition}
    (hne : c.fragment ≠ "") (h : c.listsSeveral = false) :
    c.contribution v j = c.contribution v k := by
  have hforest := forest_ne_nil hne
  have hlength : c.forest.length ≤ 1 := by
    rw [← operands_eq_forest]
    cases hlist : c.isList with
    | false => exact length_operands_le_one hlist
    | true => simpa [listsSeveral, hlist] using h
  obtain ⟨n, hn⟩ : ∃ n, c.forest = [n] :=
    List.length_eq_one_iff.mp (Nat.le_antisymm hlength (List.length_pos_iff.mpr hforest))
  rw [contribution_eq, contribution_eq, hn, List.map_singleton, combine_singleton,
    combine_singleton]

end Condition

/-! ## 5. Negation at a place -/

namespace Site

/-- The truth of a filter with a negated condition at a place. -/
theorem truth_fill_complement (v : Atom → Bool) (p : Site) {s : Condition}
    (hplain : s.flags.negate = false) (hne : s.fragment ≠ "") :
    Expression.truth v (p.fill s.negated).compile
      = some (p.value v (!s.contribution v s.conjunction)) := by
  rw [truth_fill v (Condition.fragment_negated_ne_empty hplain hne),
    Condition.contribution_negated v _ hplain hne]

/-- **Negation is complement, but for a list in a group of the other operator.**  A filter has
the value that follows from what the condition at a place contributes under the keyword around it,
and with the condition negated it has the value that follows from the complement of that
contribution, unless the condition lists several values and its conjunction is not the keyword
around it.  The negation of a list of several values contributes the complement of the values
under the conjunction of the list, wherever it stands. -/
theorem truth_fill_negated (v : Atom → Bool) (p : Site) {s : Condition}
    (hplain : s.flags.negate = false) (hne : s.fragment ≠ "") :
    Expression.truth v (p.fill s).compile
        = some (p.value v (s.contribution v (p.keyword s))) ∧
      (¬ (s.listsSeveral = true ∧ s.conjunction ≠ p.keyword s) →
        Expression.truth v (p.fill s.negated).compile
          = some (p.value v (!s.contribution v (p.keyword s)))) ∧
      (s.listsSeveral = true →
        Expression.truth v (p.fill s.negated).compile
          = some (p.value v (!s.contribution v s.conjunction))) := by
  have hnegated := truth_fill_complement v p hplain hne
  refine ⟨truth_fill v hne p, fun hplace => ?_, fun _ => hnegated⟩
  have hsame : s.contribution v s.conjunction = s.contribution v (p.keyword s) := by
    cases hseveral : s.listsSeveral with
    | false => exact Condition.contribution_congr v _ _ hne hseveral
    | true =>
      have hkeyword : s.conjunction = p.keyword s :=
        Decidable.not_not.mp fun h => hplace ⟨hseveral, h⟩
      rw [hkeyword]
  rw [hnegated, hsame]

/-- Two genres, one of which is enough. -/
def genres : Condition := .texts "genre" ["drama", "comedy"] .alternative

/-- The left part of a group with a year in its right part. -/
def besideYear (operator : Conjunction) : Site :=
  ⟨[], .inLeft .here operator (.int "year" (.exact 1979) .alternative) .conjunct, []⟩

/-- Every comparison is true except that with the second genre. -/
def exceptComedy (a : Atom) : Bool := a ≠ .text (some "genre") "comedy"

theorem truth_fill_negated_either :
    genres.flags.negate = false ∧ genres.fragment ≠ "" ∧
      Expression.truth exceptComedy ((besideYear .or).fill genres.negated).compile
        = some ((besideYear .or).value exceptComedy
            (!genres.contribution exceptComedy ((besideYear .or).keyword genres))) :=
  have hne : genres.fragment ≠ "" := by decide
  ⟨rfl, hne, (truth_fill_negated exceptComedy (besideYear .or) rfl hne).2.1 fun h => h.2 rfl⟩

/-- The two genres under `and` contribute a falsehood, one of them being false; their negation
contributes a falsehood as well, one of them being true. -/
theorem truth_fill_negated_both :
    genres.flags.negate = false ∧ genres.fragment ≠ "" ∧
      Expression.truth exceptComedy ((besideYear .and).fill genres.negated).compile = some false ∧
      (besideYear .and).value exceptComedy
        (!genres.contribution exceptComedy ((besideYear .and).keyword genres)) = true := by
  have hne : genres.fragment ≠ "" := by decide
  refine ⟨rfl, hne, ?_, ?_⟩
  · rw [truth_fill_complement exceptComedy (besideYear .and) rfl hne, Condition.contribution_eq]
    decide
  · rw [Condition.contribution_eq]
    decide

end Site
end DocSearch
