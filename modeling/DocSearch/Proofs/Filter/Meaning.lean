/-
# What a filter expression means

Read as a boolean formula over its atoms, an expression is true when all its clauses are; `and`
asks for all operands, `or` for one, `not` for the opposite, and an expression that is absent is
true.  The truth value is defined on the text, by way of the reader of the grammar, and not on
the conditions that the text comes from.

The compiler puts the conditions of a filter into two buckets and the alternatives under one
keyword or another, depending on how many there are.  None of that matters to the meaning
(`eval_normalForm_iff`): an expression is true when each condition that renders something is true
by itself.  What follows for the conditions of the settings is that adding them can only narrow a
search, in whatever buckets they and the conditions of the search are.

Main statement: `truth_compile_restrict`.
-/
import DocSearch.Client
import DocSearch.Proofs.Filter.NormalForm

namespace DocSearch

open Expression

/-! ## 1. Truth -/

namespace Expression

/-- The truth of operands under a keyword. -/
def combine : Conjunction → List Bool → Bool
  | .and, values => values.all id
  | .or, values => values.any id

mutual

/-- The truth of a node, when `v` is the truth of each atom. -/
def Node.eval (v : Atom → Bool) : Node → Bool
  | .atom a => v a
  | .op keyword first more => combine keyword (first.eval v :: evals v more)
  | .not operand => !operand.eval v

/-- The truth of each node of a row. -/
def evals (v : Atom → Bool) : List Node → List Bool
  | [] => []
  | n :: ns => n.eval v :: evals v ns

end

/-- The truth of an expression that may be absent: that of its clauses together.  Nothing when
the text is no expression. -/
def truth (v : Atom → Bool) : Option String → Option Bool
  | none => some true
  | some e => (read e).map fun clauses => clauses.all (Node.eval v)

theorem evals_eq_map (v : Atom → Bool) (ns : List Node) : evals v ns = ns.map (Node.eval v) := by
  induction ns with
  | nil => rfl
  | cons n ns ih => rw [evals, ih, List.map_cons]

theorem eval_op (v : Atom → Bool) (keyword : Conjunction) (n : Node) (ns : List Node) :
    (Node.op keyword n ns).eval v = combine keyword ((n :: ns).map (Node.eval v)) := by
  rw [Node.eval, evals_eq_map, List.map_cons]

theorem combine_and_iff {values : List Bool} :
    combine .and values = true ↔ ∀ b ∈ values, b = true := by
  simp [combine]

/-- An operation made of a row says what the keyword makes of the row; an empty row says
nothing. -/
theorem all_under_iff (v : Atom → Bool) (keyword : Conjunction) (row : List Node) :
    (under keyword row).all (Node.eval v) = true ↔
      (row ≠ [] → combine keyword (row.map (Node.eval v)) = true) := by
  cases row with
  | nil => simp [under]
  | cons n ns => simp [under, eval_op]

end Expression

/-- The truth of a condition by itself: whether all operands that it renders are true, or one of
them, as its bucket says. -/
def Condition.truth (v : Atom → Bool) (c : Condition) : Option Bool :=
  (Expression.read c.fragment).map fun operands =>
    combine c.conjunction (operands.map (Node.eval v))

/-! ## 2. Buckets do not matter -/

namespace Condition

/-- Whether the nodes of a condition are true under the keyword of its bucket. -/
def holds (v : Atom → Bool) (c : Condition) : Bool :=
  combine c.conjunction (c.forest.map (Node.eval v))

/-- What a condition says by itself can be read off its fragment. -/
theorem truth_eq_holds (v : Atom → Bool) {c : Condition} (h : c.fragment ≠ "") :
    c.truth v = some (c.holds v) := by
  have hforest : c.forest ≠ [] := fun e => h ((fragment_eq_empty_iff c).mpr e)
  rw [truth, fragment_eq_rowText, read_rowText hforest]
  rfl

end Condition

namespace Filter

theorem mem_forestsIn_iff {bucket : Conjunction} {conditions : List Condition} {row : List Node} :
    row ∈ forestsIn bucket conditions ↔
      ∃ c ∈ conditions, c.conjunction = bucket ∧ c.forest = row ∧ row ≠ [] := by
  rw [forestsIn, List.mem_filter, List.mem_map]
  constructor
  · rintro ⟨⟨c, hc, rfl⟩, hne⟩
    obtain ⟨hmem, hbucket⟩ := List.mem_filter.mp hc
    exact ⟨c, hmem, of_decide_eq_true hbucket, rfl, by simpa using hne⟩
  · rintro ⟨c, hmem, hbucket, rfl, hne⟩
    exact ⟨⟨c, List.mem_filter.mpr ⟨hmem, decide_eq_true hbucket⟩, rfl⟩, by simpa using hne⟩

/-- **Alternatives, collapsed or each wrapped, are true when one operand of each is.**  A single
alternative stands under `or` itself; this is the only place where the number of alternatives
decides the shape. -/
theorem all_alternatives_iff (v : Atom → Bool) (rows : List (List Node)) :
    (alternatives rows).all (Node.eval v) = true ↔
      ∀ row ∈ rows, row ≠ [] → combine .or (row.map (Node.eval v)) = true := by
  match rows with
  | [] => simp [alternatives, under]
  | [row] =>
    rw [alternatives, all_under_iff]
    simp
  | row :: next :: rows =>
    rw [alternatives, all_under_iff, combine_and_iff]
    · constructor
      · intro h r hr hne
        have hmem : ∀ n ∈ under .or r, n.eval v = true := by
          intro n hn
          have hn' : n ∈ (row :: next :: rows).flatMap (under .or) :=
            List.mem_flatMap.mpr ⟨r, hr, hn⟩
          exact h (List.ne_nil_of_mem hn') _ (List.mem_map.mpr ⟨n, hn', rfl⟩)
        exact (all_under_iff v .or r).mp (List.all_eq_true.mpr hmem) hne
      · intro h _ b hb
        obtain ⟨n, hn, rfl⟩ := List.mem_map.mp hb
        obtain ⟨r, hr, hnr⟩ := List.mem_flatMap.mp hn
        have hall := (all_under_iff v .or r).mpr (h r hr)
        exact List.all_eq_true.mp hall n hnr
    · rintro _ ⟨⟩

/-- **The normal form is true when each condition that renders something is true by itself.** -/
theorem eval_normalForm_iff (v : Atom → Bool) (f : Filter) :
    f.normalForm.all (Node.eval v) = true ↔
      ∀ c ∈ f.conditions, c.fragment ≠ "" → c.holds v = true := by
  rw [normalForm, List.all_append, Bool.and_eq_true, all_under_iff, all_alternatives_iff,
    combine_and_iff]
  constructor
  · rintro ⟨hand, hor⟩ c hc hne
    have hforest : c.forest ≠ [] := fun e => hne (c.fragment_eq_empty_iff.mpr e)
    unfold Condition.holds
    cases hk : c.conjunction with
    | and =>
      refine combine_and_iff.mpr fun b hb => ?_
      obtain ⟨n, hn, rfl⟩ := List.mem_map.mp hb
      have hmem : n ∈ (f.conditions.filter fun c => decide (c.conjunction = .and)).flatMap
          Condition.forest :=
        List.mem_flatMap.mpr ⟨c, List.mem_filter.mpr ⟨hc, decide_eq_true hk⟩, hn⟩
      exact hand (List.ne_nil_of_mem hmem) _ (List.mem_map.mpr ⟨n, hmem, rfl⟩)
    | or => exact hor c.forest (mem_forestsIn_iff.mpr ⟨c, hc, hk, rfl, hforest⟩) hforest
  · intro h
    refine ⟨?_, ?_⟩
    · intro _ b hb
      obtain ⟨n, hn, rfl⟩ := List.mem_map.mp hb
      obtain ⟨c, hc, hnc⟩ := List.mem_flatMap.mp hn
      obtain ⟨hmem, hk⟩ := List.mem_filter.mp hc
      have hne : c.fragment ≠ "" :=
        fun e => List.ne_nil_of_mem hnc (c.fragment_eq_empty_iff.mp e)
      have hc' := h c hmem hne
      rw [Condition.holds, of_decide_eq_true hk] at hc'
      exact combine_and_iff.mp hc' _ (List.mem_map.mpr ⟨n, hnc, rfl⟩)
    · intro row hrow hne
      obtain ⟨c, hmem, hk, rfl, -⟩ := mem_forestsIn_iff.mp hrow
      have hc' := h c hmem fun e => hne (c.fragment_eq_empty_iff.mp e)
      rwa [Condition.holds, hk] at hc'

/-- The truth of the expression of a filter is that of its normal form. -/
theorem truth_compile (v : Atom → Bool) (f : Filter) :
    Expression.truth v f.compile = some (f.normalForm.all (Node.eval v)) := by
  rw [compile_eq_rowText]
  by_cases hnil : f.normalForm = []
  · simp [hnil, Expression.truth]
  · rw [if_neg hnil, Expression.truth, read_rowText hnil]
    rfl

/-! ## 3. Further conditions narrow -/

/-- Further conditions are a further conjunct. -/
theorem eval_normalForm_append (v : Atom → Bool) (f : Filter) (conditions : List Condition) :
    (f.append conditions).normalForm.all (Node.eval v)
      = (f.normalForm.all (Node.eval v) &&
          (Filter.mk conditions).normalForm.all (Node.eval v)) := by
  rw [Bool.eq_iff_iff, Bool.and_eq_true, eval_normalForm_iff, eval_normalForm_iff,
    eval_normalForm_iff]
  constructor
  · intro h
    refine ⟨fun c hc => ?_, fun c hc => ?_⟩
    · exact h c (List.mem_append_left _ hc)
    · exact h c (List.mem_append_right _ hc)
  · rintro ⟨hf, hconditions⟩ c hc
    rcases List.mem_append.mp hc with hc | hc
    · exact hf c hc
    · exact hconditions c hc

/-- **What an expression means, and what the conditions of the settings do to it.**  The
expression of a filter is true when each condition of the filter that renders something is true
by itself; and the expression of a search with the conditions of the settings added is true when
that of the search and that of the settings both are. -/
theorem truth_compile_restrict (v : Atom → Bool) :
    (∀ f : Filter, ∃ b, Expression.truth v f.compile = some b ∧
      (b = true ↔ ∀ c ∈ f.conditions, c.fragment ≠ "" → c.truth v = some true)) ∧
    (∀ (st : Settings) (q : Search), ∃ b₁ b₂,
      Expression.truth v q.filter.compile = some b₁ ∧
      Expression.truth v (Filter.mk st.conditions).compile = some b₂ ∧
      Expression.truth v (st.restrict q).filter.compile = some (b₁ && b₂)) := by
  refine ⟨?_, ?_⟩
  · intro f
    refine ⟨_, truth_compile v f, ?_⟩
    rw [eval_normalForm_iff]
    refine forall₂_congr fun c _ => forall_congr' fun hne => ?_
    rw [Condition.truth_eq_holds v hne, Option.some.injEq]
  · intro st q
    refine ⟨_, _, truth_compile v q.filter, truth_compile v ⟨st.conditions⟩, ?_⟩
    rw [← eval_normalForm_append]
    exact truth_compile v _

end Filter
end DocSearch
