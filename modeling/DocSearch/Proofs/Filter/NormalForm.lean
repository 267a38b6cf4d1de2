/-
# Filters and their expressions, node by node

The fragment of a condition is the text of a row of nodes, the `forest` of the condition; the
expression of a filter is the text of its `normalForm`.  Both are defined here without any text:
what a list contributes, what negation wraps, which groups and conditions disappear, and how none,
one or several alternatives are put together.

* `fragment_eq_rowText`: the fragment of a condition spells its forest.
* `compile_eq_rowText`: the expression of a filter spells its normal form.
* `compile_read`: so a filter has no expression exactly when its normal form is empty, and the
  reader of the grammar gets the normal form back from the expression.

The second half of the last statement holds for every field name, every value and every nesting,
because reading a row of nodes back from its text needs nothing of the nodes
(`Expression.read_rowText`).
-/
import DocSearch.Filter.Expression
import DocSearch.Proofs.Filter.Grammar

namespace DocSearch

open Expression

/-! ## 1. The nodes of a condition -/

namespace Expression

/-- An operation on the given operands; nothing when there are none. -/
def under (keyword : Conjunction) : List Node → List Node
  | [] => []
  | n :: ns => [.op keyword n ns]

/-- A node, or its complement. -/
def complementWhen (negate : Bool) (n : Node) : Node := if negate then .not n else n

end Expression

namespace Condition

/-- The nodes that a list of comparisons stands for.  Negated, several of them are first put under
the list's own keyword. -/
def listForest (atoms : List Atom) (flags : Flags) : List Node :=
  if flags.negate then
    match atoms with
    | [a] => [.not (.atom a)]
    | atoms => (under flags.conjunction (atoms.map .atom)).map .not
  else atoms.map .atom

/-- The nodes that a condition stands for. -/
def forest : Condition → List Node
  | .text field value flags => [complementWhen flags.negate (.atom (.text field value))]
  | .int field value flags => [complementWhen flags.negate (.atom (.int field value))]
  | .texts field values flags => listForest (values.map fun value => .text (some field) value) flags
  | .ints field values flags => listForest (values.map fun n => .int field (.exact n)) flags
  | .group left operator right flags =>
    (under operator (forest left ++ forest right)).map (complementWhen flags.negate)

end Condition

/-! ## 2. Rows of texts -/

/-- Rows joined one by one and then together are joined as one row. -/
theorem intercalate_flatten (sep : String) {rows : List (List String)}
    (h : ∀ row ∈ rows, row ≠ []) :
    String.intercalate sep (rows.map (String.intercalate sep))
      = String.intercalate sep rows.flatten := by
  induction rows with
  | nil => rfl
  | cons row rows ih =>
    have hrow : row ≠ [] := h row List.mem_cons_self
    have hih := ih fun r hr => h r (List.mem_cons_of_mem _ hr)
    cases rows with
    | nil => simp
    | cons next rows =>
      have hne : (next :: rows).flatten ≠ [] := by
        simp [h next (List.mem_cons_of_mem _ List.mem_cons_self)]
      rw [List.map_cons, String.intercalate_cons_of_ne_nil (by simp), hih]
      exact (String.intercalate_append_of_ne_nil hrow hne).symm

/-- The same behind a keyword. -/
theorem operation_flatten {word : String} {rows : List (List String)}
    (h : ∀ row ∈ rows, row ≠ []) :
    Condition.operation word (rows.map (String.intercalate "+"))
      = Condition.operation word rows.flatten := by
  have hall : ∀ row ∈ [word] :: rows, row ≠ [] := by
    intro row hrow
    rcases List.mem_cons.mp hrow with rfl | hrow
    · simp
    · exact h row hrow
  have hjoin := intercalate_flatten "+" hall
  simp only [List.map_cons, String.intercalate_singleton, List.flatten_cons, List.cons_append,
    List.nil_append] at hjoin
  rw [Condition.operation, Condition.operation, hjoin]

namespace Expression

theorem rowText_eq (ns : List Node) :
    rowText ns = String.intercalate "+" (ns.map Node.spelling) := by
  rw [rowText, spellings_eq_map]

theorem rowText_ne_empty {ns : List Node} (h : ns ≠ []) : rowText ns ≠ "" := by
  obtain ⟨n, ms, rfl⟩ := List.exists_cons_of_ne_nil h
  intro e
  have hnil : (rowText (n :: ms)).toList = [] := by rw [e]; rfl
  cases ms with
  | nil => exact spelling_ne_nil n (by rwa [rowText_singleton] at hnil)
  | cons m ms => rw [rowText_cons_cons] at hnil; simp at hnil

/-- A row has no text exactly when it has no nodes. -/
theorem isEmpty_rowText (ns : List Node) : (rowText ns).isEmpty = ns.isEmpty := by
  cases ns with
  | nil => rfl
  | cons n ns =>
    rw [List.isEmpty_cons, ← Bool.not_eq_true, String.isEmpty_iff]
    exact rowText_ne_empty (by simp)

theorem spelling_op (keyword : Conjunction) (n : Node) (ns : List Node) :
    (Node.op keyword n ns).spelling
      = Condition.operation keyword.keyword ((n :: ns).map Node.spelling) := by
  rw [Node.spelling, spellings_eq_map, List.map_cons]

/-- The rows that have a text are those that have a node. -/
theorem filter_rowTexts (rows : List (List Node)) :
    (rows.map rowText).filter (fun fragment => !fragment.isEmpty)
      = (rows.filter fun row => !row.isEmpty).map rowText := by
  rw [List.filter_map]
  congr 1
  refine List.filter_congr fun row _ => ?_
  simp only [Function.comp_apply, isEmpty_rowText]

theorem ne_nil_of_mem_filter {rows : List (List Node)} :
    ∀ row ∈ rows.filter (fun row => !row.isEmpty), row ≠ [] := by
  intro row hrow
  have hne := (List.mem_filter.mp hrow).2
  rintro rfl
  exact absurd hne (by simp)

/-- **Rows under a keyword.**  No row, no node; otherwise there is one operation, and its text is
what the keyword makes of the texts of the rows. -/
theorem under_flatten (keyword : Conjunction) {rows : List (List Node)}
    (h : ∀ row ∈ rows, row ≠ []) :
    (rows = [] ∧ under keyword rows.flatten = []) ∨
      (rows ≠ [] ∧ ∃ n, under keyword rows.flatten = [n] ∧
        Condition.operation keyword.keyword (rows.map rowText) = n.spelling) := by
  cases hflat : rows.flatten with
  | nil =>
    refine Or.inl ⟨?_, rfl⟩
    cases rows with
    | nil => rfl
    | cons row rows =>
      exact absurd (List.append_eq_nil_iff.mp hflat).1 (h row List.mem_cons_self)
  | cons n ns =>
    refine Or.inr ⟨?_, .op keyword n ns, rfl, ?_⟩
    · rintro rfl
      exact absurd hflat (by simp)
    · have hmap : rows.map rowText
          = (rows.map (List.map Node.spelling)).map (String.intercalate "+") := by
        rw [List.map_map]
        exact List.map_congr_left fun row _ => rowText_eq row
      have hall : ∀ row ∈ rows.map (List.map Node.spelling), row ≠ [] := by
        intro row hrow
        obtain ⟨r, hr, rfl⟩ := List.mem_map.mp hrow
        simpa using h r hr
      rw [hmap, operation_flatten hall, ← List.map_flatten, hflat, spelling_op]

end Expression

/-! ## 3. A fragment spells its forest -/

namespace Condition

theorem operation_not (t : String) : operation "not" [t] = "(not+" ++ t ++ ")" := by
  rw [← String.toList_inj]
  simp [operation, String.intercalate_cons_cons]

/-- Negating a text is taking the complement of the node it spells. -/
theorem negateWhen_spelling (negate : Bool) (n : Node) :
    negateWhen negate n.spelling = (complementWhen negate n).spelling := by
  cases negate with
  | false => rfl
  | true =>
    have hne : n.spelling.isEmpty = false := by
      rw [← rowText_singleton, isEmpty_rowText]
      rfl
    simp only [negateWhen, hne, complementWhen, Node.spelling, operation_not, Bool.not_false,
      Bool.and_self, if_true]

theorem listFragment_eq (atoms : List Atom) (flags : Flags) :
    listFragment (atoms.map Atom.spelling) flags = rowText (listForest atoms flags) := by
  have hjoin : String.intercalate "+" (atoms.map Atom.spelling) = rowText (atoms.map .atom) := by
    rw [rowText_eq, List.map_map]
    rfl
  obtain ⟨conjunction, negate⟩ := flags
  cases negate with
  | false => simp [listFragment, listForest, hjoin]
  | true =>
    match atoms with
    | [] => rfl
    | [a] =>
      have hforest : rowText (listForest [a] ⟨conjunction, true⟩) = (Node.not (.atom a)).spelling :=
        rowText_singleton _
      rw [hforest]
      simp only [listFragment, List.map_singleton, List.length_singleton, Nat.lt_irrefl,
        decide_false, Bool.and_false, Bool.false_eq_true, if_false, String.intercalate_singleton]
      exact negateWhen_spelling true (.atom a)
    | a :: b :: atoms =>
      have hop : operation conjunction.keyword ((a :: b :: atoms).map Atom.spelling)
          = (Node.op conjunction (.atom a) ((b :: atoms).map .atom)).spelling := by
        rw [spelling_op, ← List.map_cons, List.map_map]
        rfl
      have hlen : decide (1 < ((a :: b :: atoms).map Atom.spelling).length) = true := by simp
      rw [listFragment, hlen, hop]
      simp only [listForest, under, List.map_cons, List.map_nil, rowText_singleton, Node.spelling,
        operation_not, Bool.and_self, if_true]

/-- **The fragment of a condition spells the forest of the condition.**  The induction follows
the conditions; only a group has parts, and there the two fragments, without those that are
empty, are the texts of the two forests, without those that are empty. -/
theorem fragment_eq_rowText (c : Condition) : c.fragment = rowText c.forest := by
  induction c with
  | text field value flags =>
    rw [forest, rowText_singleton, ← negateWhen_spelling]
    rfl
  | int field value flags =>
    rw [forest, rowText_singleton, ← negateWhen_spelling]
    rfl
  | texts field values flags =>
    rw [forest, ← listFragment_eq, List.map_map]
    rfl
  | ints field values flags =>
    rw [forest, ← listFragment_eq, List.map_map]
    rfl
  | group left operator right flags ihl ihr =>
    have hoperands : [left.fragment, right.fragment].filter (fun operand => !operand.isEmpty)
        = ([left.forest, right.forest].filter fun row => !row.isEmpty).map rowText := by
      rw [ihl, ihr]
      exact filter_rowTexts [left.forest, right.forest]
    have hflat : ([left.forest, right.forest].filter fun row => !row.isEmpty).flatten
        = left.forest ++ right.forest := by
      rw [List.flatten_filter_not_isEmpty]
      simp
    rw [fragment, hoperands, forest, ← hflat]
    rcases under_flatten operator ne_nil_of_mem_filter with ⟨hnil, hunder⟩ | ⟨hne, n, hunder, hop⟩
    · rw [hunder, hnil]
      rfl
    · rw [hunder, hop, if_neg (by simpa using hne)]
      rw [negateWhen_spelling, List.map_singleton, rowText_singleton]

/-- What renders nothing has no nodes, and the other way round. -/
theorem fragment_eq_empty_iff (c : Condition) : c.fragment = "" ↔ c.forest = [] := by
  rw [fragment_eq_rowText, ← String.isEmpty_iff, isEmpty_rowText, List.isEmpty_iff]

end Condition

/-! ## 4. The normal form of a filter -/

namespace Filter

/-- The forests of the conditions in one bucket, without those that are empty. -/
def forestsIn (bucket : Conjunction) (conditions : List Condition) : List (List Node) :=
  ((conditions.filter fun c => decide (c.conjunction = bucket)).map Condition.forest).filter
    fun row => !row.isEmpty

/-- The nodes of some alternatives: one alternative is one operation, several are each wrapped. -/
def alternatives : List (List Node) → List Node
  | [row] => under .or row
  | rows => under .and (rows.flatMap (under .or))

/-- The nodes of a filter: those of all conditions that must hold under one `and`, and then the
alternatives. -/
def normalForm (f : Filter) : List Node :=
  under .and ((f.conditions.filter fun c => decide (c.conjunction = .and)).flatMap
      Condition.forest) ++
    alternatives (forestsIn .or f.conditions)

theorem ne_nil_of_mem_forestsIn {bucket : Conjunction} {conditions : List Condition} :
    ∀ row ∈ forestsIn bucket conditions, row ≠ [] :=
  ne_nil_of_mem_filter

/-- The conditions that render nothing contribute no node either. -/
theorem flatten_forestsIn (bucket : Conjunction) (conditions : List Condition) :
    (forestsIn bucket conditions).flatten
      = (conditions.filter fun c => decide (c.conjunction = bucket)).flatMap Condition.forest := by
  rw [forestsIn, List.flatten_filter_not_isEmpty, List.flatMap_def]

/-- The fragments in a bucket spell the forests in it. -/
theorem fragmentsIn_eq (bucket : Conjunction) (conditions : List Condition) :
    fragmentsIn bucket conditions = (forestsIn bucket conditions).map rowText := by
  have hmap : ∀ cs : List Condition,
      cs.map Condition.fragment = (cs.map Condition.forest).map rowText := by
    intro cs
    rw [List.map_map]
    exact List.map_congr_left fun c _ => Condition.fragment_eq_rowText c
  rw [fragmentsIn, forestsIn, hmap, filter_rowTexts]

/-- One clause is the text of one node, or there is neither. -/
theorem andClause_eq {rows : List (List Node)} (h : ∀ row ∈ rows, row ≠ []) :
    (andClause (rows.map rowText)).toList = (under .and rows.flatten).map Node.spelling := by
  rcases under_flatten .and h with ⟨rfl, -⟩ | ⟨hne, n, hunder, hop⟩
  · rfl
  · obtain ⟨row, rows', rfl⟩ := List.exists_cons_of_ne_nil hne
    rw [hunder, List.map_singleton, ← hop]
    rfl

/-- Each alternative, wrapped by itself, is one node. -/
theorem under_or_singleton {row : List Node} (h : row ≠ []) :
    ∃ n, under .or row = [n] ∧ Condition.operation "or" [rowText row] = n.spelling := by
  have hall : ∀ r ∈ [row], r ≠ [] := by simpa using h
  rcases under_flatten .or hall with ⟨hnil, -⟩ | ⟨-, n, hunder, hop⟩
  · exact absurd hnil (by simp)
  · exact ⟨n, by simpa using hunder, hop⟩

theorem flatMap_under_or {rows : List (List Node)} (h : ∀ row ∈ rows, row ≠ []) :
    rows.map (fun row => Condition.operation "or" [rowText row])
      = (rows.flatMap (under .or)).map Node.spelling := by
  induction rows with
  | nil => rfl
  | cons row rows ih =>
    obtain ⟨n, hunder, hop⟩ := under_or_singleton (h row List.mem_cons_self)
    rw [List.map_cons, ih fun r hr => h r (List.mem_cons_of_mem _ hr), hop, List.flatMap_cons,
      hunder, List.singleton_append, List.map_cons]

theorem orClause_eq {rows : List (List Node)} (h : ∀ row ∈ rows, row ≠ []) :
    (orClause (rows.map rowText)).toList = (alternatives rows).map Node.spelling := by
  match rows with
  | [] => rfl
  | [row] =>
    obtain ⟨n, hunder, hop⟩ := under_or_singleton (h row List.mem_cons_self)
    rw [alternatives, hunder]
    exact congrArg (fun t => [t]) hop
  | row :: next :: rows =>
    obtain ⟨n, hunder, -⟩ := under_or_singleton (h row List.mem_cons_self)
    have hwrapped := flatMap_under_or h
    rw [List.flatMap_cons, hunder, List.singleton_append] at hwrapped
    have halt : alternatives (row :: next :: rows)
        = [.op .and n ((next :: rows).flatMap (under .or))] := by
      rw [alternatives, List.flatMap_cons, hunder]
      · rfl
      · rintro _ ⟨⟩
    rw [halt, List.map_singleton, spelling_op, ← hwrapped, orClause]
    · simp [Conjunction.keyword, Function.comp_def]
    · simp
    · simp

/-- **The expression of a filter spells the normal form of the filter.** -/
theorem compile_eq_rowText (f : Filter) :
    f.compile = if f.normalForm = [] then none else some (rowText f.normalForm) := by
  have hclauses : (andClause f.buckets.and).toList ++ (orClause f.buckets.or).toList
      = f.normalForm.map Node.spelling := by
    rw [buckets, fragmentsIn_eq, fragmentsIn_eq, andClause_eq ne_nil_of_mem_forestsIn,
      orClause_eq ne_nil_of_mem_forestsIn, flatten_forestsIn, ← List.map_append]
    rfl
  unfold compile
  rw [hclauses]
  by_cases hnil : f.normalForm = []
  · simp [hnil]
  · simp [hnil, rowText_eq]

/-! ## 5. Unique readability -/

/-- **A filter expression can be read in one way only.**  A filter has no expression exactly when
its normal form is empty, and otherwise the reader of the grammar gets the normal form back from
the expression. -/
theorem compile_read (f : Filter) :
    (f.compile = none ∧ f.normalForm = []) ∨
      ∃ e, f.compile = some e ∧ f.normalForm ≠ [] ∧ Expression.read e = some f.normalForm := by
  rw [compile_eq_rowText]
  by_cases hnil : f.normalForm = []
  · exact Or.inl ⟨if_pos hnil, hnil⟩
  · exact Or.inr ⟨rowText f.normalForm, if_neg hnil, hnil, read_rowText hnil⟩

end Filter
end DocSearch
