/-
# What the expression of a filter does not depend on

The conditions of a filter come in one list, and each of them says which bucket it joins.  Only two
things about the list matter: which conditions of each bucket ask for something, and in which
order.  How the two buckets alternate in the list does not matter, and neither does a condition
that asks for nothing: a list without values, or a group of conditions that ask for nothing,
however deep, negated or not, in either bucket.

Asking for nothing is said of the condition itself (`isVoid`), by recursion over its groups, and
shown to be the same as rendering nothing (`fragment_eq_empty_iff_isVoid`).  A group is where this
needs care: its operands are filtered by their texts, so the induction is what tells that a group
is dropped because of what it is made of.  With that, the fragments of a bucket are the texts of
the conditions in it that ask for something (`fragmentsIn_eq_map`), and the rest of the compiler
sees nothing but these two rows, also where it counts the alternatives.

Main statement: `compile_rearranged`.
-/
import DocSearch.Proofs.Filter.NormalForm

namespace DocSearch

open Expression

/-! ## 1. Conditions that ask for nothing -/

/-- No operand under a keyword, no operation. -/
theorem Expression.under_eq_nil_iff {keyword : Conjunction} {ns : List Node} :
    under keyword ns = [] ↔ ns = [] := by
  cases ns with
  | nil => simp [under]
  | cons n ns => simp [under]

namespace Condition

/-- Whether a condition asks for nothing: it lists no value, or both its sides ask for nothing. -/
def isVoid : Condition → Bool
  | .text .. => false
  | .int .. => false
  | .texts _ values _ => values.isEmpty
  | .ints _ values _ => values.isEmpty
  | .group left _ right _ => left.isVoid && right.isVoid

/-- A list has nodes when it has values, whatever its flags make of them. -/
theorem listForest_eq_nil_iff {atoms : List Atom} {flags : Flags} :
    listForest atoms flags = [] ↔ atoms = [] := by
  obtain ⟨conjunction, negate⟩ := flags
  cases negate with
  | false => simp [listForest]
  | true =>
    -- two values make an operation, one makes a negation
    cases atoms with
    | nil => simp [listForest, under]
    | cons a atoms =>
      cases atoms with
      | nil => simp [listForest]
      | cons b atoms => simp [listForest, under]

/-- **A condition has no nodes exactly when it asks for nothing.** -/
theorem forest_eq_nil_iff (c : Condition) : c.forest = [] ↔ c.isVoid = true := by
  induction c with
  | text field value flags => simp [forest, isVoid]
  | int field value flags => simp [forest, isVoid]
  | texts field values flags =>
    rw [forest, listForest_eq_nil_iff, List.map_eq_nil_iff, isVoid, List.isEmpty_iff]
  | ints field values flags =>
    rw [forest, listForest_eq_nil_iff, List.map_eq_nil_iff, isVoid, List.isEmpty_iff]
  | group left operator right flags ihl ihr =>
    rw [forest, List.map_eq_nil_iff, under_eq_nil_iff, List.append_eq_nil_iff, ihl, ihr, isVoid,
      Bool.and_eq_true]

/-- ...which is when it renders nothing. -/
theorem fragment_eq_empty_iff_isVoid (c : Condition) : c.fragment = "" ↔ c.isVoid = true := by
  rw [fragment_eq_empty_iff, forest_eq_nil_iff]

theorem isEmpty_fragment (c : Condition) : c.fragment.isEmpty = c.isVoid := by
  rw [Bool.eq_iff_iff, String.isEmpty_iff, fragment_eq_empty_iff_isVoid]

end Condition

/-! ## 2. What is left of a filter -/

namespace Filter

/-- The conditions of one bucket that ask for something, in order. -/
def asked (bucket : Conjunction) (f : Filter) : List Condition :=
  f.conditions.filter fun c => decide (c.conjunction = bucket) && !c.isVoid

/-- **The fragments of a bucket are the texts of the conditions in it that ask for something.** -/
theorem fragmentsIn_eq_map (bucket : Conjunction) (f : Filter) :
    fragmentsIn bucket f.conditions = (f.asked bucket).map Condition.fragment := by
  have hvoid : ((fun fragment : String => !fragment.isEmpty) ∘ Condition.fragment)
      = fun c => !c.isVoid := by
    funext c
    rw [Function.comp_apply, Condition.isEmpty_fragment]
  rw [fragmentsIn, List.filter_map, hvoid, List.filter_filter, asked]
  simp only [Bool.and_comm]

theorem buckets_eq (f : Filter) :
    f.buckets = ⟨(f.asked .and).map Condition.fragment, (f.asked .or).map Condition.fragment⟩ := by
  rw [buckets, fragmentsIn_eq_map, fragmentsIn_eq_map]

/-- The clauses see nothing of a filter but its two rows of fragments. -/
theorem compile_congr {f g : Filter} (h : f.buckets = g.buckets) : f.compile = g.compile := by
  rw [compile, compile, h]

/-- Nothing is left of a bucket exactly when each of its conditions asks for nothing. -/
theorem asked_eq_nil_iff {bucket : Conjunction} {f : Filter} :
    f.asked bucket = [] ↔ ∀ c ∈ f.conditions, c.conjunction = bucket → c.isVoid = true := by
  simp [asked, List.filter_eq_nil_iff]

/-! ## 3. Rearrangements -/

/-- **Neither the order of the two buckets among each other nor conditions that ask for nothing
matter.**  A filter has no expression exactly when each of its conditions asks for nothing; and two
filters have the same expression when, the conditions that ask for nothing left out, the same
conditions must hold, in the same order, and the same conditions are alternatives, in the same
order. -/
theorem compile_rearranged (f : Filter) :
    (f.compile = none ↔ ∀ c ∈ f.conditions, c.isVoid = true) ∧
      ∀ g : Filter, (∀ bucket, f.asked bucket = g.asked bucket) → f.compile = g.compile := by
  constructor
  · rw [compile_eq_none_iff, buckets_eq, List.map_eq_nil_iff, List.map_eq_nil_iff,
      asked_eq_nil_iff, asked_eq_nil_iff]
    constructor
    · rintro ⟨hand, hor⟩ c hc
      cases hbucket : c.conjunction with
      | and => exact hand c hc hbucket
      | or => exact hor c hc hbucket
    · intro hvoid
      exact ⟨fun c hc _ => hvoid c hc, fun c hc _ => hvoid c hc⟩
  · intro g h
    refine compile_congr ?_
    rw [buckets_eq, buckets_eq, h .and, h .or]

/-- An alternative moves in front of a condition that must hold, and a negated group of lists
without values comes in as a second alternative. -/
theorem compile_rearranged_drama :
    let drama := Condition.hasText "genre" "drama"
    let recent := Condition.equals "year" 1979
    let nothing := Condition.group (.amongTexts "genre" []) .or (.amongInts "year" []) ⟨.or, true⟩
    (∀ bucket, (Filter.mk [drama, recent]).asked bucket
        = (Filter.mk [recent, nothing, drama]).asked bucket) ∧
      (Filter.mk [drama, recent]).compile = (Filter.mk [recent, nothing, drama]).compile := by
  intro drama recent nothing
  have hasked : ∀ bucket, (Filter.mk [drama, recent]).asked bucket
      = (Filter.mk [recent, nothing, drama]).asked bucket := by
    intro bucket
    cases bucket with
    | and => rfl
    | or => rfl
  exact ⟨hasked, (compile_rearranged _).2 _ hasked⟩

end Filter
end DocSearch
