/-
# What trees settle to

A JSON value is what some tree settles to (`IsValue`): nothing in it is unreadable, and each object
in it has each key once.  The parts of a value are values again, so what is said of all values may
be used on every level of one.  Settling a value changes nothing: the induction is on the tree that
the value comes from, and an object keeps its members because they had lost their repeated keys
before.

Main statements: `IsValue.item`, `IsValue.member`, `settle_of_isValue`.
-/
import DocSearch.Proofs.Json.Members
import DocSearch.Proofs.Json.RoundTrip

namespace DocSearch
namespace Json

/-- A value: what some tree settles to. -/
def IsValue (j : Json) : Prop := ∃ tree, settle tree = some j

/-- What a text spells is a value. -/
theorem isValue_of_parse {text : String} {j : Json} (h : parse text = some j) : IsValue j := by
  obtain ⟨tree, -, hsettle⟩ := Option.bind_eq_some_iff.mp h
  exact ⟨tree, hsettle⟩

/-! ## 1. Where settled parts come from -/

theorem mem_put {name : String} {value : Json} {member : String × Json}
    {members : List (String × Json)} (h : member ∈ put name value members) :
    member = (name, value) ∨ member ∈ members := by
  induction members with
  | nil => exact Or.inl (List.mem_singleton.mp h)
  | cons first members ih =>
    rw [put] at h
    split at h
    · rcases List.mem_cons.mp h with h | h
      · exact Or.inl h
      · exact Or.inr (List.mem_cons_of_mem _ h)
    · rcases List.mem_cons.mp h with rfl | h
      · exact Or.inr List.mem_cons_self
      · exact (ih h).imp_right (List.mem_cons_of_mem _)

/-- No member of an object is made up when repeated keys are settled. -/
theorem mem_of_mem_lastWins {member : String × Json} {members : List (String × Json)}
    (h : member ∈ lastWins members) : member ∈ members := by
  have step : ∀ settled : List (String × Json),
      member ∈ members.foldl (fun settled m => put m.1 m.2 settled) settled →
        member ∈ settled ∨ member ∈ members := by
    clear h
    induction members with
    | nil => exact fun _ hmem => Or.inl hmem
    | cons first members ih =>
      intro settled hmem
      rcases ih _ hmem with hput | hrest
      · rcases mem_put hput with rfl | hsettled
        · exact Or.inr List.mem_cons_self
        · exact Or.inl hsettled
      · exact Or.inr (List.mem_cons_of_mem _ hrest)
  exact (step [] h).resolve_left (by simp)

theorem exists_of_settleItems {trees items : List Json} (h : settleItems trees = some items) :
    ∀ item ∈ items, ∃ tree ∈ trees, settle tree = some item := by
  induction trees generalizing items with
  | nil =>
    obtain rfl := Option.some.inj h
    simp
  | cons tree trees ih =>
    rw [settleItems] at h
    split at h
    · rename_i first rest hfirst hrest
      obtain rfl := Option.some.inj h
      intro item hitem
      rcases List.mem_cons.mp hitem with rfl | hitem
      · exact ⟨tree, List.mem_cons_self, hfirst⟩
      · obtain ⟨t, ht, hsettle⟩ := ih hrest item hitem
        exact ⟨t, List.mem_cons_of_mem _ ht, hsettle⟩
    · cases h

theorem exists_of_settleMembers {trees members : List (String × Json)}
    (h : settleMembers trees = some members) :
    ∀ member ∈ members, ∃ tree ∈ trees, settle tree.2 = some member.2 := by
  induction trees generalizing members with
  | nil =>
    obtain rfl := Option.some.inj h
    simp
  | cons tree trees ih =>
    rw [settleMembers] at h
    split at h
    · rename_i first rest hfirst hrest
      obtain rfl := Option.some.inj h
      intro member hmember
      rcases List.mem_cons.mp hmember with rfl | hmember
      · exact ⟨tree, List.mem_cons_self, hfirst⟩
      · obtain ⟨t, ht, hsettle⟩ := ih hrest member hmember
        exact ⟨t, List.mem_cons_of_mem _ ht, hsettle⟩
    · cases h

/-! ## 2. Settling again -/

/-- An array of settled items is settled, and so is an object of settled members with distinct
keys. -/
theorem settle_settle : ∀ {tree j : Json}, settle tree = some j → settle j = some j
  | .arr trees, j, h => by
    rw [settle] at h
    obtain ⟨items, hitems, rfl⟩ := Option.map_eq_some_iff.mp h
    have hsettled : ∀ item ∈ items, settle item = some item := by
      intro item hitem
      obtain ⟨t, ht, hsettle⟩ := exists_of_settleItems hitems item hitem
      exact settle_settle hsettle
    rw [settle, settleItems_eq_self hsettled, Option.map_some]
  | .obj trees, j, h => by
    rw [settle] at h
    obtain ⟨members, hmembers, rfl⟩ := Option.map_eq_some_iff.mp h
    have hsettled : ∀ member ∈ lastWins members, settle member.2 = some member.2 := by
      intro member hmember
      obtain ⟨t, ht, hsettle⟩ := exists_of_settleMembers hmembers member
        (mem_of_mem_lastWins hmember)
      exact settle_settle hsettle
    rw [settle, settleMembers_eq_self hsettled, Option.map_some,
      lastWins_eq_self (keys_lastWins_nodup members)]
  | .float x, j, h => by
    rw [settle] at h
    obtain rfl := Option.some.inj h
    split
    · next hfinite => rw [settle, if_pos hfinite]
    · rfl
  | .null, _, h => by cases h; rfl
  | .bool b, _, h => by cases h; rfl
  | .int n, _, h => by cases h; rfl
  | .str s, _, h => by cases h; rfl
  | .unreadable, _, h => by cases h
termination_by tree => sizeOf tree
decreasing_by
  · have hlt := List.sizeOf_lt_of_mem ht
    simp only [Json.arr.sizeOf_spec]
    omega
  · have hlt := List.sizeOf_lt_of_mem ht
    have hpair : sizeOf t = 1 + sizeOf t.1 + sizeOf t.2 := rfl
    simp only [Json.obj.sizeOf_spec]
    omega

/-- **A value stands for itself.** -/
theorem settle_of_isValue {j : Json} (h : IsValue j) : settle j = some j := by
  obtain ⟨tree, hsettle⟩ := h
  exact settle_settle hsettle

/-! ## 3. Parts of values -/

/-- **The items of a value are values.** -/
theorem IsValue.item {items : List Json} (h : IsValue (.arr items)) :
    ∀ item ∈ items, IsValue item := by
  have hself := settle_of_isValue h
  rw [settle] at hself
  obtain ⟨settled, hsettled, he⟩ := Option.map_eq_some_iff.mp hself
  cases he
  intro item hitem
  obtain ⟨t, -, ht⟩ := exists_of_settleItems hsettled item hitem
  exact ⟨t, ht⟩

/-- **The members of a value are values.** -/
theorem IsValue.member {members : List (String × Json)} (h : IsValue (.obj members)) :
    ∀ member ∈ members, IsValue member.2 := by
  have hself := settle_of_isValue h
  rw [settle] at hself
  obtain ⟨settled, hsettled, he⟩ := Option.map_eq_some_iff.mp hself
  cases he
  intro member hmember
  obtain ⟨t, -, ht⟩ := exists_of_settleMembers hsettled member (mem_of_mem_lastWins hmember)
  exact ⟨t.2, ht⟩

/-- An object that is a value has each key once. -/
theorem IsValue.nodup {members : List (String × Json)} (h : IsValue (.obj members)) :
    (members.map (·.1)).Nodup :=
  nodup_of_settle (settle_of_isValue h)

theorem IsValue.lookup {members : List (String × Json)} (h : IsValue (.obj members)) {key : String}
    {j : Json} (hj : members.lookup key = some j) : IsValue j :=
  h.member (key, j) ((lookup_eq_some_iff_mem h.nodup).mp hj)

end Json
end DocSearch
