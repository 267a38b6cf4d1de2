/-
# Members looked up

Looking up a key in a list of members, when the list is mapped, filtered, or has each key once.
An object that was settled has each key once, so what it holds under a key does not depend on the
order of its members; `Spells` says that a text holds such an object.

Main statements: `lookup_eq_some_iff_mem`, `lookup_map_values`, `lookup_filter_keys`,
`nodup_of_settle`.
-/
import DocSearch.Json.Reader

namespace DocSearch
namespace Json

section Lookup

variable {α β : Type} {key : String} {members : List (String × α)}

/-- Where each key stands once, a look-up finds every member. -/
theorem lookup_eq_some_iff_mem {a : α} (once : (members.map (·.1)).Nodup) :
    members.lookup key = some a ↔ (key, a) ∈ members := by
  induction members with
  | nil => simp
  | cons member members ih =>
    rw [List.map_cons, List.nodup_cons] at once
    obtain ⟨hnew, once⟩ := once
    obtain ⟨name, b⟩ := member
    by_cases hname : key = name
    · subst hname
      have hnot : (key, a) ∉ members := fun hm => hnew (List.mem_map.mpr ⟨(key, a), hm, rfl⟩)
      simp [hnot, eq_comm]
    · have hne : (key == name) = false := by simpa using hname
      rw [List.lookup_cons, hne, ih once]
      simp [hname]

/-- What was done to every value was done to the value that is found. -/
theorem lookup_map_values (f : α → β) :
    (members.map fun member => (member.1, f member.2)).lookup key = (members.lookup key).map f := by
  induction members with
  | nil => rfl
  | cons member members ih =>
    rw [List.map_cons, List.lookup_cons, List.lookup_cons, ih]
    cases key == member.1 <;> rfl

/-- Members whose key is left in are found as before. -/
theorem lookup_filter_keys {p : String → Bool} (h : p key = true) :
    (members.filter fun member => p member.1).lookup key = members.lookup key := by
  induction members with
  | nil => rfl
  | cons member members ih =>
    rw [List.filter_cons, List.lookup_cons]
    by_cases hname : key = member.1
    · rw [if_pos (hname ▸ h), List.lookup_cons, ih]
    · have hne : (key == member.1) = false := by simpa using hname
      rw [hne]
      split
      · rw [List.lookup_cons, hne, ih]
      · exact ih

/-- So a known name is found among the members with known names. -/
theorem lookup_known {names : List String} (h : key ∈ names) :
    (members.filter fun member => decide (member.1 ∈ names)).lookup key = members.lookup key :=
  lookup_filter_keys (p := fun name => decide (name ∈ names)) (decide_eq_true h)

end Lookup

/-- A settled object has each key once. -/
theorem nodup_of_settle {j : Json} {members : List (String × Json)}
    (h : settle j = some (.obj members)) : (members.map (·.1)).Nodup := by
  cases j with
  | obj given =>
    rw [settle] at h
    obtain ⟨settled, -, he⟩ := Option.map_eq_some_iff.mp h
    cases he
    exact keys_lastWins_nodup settled
  | arr items =>
    rw [settle] at h
    obtain ⟨settled, -, he⟩ := Option.map_eq_some_iff.mp h
    cases he
  | float x =>
    rw [settle] at h
    split at h <;> cases h
  | null => cases h
  | bool b => cases h
  | int n => cases h
  | str s => cases h
  | unreadable => cases h

/-- An object that a text spells has each key once. -/
theorem nodup_of_parse {text : String} {members : List (String × Json)}
    (h : parse text = some (.obj members)) : (members.map (·.1)).Nodup := by
  obtain ⟨j, -, hj⟩ := Option.bind_eq_some_iff.mp h
  exact nodup_of_settle hj

/-- The text spells the JSON object. -/
def Spells (text : String) (j : Json) : Prop := parse text = some j ∧ j.isObject = true

theorem Spells.exists_members {text : String} {j : Json} (h : Spells text j) :
    ∃ members, j = .obj members ∧ (members.map (·.1)).Nodup := by
  obtain ⟨hparse, hobject⟩ := h
  cases j with
  | obj members => exact ⟨members, rfl, nodup_of_parse hparse⟩
  | _ => cases hobject

end Json
end DocSearch
