/-
# Keys of a TOML document

A TOML document is built statement by statement, and no statement gives its table a key that the
table has: each of them changes what stands under a key, adds a key that was not there, or puts the
table that it opens in place of the one that was implied.  So each of them leaves every key standing
once (`KeepsKeys`), and so do all of them together.

Main statements: `keepsKeys_within`, `nodup_of_read`.
-/
import DocSearch.Proofs.Outcome
import DocSearch.Toml.Reader

namespace DocSearch.Toml

open Outcome

/-- The keys of members. -/
def keys (members : Members) : List String := members.map (·.1)

theorem keys_cons (member : String × Node) (members : Members) :
    keys (member :: members) = member.1 :: keys members := rfl

/-- A change of members, where it succeeds, leaves keys that stand once standing once. -/
def KeepsKeys (change : Members → Except TableFault Members) : Prop :=
  ∀ {members changed : Members}, (keys members).Nodup → change members = .ok changed →
    (keys changed).Nodup

/-! ## 1. Changes of a table -/

/-- What stands under a key changes in place, and a key that was not there comes last. -/
theorem keys_alter {name : String} {change : Option Node → Except TableFault Node}
    {members changed : Members} (h : alter name change members = .ok changed) :
    keys changed = if name ∈ keys members then keys members else keys members ++ [name] := by
  induction members generalizing changed with
  | nil =>
    obtain ⟨node, -, rfl⟩ := map_eq_ok_iff.mp h
    rfl
  | cons member members ih =>
    rw [alter] at h
    split at h
    · rename_i hname
      obtain ⟨node, -, rfl⟩ := map_eq_ok_iff.mp h
      simp [keys_cons, hname]
    · rename_i hname
      obtain ⟨rest, hrest, rfl⟩ := map_eq_ok_iff.mp h
      simp only [keys_cons, ih hrest, List.mem_cons, Ne.symm hname, false_or]
      split
      · rfl
      · rw [List.cons_append]

theorem keepsKeys_alter (name : String) (change : Option Node → Except TableFault Node) :
    KeepsKeys (alter name change) := by
  intro members changed hkeys h
  rw [keys_alter h]
  split
  · exact hkeys
  · rename_i hnew
    refine List.nodup_append.mpr ⟨hkeys, by simp, ?_⟩
    intro key hkey other hother heq
    rw [heq, List.mem_singleton.mp hother] at hkey
    exact hnew hkey

theorem keepsKeys_assign (path : List String) (name : String) (j : Json) :
    KeepsKeys (assign path name j) := by
  cases path with
  | nil => exact keepsKeys_alter _ _
  | cons step path => exact keepsKeys_alter _ _

theorem keepsKeys_openItem (name : String) : KeepsKeys (openItem name) := keepsKeys_alter _ _

theorem keepsKeys_openTable (name : String) : KeepsKeys (openTable name) := by
  intro members changed hkeys h
  -- a table that was implied is taken out before it comes last
  have hopened : ∀ inner, (keys (members.filter (fun member => decide (member.1 ≠ name)) ++
      [(name, Node.table .header inner)])).Nodup := by
    intro inner
    rw [keys, List.map_append]
    refine List.nodup_append.mpr ⟨hkeys.sublist (List.filter_sublist.map _), by simp, ?_⟩
    intro key hkey other hother heq
    obtain ⟨member, hmember, rfl⟩ := List.mem_map.mp hkey
    have hne := of_decide_eq_true (List.mem_filter.mp hmember).2
    exact hne (heq.trans (by simpa using hother))
  unfold openTable at h
  dsimp only at h
  split at h
  · obtain rfl := Except.ok.inj h
    exact hopened _
  · obtain rfl := Except.ok.inj h
    exact hopened _
  · cases h

/-- **A change further in keeps the keys of the table around it.** -/
theorem keepsKeys_within {change : Members → Except TableFault Members} (h : KeepsKeys change)
    (path : List String) : KeepsKeys (within path change) := by
  cases path with
  | nil => exact h
  | cons name path => exact keepsKeys_alter _ _

/-! ## 2. Documents -/

/-- One more statement keeps the keys of a document. -/
theorem nodup_extend {d next : Draft} {statement : Statement} (hkeys : (keys d.members).Nodup)
    (h : d.extend statement = .ok next) : (keys next.members).Nodup := by
  cases statement with
  | header path isItem =>
    obtain ⟨members, hmembers, rfl⟩ := map_eq_ok_iff.mp h
    rw [mapError_eq_ok_iff] at hmembers
    refine keepsKeys_within ?_ _ hkeys hmembers
    cases isItem with
    | true => exact keepsKeys_openItem _
    | false => exact keepsKeys_openTable _
  | pair parts j =>
    obtain ⟨members, hmembers, rfl⟩ := map_eq_ok_iff.mp h
    rw [mapError_eq_ok_iff] at hmembers
    exact keepsKeys_within (keepsKeys_assign _ _ _) _ hkeys hmembers

theorem nodup_foldlM {all : List Statement} {d next : Draft} (hkeys : (keys d.members).Nodup)
    (h : all.foldlM Draft.extend d = .ok next) : (keys next.members).Nodup := by
  induction all generalizing d with
  | nil =>
    obtain rfl := Except.ok.inj h
    exact hkeys
  | cons statement all ih =>
    rw [List.foldlM_cons] at h
    obtain ⟨between, hbetween, hrest⟩ := bind_eq_ok_iff.mp h
    exact ih (nodup_extend hkeys hbetween) hrest

theorem map_membersToJson (members : Members) :
    (membersToJson members).map (·.1) = keys members := by
  induction members with
  | nil => rfl
  | cons member members ih => rw [membersToJson, List.map_cons, ih, keys_cons]

/-- **A TOML text is a table with each key once.** -/
theorem nodup_of_read {text : String} {j : Json} (h : read text = .ok j) :
    ∃ members, j = .obj members ∧ (members.map (·.1)).Nodup := by
  obtain ⟨d, hd, rfl⟩ := map_eq_ok_iff.mp h
  obtain ⟨all, -, hall⟩ := bind_eq_ok_iff.mp hd
  refine ⟨membersToJson d.members, rfl, ?_⟩
  rw [map_membersToJson]
  exact nodup_foldlM (d := ⟨[], []⟩) List.nodup_nil hall

end DocSearch.Toml
