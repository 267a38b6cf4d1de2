/-
# Outcomes

A reader gives a value or says why there is none.  What is known of an outcome that was made out of
others, by a function of its value, by another reader behind it, or by reading a list item by item,
is stated here both ways: for the value and for the fault.  The fault of a list is that of its first
item that cannot be read, which the items before it do not share.

Main statements: `mapM_eq_ok_iff`, `mapM_eq_error_iff`.
-/
import Mathlib.Data.List.Forall2

namespace DocSearch.Outcome

variable {ε ε' α β : Type}

/-! ## 1. One outcome -/

section Single

variable {x : Except ε α}

theorem toOption_eq_some_iff {a : α} : x.toOption = some a ↔ x = .ok a := by
  cases x <;> simp [Except.toOption]

theorem map_eq_ok_iff {f : α → β} {b : β} : x.map f = .ok b ↔ ∃ a, x = .ok a ∧ f a = b := by
  cases x <;> simp [Except.map]

theorem map_eq_error_iff {f : α → β} {fault : ε} : x.map f = .error fault ↔ x = .error fault := by
  cases x <;> simp [Except.map]

theorem mapError_eq_ok_iff {f : ε → ε'} {a : α} : x.mapError f = .ok a ↔ x = .ok a := by
  cases x <;> simp [Except.mapError]

theorem mapError_eq_error_iff {f : ε → ε'} {fault : ε'} :
    x.mapError f = .error fault ↔ ∃ cause, x = .error cause ∧ f cause = fault := by
  cases x <;> simp [Except.mapError]

theorem bind_eq_ok_iff {next : α → Except ε β} {b : β} :
    x.bind next = .ok b ↔ ∃ a, x = .ok a ∧ next a = .ok b := by
  cases x <;> simp [Except.bind]

theorem bind_eq_error_iff {next : α → Except ε β} {fault : ε} :
    x.bind next = .error fault ↔
      x = .error fault ∨ ∃ a, x = .ok a ∧ next a = .error fault := by
  cases x <;> simp [Except.bind]

end Single

/-! ## 2. Lists -/

section Lists

variable {read : α → Except ε β} {parts : List α}

/-- What reading a list one after the other comes to. -/
theorem mapM_cons (read : α → Except ε β) (part : α) (parts : List α) :
    (part :: parts).mapM read =
      (read part).bind fun value => (parts.mapM read).map fun values => value :: values := by
  rw [List.mapM_cons]
  cases read part with
  | error fault => rfl
  | ok value => cases parts.mapM read <;> rfl

/-- **A list is read exactly when each of its items is**, and gives their values in order. -/
theorem mapM_eq_ok_iff {values : List β} :
    parts.mapM read = .ok values ↔
      List.Forall₂ (fun part value => read part = .ok value) parts values := by
  induction parts generalizing values with
  | nil =>
    rw [List.forall₂_nil_left_iff]
    exact ⟨fun h => (Except.ok.inj h).symm, fun h => h ▸ rfl⟩
  | cons part parts ih =>
    rw [mapM_cons, bind_eq_ok_iff, List.forall₂_cons_left_iff]
    simp only [map_eq_ok_iff, ih]
    constructor
    · rintro ⟨value, hvalue, rest, hrest, rfl⟩
      exact ⟨value, rest, hvalue, hrest, rfl⟩
    · rintro ⟨value, rest, hvalue, hrest, rfl⟩
      exact ⟨value, hvalue, rest, hrest, rfl⟩

/-- **A list fails with its first item that cannot be read.** -/
theorem mapM_eq_error_iff {fault : ε} :
    parts.mapM read = .error fault ↔
      ∃ before part after, parts = before ++ part :: after ∧
        (∀ other ∈ before, ∃ value, read other = .ok value) ∧ read part = .error fault := by
  induction parts with
  | nil =>
    constructor
    · intro h
      cases h
    · rintro ⟨before, part, after, hparts, -⟩
      simp at hparts
  | cons first parts ih =>
    rw [mapM_cons, bind_eq_error_iff]
    simp only [map_eq_error_iff, ih]
    constructor
    · rintro (hfirst | ⟨value, hfirst, before, part, after, rfl, hbefore, hpart⟩)
      · exact ⟨[], first, parts, rfl, fun other hother => absurd hother List.not_mem_nil, hfirst⟩
      · exact ⟨first :: before, part, after, rfl,
          List.forall_mem_cons.mpr ⟨⟨value, hfirst⟩, hbefore⟩, hpart⟩
    · rintro ⟨before, part, after, hparts, hbefore, hpart⟩
      cases before with
      | nil =>
        obtain ⟨rfl, rfl⟩ := List.cons.inj hparts
        exact Or.inl hpart
      | cons other before =>
        obtain ⟨rfl, rfl⟩ := List.cons.inj hparts
        obtain ⟨⟨value, hfirst⟩, hrest⟩ := List.forall_mem_cons.mp hbefore
        exact Or.inr ⟨value, hfirst, before, part, after, rfl, hrest, hpart⟩

/-- A list is read when each of its items is. -/
theorem exists_mapM_eq_ok_iff :
    (∃ values, parts.mapM read = .ok values) ↔ ∀ part ∈ parts, ∃ value, read part = .ok value := by
  induction parts with
  | nil => exact ⟨fun _ part hpart => absurd hpart List.not_mem_nil, fun _ => ⟨[], rfl⟩⟩
  | cons first parts ih =>
    rw [mapM_cons, List.forall_mem_cons, ← ih]
    simp only [bind_eq_ok_iff, map_eq_ok_iff]
    constructor
    · rintro ⟨values, value, hvalue, rest, hrest, -⟩
      exact ⟨⟨value, hvalue⟩, rest, hrest⟩
    · rintro ⟨⟨value, hvalue⟩, rest, hrest⟩
      exact ⟨value :: rest, value, hvalue, rest, hrest, rfl⟩

end Lists

end DocSearch.Outcome
