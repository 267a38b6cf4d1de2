/-
# Integer fields read the same strings alike

An integer field holds one integer, one that may be missing, or a list, and the integers have 32 or
64 bits; one more type keeps a place for every string of its list.  All of them follow that last
one.  A list is what is left of its places when the empty ones are dropped, a single value is the
first place, and 32 bits give the places of 64 bits in which an integer beyond 32 bits counts as
missing (`narrowed`).

The step between the widths is that a digit which takes a number past a limit is refused as soon as
it is read, so that the two readers stop at different places of a long number.  That they agree on
the numbers which both can hold follows from `Decimal.Spells`, which says what a string stands for
under no limit at all: each reader accepts the strings that stand for an integer of its width, and
no others.

Main statement: `integers_alike`.
-/
import Mathlib.Data.List.ReduceOption
import DocSearch.Document.FieldType
import DocSearch.Proofs.Outcome
import DocSearch.Proofs.Text.Decimal

namespace DocSearch
namespace FieldType

/-! ## 1. Single strings -/

theorem readInt64_eq_some_iff {s : String} {n : Int64} :
    readInt64 s = some n ↔ Decimal.Spells s n.toInt := by
  rw [readInt64, Outcome.toOption_eq_some_iff, Decimal.readInt64_eq_ok_iff, Text.toList_trim,
    Decimal.spells_iff]

theorem readInt32_eq_some_iff {s : String} {n : Int32} :
    readInt32 s = some n ↔ Decimal.Spells s n.toInt := by
  rw [readInt32, Outcome.toOption_eq_some_iff, Decimal.readInt32_eq_ok_iff, Text.toList_trim,
    Decimal.spells_iff]

/-- A string is read exactly when it stands for an integer in range. -/
theorem isSome_readInt64_iff {s : String} :
    (readInt64 s).isSome = true ↔
      ∃ n : Int, Decimal.Spells s n ∧ -9223372036854775808 ≤ n ∧ n ≤ 9223372036854775807 := by
  rw [Option.isSome_iff_exists]
  constructor
  · rintro ⟨n, hn⟩
    have hlow := Int64.minValue_le_toInt n
    have hhigh := Int64.toInt_le n
    exact ⟨n.toInt, readInt64_eq_some_iff.mp hn, hlow, hhigh⟩
  · rintro ⟨n, hn, hlow, hhigh⟩
    have hsame : (Int64.ofInt n).toInt = n :=
      Int64.toInt_ofInt_of_le hlow (Int.lt_of_le_of_lt hhigh (by decide))
    exact ⟨Int64.ofInt n, readInt64_eq_some_iff.mpr (by rwa [hsame])⟩

/-- A 64-bit integer in 32 bits, if it is in their range. -/
def narrow? (n : Int64) : Option Int32 :=
  if -2147483648 ≤ n.toInt ∧ n.toInt ≤ 2147483647 then some (Int32.ofInt n.toInt) else none

theorem narrow?_eq_some_iff {n : Int64} {m : Int32} : narrow? n = some m ↔ n.toInt = m.toInt := by
  unfold narrow?
  constructor
  · intro h
    split at h
    · rename_i hrange
      obtain rfl := Option.some.inj h
      exact (Int32.toInt_ofInt_of_le hrange.1 (Int.lt_of_le_of_lt hrange.2 (by decide))).symm
    · cases h
  · intro h
    have hrange : -2147483648 ≤ m.toInt ∧ m.toInt ≤ 2147483647 :=
      ⟨Int32.minValue_le_toInt m, Int32.toInt_le m⟩
    rw [h, if_pos hrange, Int32.ofInt_toInt]

/-- **32 bits read what 64 bits read, as far as it fits.** -/
theorem readInt32_eq (s : String) : readInt32 s = (readInt64 s).bind narrow? := by
  refine Option.ext fun m => ?_
  rw [readInt32_eq_some_iff, Option.bind_eq_some_iff]
  constructor
  · intro h
    have hwide : m.toInt64.toInt = m.toInt := Int32.toInt_toInt64 m
    exact ⟨m.toInt64, readInt64_eq_some_iff.mpr (hwide ▸ h), narrow?_eq_some_iff.mpr hwide⟩
  · rintro ⟨n, hn, hm⟩
    rw [← narrow?_eq_some_iff.mp hm]
    exact readInt64_eq_some_iff.mp hn

/-! ## 2. Lists of strings -/

/-- The places of a list in 32 bits. -/
def narrowed (places : List (Option Int64)) : List (Option Int32) :=
  places.map fun place => place.bind narrow?

/-- A list, a value that may be missing and a value follow the places of one list: the places that
are taken, the first place, and 0 when that is empty or not there. -/
structure Follow {α : Type} [OfNat α 0] (places : List (Option α)) (all : List α)
    (first : Option α) (only : α) : Prop where
  all_eq : all = places.reduceOption
  first_eq : first = places.head?.join
  only_eq : only = first.getD 0

theorem follow_map {α : Type} [OfNat α 0] (read : String → Option α) (values : List String) :
    Follow (values.map read) (values.filterMap read) (values.head?.bind read)
      ((values.head?.bind read).getD 0) where
  all_eq := by rw [List.reduceOption, List.filterMap_map, Function.id_comp]
  first_eq := by cases values <;> rfl
  only_eq := rfl

/-- **The integer types read the same strings alike.**  A string is read exactly when it stands for
a 64-bit integer, blanks around it aside, and each string has its own place in the list of optional
integers.  The other types of 64 bits follow the places of that list, and those of 32 bits follow
its places in 32 bits. -/
theorem integers_alike (values : List String) :
    let places := ofWire .optInt64s values
    places.length = values.length ∧
      (∀ (i : Nat) (s : String), values[i]? = some s → ∀ n : Int64,
        places[i]? = some (some n) ↔ Decimal.Spells s n.toInt) ∧
      Follow places (ofWire .int64s values) (ofWire .optInt64 values) (ofWire .int64 values) ∧
      Follow (narrowed places) (ofWire .int32s values) (ofWire .optInt32 values)
        (ofWire .int32 values) ∧
      ∀ s, (ofWire .optInt64 [s]).isSome = true ↔
        ∃ n : Int, Decimal.Spells s n ∧ -9223372036854775808 ≤ n ∧ n ≤ 9223372036854775807 := by
  intro places
  have hplaces : places = values.map readInt64 := rfl
  have hnarrowed : narrowed places = values.map readInt32 := by
    rw [hplaces, narrowed, List.map_map]
    refine List.map_congr_left fun s _ => ?_
    rw [readInt32_eq, Function.comp_apply]
  refine ⟨?_, ?_, ?_, ?_, ?_⟩
  · rw [hplaces, List.length_map]
  · intro i s hs n
    rw [hplaces, List.getElem?_map, hs, Option.map_some, Option.some.injEq, readInt64_eq_some_iff]
  · simp only [hplaces, ofWire]
    exact follow_map readInt64 values
  · rw [hnarrowed]
    simp only [ofWire]
    exact follow_map readInt32 values
  · intro s
    simp only [ofWire, List.head?_cons, Option.bind_some]
    exact isSome_readInt64_iff

/-- One past the range of 32 bits, behind a no-break space, a sign and zeros. -/
example : ofWire .optInt64s ["\u00a0+002147483648 ", "--1", ""] = [some 2147483648, none, none] ∧
    ofWire .int32s ["\u00a0+002147483648 ", "2147483647"] = [2147483647] := by
  decide

end FieldType
end DocSearch
