/-
# The texts and records of ranges

Which texts are ranges is said here without the reader.  The first two dots of a text part it
(`Text.IsFirstSplit`), so a third dot belongs to the second bound and spoils it; a bound is blank,
or an integer in the sense of `Decimal.Denotes` with blanks around it and none inside
(`SpellsBound`).  The reader accepts a text exactly when it spells two bounds in this way that are
not both absent, and then gives these bounds (`exists_ofText_iff`).  The same is said of records
(`Records`): as an object or an array, with `null` for an absent bound.

A range is never without a bound, so what is left to say about the ways to make one is what they
do when no bound is given: `ofBounds`, `ofText` and `ofJson` all refuse.  All other ways, those
that replace a value or add a constraint among them, start from a bound.

Main statement: `readings_exact`.
-/
import DocSearch.Failure
import DocSearch.Proofs.Filter.ConditionJson
import DocSearch.Proofs.Filter.Range
import DocSearch.Proofs.Outcome

namespace DocSearch
namespace Range

/-! ## 1. Texts -/

/-- A text stands for a bound: a blank one for none, and an integer with blanks around it for
itself. -/
inductive SpellsBound (cs : List Char) : Option Int64 → Prop where
  | absent (h : Text.trimWhere Text.isBlank cs = []) : SpellsBound cs none
  | present {n : Int64} (h : Decimal.Denotes (Text.trimWhere Text.isBlank cs) n.toInt) :
      SpellsBound cs (some n)

/-- A text stands for two bounds, one on each side of its first two dots. -/
def Spells (s : String) (lower upper : Option Int64) : Prop :=
  ∃ before after, Text.IsFirstSplit ['.', '.'] s.toList before after ∧
    SpellsBound before lower ∧ SpellsBound after upper

theorem readBound_eq_ok_iff {cs : List Char} {bound : Option Int64} :
    readBound cs = .ok bound ↔ SpellsBound cs bound := by
  have hempty : (String.ofList (Text.trimWhere Text.isBlank cs)).isEmpty = true ↔
      Text.trimWhere Text.isBlank cs = [] := by
    rw [String.isEmpty_iff, ← String.toList_inj, String.toList_ofList]
    rfl
  unfold readBound
  -- no integer is spelled by blanks alone, so at most one of the two readings applies
  by_cases hblank : Text.trimWhere Text.isBlank cs = []
  · rw [if_pos (hempty.mpr hblank)]
    constructor
    · intro h
      obtain rfl := Except.ok.inj h
      exact .absent hblank
    · intro h
      cases h with
      | absent => rfl
      | present h => exact absurd (hblank ▸ h) Decimal.not_denotes_nil
  · rw [if_neg (fun h => hblank (hempty.mp h))]
    have hread := fun n => Decimal.readInt64_eq_ok_iff (n := n)
      (s := String.ofList (Text.trimWhere Text.isBlank cs))
    simp only [String.toList_ofList] at hread
    constructor
    · intro h
      split at h
      · rename_i n hn
        obtain rfl := Except.ok.inj h
        exact .present ((hread n).mp hn)
      · cases h
    · intro h
      cases h with
      | absent h => exact absurd h hblank
      | present h => rw [(hread _).mpr h]

/-- A range is made of two bounds exactly when one of them is given. -/
theorem exists_ofBounds_iff {lower upper l u : Option Int64} :
    (∃ r, ofBounds lower upper = .ok r ∧ r.lower = l ∧ r.upper = u) ↔
      (lower = l ∧ upper = u) ∧ (l ≠ none ∨ u ≠ none) := by
  constructor
  · rintro ⟨r, hr, rfl, rfl⟩
    obtain ⟨hlower, hupper⟩ := ofBounds_eq_ok_iff.mp hr
    refine ⟨⟨hlower.symm, hupper.symm⟩, ?_⟩
    rw [← Option.isSome_iff_ne_none, ← Option.isSome_iff_ne_none]
    exact r.bounded
  · rintro ⟨⟨rfl, rfl⟩, hbounded⟩
    rw [← Option.isSome_iff_ne_none, ← Option.isSome_iff_ne_none] at hbounded
    exact ⟨⟨lower, upper, hbounded⟩, ofBounds_eq_ok_iff.mpr ⟨rfl, rfl⟩, rfl, rfl⟩

/-- **A text is read as a range exactly when it spells its bounds**, not both of them absent. -/
theorem exists_ofText_iff {s : String} {lower upper : Option Int64} :
    (∃ r, ofText s = .ok r ∧ r.lower = lower ∧ r.upper = upper) ↔
      Spells s lower upper ∧ (lower ≠ none ∨ upper ≠ none) := by
  constructor
  · rintro ⟨r, hr, hbounds⟩
    unfold ofText at hr
    split at hr
    · cases hr
    · rename_i before after hsplit
      cases hl : readBound before with
      | error fault => rw [hl] at hr; cases hr
      | ok l =>
        cases hu : readBound after with
        | error fault => rw [hl, hu] at hr; cases hr
        | ok u =>
          rw [hl, hu] at hr
          obtain ⟨⟨rfl, rfl⟩, hbounded⟩ := exists_ofBounds_iff.mp ⟨r, hr, hbounds⟩
          exact ⟨⟨before, after, Text.splitOnce_eq_some_iff.mp hsplit,
            readBound_eq_ok_iff.mp hl, readBound_eq_ok_iff.mp hu⟩, hbounded⟩
  · rintro ⟨⟨before, after, hsplit, hl, hu⟩, hbounded⟩
    unfold ofText
    rw [Text.splitOnce_eq_some_iff.mpr hsplit]
    simp only [readBound_eq_ok_iff.mpr hl, readBound_eq_ok_iff.mpr hu]
    exact exists_ofBounds_iff.mpr ⟨⟨rfl, rfl⟩, hbounded⟩

theorem ofText_eq_ok_iff {s : String} {r : Range} :
    ofText s = .ok r ↔ Spells s r.lower r.upper := by
  constructor
  · intro h
    exact (exists_ofText_iff.mp ⟨r, h, rfl, rfl⟩).1
  · intro h
    have hbounded : r.lower ≠ none ∨ r.upper ≠ none := by
      rw [← Option.isSome_iff_ne_none, ← Option.isSome_iff_ne_none]
      exact r.bounded
    obtain ⟨r', hread, hlower, hupper⟩ := exists_ofText_iff.mpr ⟨h, hbounded⟩
    have hsame : r' = r := by
      cases r
      cases r'
      cases hlower
      cases hupper
      rfl
    exact hsame ▸ hread

/-! ## 2. Records -/

/-- What stands under the name of a bound says which bound it is: nothing and `null` say that there
is none. -/
inductive GivesBound : Option Json → Option Int64 → Prop where
  | missing : GivesBound none none
  | null : GivesBound (some .null) none
  | present (n : Int64) : GivesBound (some (.int n.toInt)) (some n)

/-- A JSON value records two bounds: as an object, in which each of the two names stands once at
most, next to any others; or as an array of two items at most, the lower bound first. -/
inductive Records : Json → Option Int64 → Option Int64 → Prop where
  | object {members : List (String × Json)} {lower upper : Option Int64}
      (once : ∀ name ∈ ["from", "to"], (members.map (·.1)).count name ≤ 1)
      (hlower : GivesBound (members.lookup "from") lower)
      (hupper : GivesBound (members.lookup "to") upper) : Records (.obj members) lower upper
  | array {items : List Json} {lower upper : Option Int64} (short : items.length ≤ 2)
      (hlower : GivesBound items[0]? lower) (hupper : GivesBound items[1]? upper) :
      Records (.arr items) lower upper

theorem nullable_int64?_eq_some_iff {j : Json} {bound : Option Int64} :
    Json.nullable? Json.int64? j = some bound ↔ GivesBound (some j) bound := by
  constructor
  · intro h
    unfold Json.nullable? at h
    split at h
    · obtain rfl := Option.some.inj h
      exact .null
    · obtain ⟨n, hn, rfl⟩ := Option.map_eq_some_iff.mp h
      rw [Json.int64?_eq_some_iff.mp hn]
      exact .present n
  · intro h
    cases h with
    | null => rfl
    | present n =>
      rw [Json.nullable?, Json.int64?_toInt, Option.map_some]
      rintro ⟨⟩

theorem optional_iff_givesBound {name : String} {given : List (String × Json)}
    {bound : Option Int64} :
    Json.optional (Json.nullable? Json.int64?) none name given = some bound ↔
      GivesBound (given.lookup name) bound := by
  refine Json.optional_eq_some_iff (fun h => ?_) fun j h => ?_
  · rw [h]
    exact ⟨fun | rfl => .missing, fun | .missing => rfl⟩
  · rw [h, nullable_int64?_eq_some_iff]

/-- The parts of a record, under the names of the two bounds. -/
theorem records_iff {j : Json} {lower upper : Option Int64} :
    Records j lower upper ↔ ∃ given, j.fields? .json ["from", "to"] = some given ∧
      GivesBound (given.lookup "from") lower ∧ GivesBound (given.lookup "to") upper := by
  constructor
  · intro h
    cases h with
    | @object members lower upper once hlower hupper =>
      refine ⟨_, if_pos (Json.nodup_known_iff.mpr once), ?_, ?_⟩
      · rwa [Json.lookup_known (by decide)]
      · rwa [Json.lookup_known (by decide)]
    | @array items lower upper short hlower hupper =>
      refine ⟨_, Json.fields?_listed short, ?_, ?_⟩
      · match items with
        | [] => exact hlower
        | [l] => exact hlower
        | l :: u :: items => exact hlower
      · match items with
        | [] => exact hupper
        | [l] => exact hupper
        | l :: u :: items => exact hupper
  · rintro ⟨given, hgiven, hlower, hupper⟩
    cases j with
    | obj members =>
      change (if _ then _ else none) = _ at hgiven
      split at hgiven
      · rename_i once
        obtain rfl := Option.some.inj hgiven
        rw [Json.lookup_known (by decide)] at hlower hupper
        exact .object (Json.nodup_known_iff.mp once) hlower hupper
      · cases hgiven
    | arr items =>
      change (if _ then _ else none) = _ at hgiven
      split at hgiven
      · rename_i hshort
        obtain rfl := Option.some.inj hgiven
        have short : items.length ≤ 2 := hshort.2.resolve_left (by decide)
        match items with
        | [] => exact .array short hlower hupper
        | [l] => exact .array short hlower hupper
        | [l, u] => exact .array short hlower hupper
      · cases hgiven
    | null => cases hgiven
    | bool b => cases hgiven
    | int n => cases hgiven
    | float x => cases hgiven
    | str s => cases hgiven
    | unreadable => cases hgiven

/-- **A JSON value is read as a range exactly when it records its bounds**, not both of them
absent. -/
theorem exists_ofJson_iff {j : Json} {lower upper : Option Int64} :
    (∃ r, ofJson j = some r ∧ r.lower = lower ∧ r.upper = upper) ↔
      Records j lower upper ∧ (lower ≠ none ∨ upper ≠ none) := by
  rw [records_iff]
  simp only [ofJson, Option.bind_eq_bind, Option.bind_eq_some_iff, Outcome.toOption_eq_some_iff,
    optional_iff_givesBound]
  constructor
  · rintro ⟨r, ⟨given, hgiven, l, hl, u, hu, hr⟩, hparts⟩
    obtain ⟨⟨rfl, rfl⟩, hbounded⟩ := exists_ofBounds_iff.mp ⟨r, hr, hparts⟩
    exact ⟨⟨given, hgiven, hl, hu⟩, hbounded⟩
  · rintro ⟨⟨given, hgiven, hl, hu⟩, hbounded⟩
    obtain ⟨r, hr, hparts⟩ := exists_ofBounds_iff.mpr ⟨⟨rfl, rfl⟩, hbounded⟩
    exact ⟨r, ⟨given, hgiven, lower, hl, upper, hu, hr⟩, hparts⟩

/-- The record of a range is read back, also by way of its text. -/
theorem decode_compact (r : Range) : Json.decode ofJson r.toJson.compact = some r := by
  obtain ⟨hexact, hnesting⟩ := isExact_toJson r
  refine Json.says_of_isExact hexact (ofJson_toJson r) ?_
  exact Nat.le_trans hnesting (by decide)

/-! ## 3. All forms of a range -/

/-- **Every way to a range is exact, and every range has a way back.**  Bounds, texts and records
give a range exactly when they say what its bounds are and one bound is given; a text that does not
is an invalid range.  Every range has a bound, and is read back from its text, from its record and
from the text of its record. -/
theorem readings_exact :
    (∀ s lower upper, (∃ r, ofText s = .ok r ∧ r.lower = lower ∧ r.upper = upper) ↔
      Spells s lower upper ∧ (lower ≠ none ∨ upper ≠ none)) ∧
    (∀ s, (∃ lower upper, Spells s lower upper ∧ (lower ≠ none ∨ upper ≠ none)) ∨
      ∃ fault, ofText s = .error fault ∧ (Failure.ofRange fault).kind = .invalidRange) ∧
    (∀ lower upper l u, (∃ r, ofBounds lower upper = .ok r ∧ r.lower = l ∧ r.upper = u) ↔
      (lower = l ∧ upper = u) ∧ (l ≠ none ∨ u ≠ none)) ∧
    (∀ j lower upper, (∃ r, ofJson j = some r ∧ r.lower = lower ∧ r.upper = upper) ↔
      Records j lower upper ∧ (lower ≠ none ∨ upper ≠ none)) ∧
    ∀ r : Range, (r.lower ≠ none ∨ r.upper ≠ none) ∧ ofText r.text = .ok r ∧
      ofJson r.toJson = some r ∧ Json.decode ofJson r.toJson.compact = some r := by
  refine ⟨fun _ _ _ => exists_ofText_iff, ?_, fun _ _ _ _ => exists_ofBounds_iff,
    fun _ _ _ => exists_ofJson_iff, ?_⟩
  · intro s
    cases h : ofText s with
    | error fault => exact Or.inr ⟨fault, rfl, rfl⟩
    | ok r => exact Or.inl ⟨r.lower, r.upper, exists_ofText_iff.mp ⟨r, h, rfl, rfl⟩⟩
  · intro r
    refine ⟨?_, ofText_text r, ofJson_toJson r, decode_compact r⟩
    exact (exists_ofText_iff.mp ⟨r, ofText_text r, rfl, rfl⟩).2

/-- Blanks around a bound, a plus sign and zeros in front do not matter; a third dot does. -/
example : ofText " +007 ..\t-3" = .ok (between 7 (-3)) ∧
    ofText "7...9" = .error (.badBound ".9" .invalidDigit) := by
  decide

end Range
end DocSearch
