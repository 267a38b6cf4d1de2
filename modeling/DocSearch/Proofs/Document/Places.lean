/-
# Places of a list of optional integers

A list of optional integers has a place for every string that it is read from.  Which strings these
are is settled before: the scalars of a JSON list have one string each, and `null`, lists and
objects have none.  So the places belong to the scalars of the list, in their order.  One is taken
by an integer or by a string that stands for one (`Holds`), and all others are empty: a truth value
is spelled by a word, and a double always has a point or an exponent, even where its value is a
whole number.

An empty place is written as `null`, which has no string.  A list that is written and read again
keeps the places that are taken and none of the others, and those behind a gap move up.

Main statements: `readInt64_scalarText_iff`, `places_follow_scalars`.
-/
import DocSearch.Proofs.Document.Integers
import DocSearch.Proofs.Document.RoundTrip

namespace DocSearch

/-! ## 1. Doubles are not spelled as integers -/

namespace Double

theorem point_mem_positional (d : Double.Decimal) : '.' ∈ positional d := by
  unfold positional
  dsimp only
  split
  · simp
  · split <;> simp

theorem exponent_mem_scientific (layout : Layout) (d : Double.Decimal) :
    'e' ∈ scientific layout d := by
  simp [scientific]

/-- **A finite double has a point or an exponent.** -/
theorem point_or_exponent_mem_text (layout : Layout) (negative : Bool) (m : Nat) (q : Int) :
    '.' ∈ text layout (.finite negative m q) ∨ 'e' ∈ text layout (.finite negative m q) := by
  refine Or.imp (List.mem_append_right _) (List.mem_append_right _) ?_
  by_cases hzero : m = 0
  · rw [if_pos hzero]
    exact .inl (by decide)
  · rw [if_neg hzero]
    dsimp only
    split
    · exact .inl (point_mem_positional _)
    · exact .inr (exponent_mem_scientific _ _)

end Double

/-- No double is spelled like an integer. -/
theorem Json.not_spells_ofDouble (x : Double) (n : Int) : ¬ Decimal.Spells (ofDouble x) n := by
  have hnull : ¬ Decimal.Spells "null" n :=
    Decimal.not_spells_of_mem (c := 'u') (by decide) (by decide) n
  cases x with
  | nan => exact hnull
  | infinite negative => exact hnull
  | finite negative m q =>
    have htext : (ofDouble (.finite negative m q)).toList =
        Double.text doubleLayout (.finite negative m q) := String.toList_ofList
    rcases Double.point_or_exponent_mem_text doubleLayout negative m q with hc | hc
    · exact Decimal.not_spells_of_mem (htext ▸ hc) (by decide) n
    · exact Decimal.not_spells_of_mem (htext ▸ hc) (by decide) n

namespace FieldType

/-! ## 2. Scalars -/

/-- Whether a value is a scalar: a text, a number or a truth value. -/
def isScalar : Json → Bool
  | .str _ => true
  | .int _ => true
  | .float _ => true
  | .bool _ => true
  | _ => false

/-- The value holds the integer: it is the integer, or a string that stands for it. -/
inductive Holds : Json → Int64 → Prop where
  | int (n : Int64) : Holds (.int n.toInt) n
  | str {s : String} {n : Int64} (h : Decimal.Spells s n.toInt) : Holds (.str s) n

/-- The scalars are what has a string. -/
theorem isSome_scalarText (j : Json) : (WireFields.scalarText j).isSome = isScalar j := by
  cases j with
  | bool b => cases b <;> rfl
  | _ => rfl

/-- **The string of a scalar is read as the integer that the scalar holds.** -/
theorem readInt64_scalarText_iff {j : Json} {text : String} {n : Int64}
    (h : WireFields.scalarText j = some text) : readInt64 text = some n ↔ Holds j n := by
  rw [readInt64_eq_some_iff]
  cases j with
  | str s =>
    obtain rfl := Option.some.inj h
    exact ⟨.str, fun | .str h => h⟩
  | int m =>
    obtain rfl := Option.some.inj h
    rw [Decimal.spells_ofInt_iff]
    constructor
    · rintro rfl
      exact .int n
    · intro h
      cases h
      rfl
  | float x =>
    obtain rfl := Option.some.inj h
    exact ⟨fun h => absurd h (Json.not_spells_ofDouble x _), fun h => nomatch h⟩
  | bool b =>
    -- both words have the letter that no integer has
    have hword : 'e' ∈ text.toList := by
      cases b
      all_goals
        obtain rfl := Option.some.inj h
        decide
    exact ⟨fun h => absurd h (Decimal.not_spells_of_mem hword (by decide) _), fun h => nomatch h⟩
  | null => cases h
  | arr items => cases h
  | obj members => cases h
  | unreadable => cases h

/-! ## 3. Lists -/

/-- The place is taken by what the value holds, and empty if it holds no integer. -/
def IsPlaceOf (j : Json) (place : Option Int64) : Prop := ∀ n, place = some n ↔ Holds j n

/-- The places that a list of values is read into. -/
def placesOf (items : List Json) : List (Option Int64) :=
  ofWire .optInt64s (WireFields.values (.arr items))

theorem forall₂_placesOf (items : List Json) :
    List.Forall₂ IsPlaceOf (items.filter isScalar) (placesOf items) := by
  induction items with
  | nil => exact .nil
  | cons item items ih =>
    have hscalar := isSome_scalarText item
    cases htext : WireFields.scalarText item with
    | none =>
      rw [htext] at hscalar
      rw [List.filter_cons_of_neg (by simp [← hscalar])]
      simpa only [placesOf, ofWire, WireFields.values, List.filterMap_cons_none htext] using ih
    | some text =>
      rw [htext] at hscalar
      rw [List.filter_cons_of_pos hscalar.symm]
      simp only [placesOf, ofWire, WireFields.values, List.filterMap_cons_some htext,
        List.map_cons]
      exact .cons (fun n => readInt64_scalarText_iff htext) ih

/-- Every value of the list has a place exactly when all of them are scalars. -/
theorem forall₂_placesOf_iff {items : List Json} :
    List.Forall₂ IsPlaceOf items (placesOf items) ↔ ∀ item ∈ items, isScalar item = true := by
  constructor
  · intro h
    have hlength := h.length_eq.trans (forall₂_placesOf items).length_eq.symm
    exact List.length_filter_eq_length_iff.mp hlength.symm
  · intro h
    have hplaces := forall₂_placesOf items
    rwa [List.filter_eq_self.mpr h] at hplaces

end FieldType

/-! ## 4. Hits -/

namespace Document

variable {s : Schema}

/-- The places of a field that holds a list of optional integers. -/
def places (d : Document s) (i : Fin s.size) (h : (s.field i).type = .optInt64s) :
    List (Option Int64) := cast (congrArg FieldType.Value h) (d.value i)

/-- A list in the data of a hit is read into the places of its field. -/
theorem places_ofHit {i : Fin s.size} (h : (s.field i).type = .optInt64s) (id : String)
    {data : List (String × Json)} {items : List Json}
    (hdata : data.lookup (s.field i).name = some (.arr items)) :
    (ofHit id (WireFields.ofJson (.obj data))).places i h = FieldType.placesOf items := by
  have hread : ∀ {t : FieldType} (ht : t = .optInt64s) (values : List String),
      cast (congrArg FieldType.Value ht) (t.ofWire values) =
        FieldType.ofWire .optInt64s values := by
    rintro t rfl values
    rfl
  have hwire : (WireFields.ofJson (.obj data)).lookup (s.field i).name =
      some (WireFields.values (.arr items)) := by
    rw [WireFields.ofJson, Json.lookup_map_values, hdata, Option.map_some]
  rw [places, ofHit, fill_of_lookup hwire, hread h, FieldType.placesOf]

end Document

namespace FieldType

/-- **The places of a list follow its scalars.**  Each of them has its place, which is taken by the
integer that it holds; so every value has its own place exactly when all of them are scalars, and a
list comes back exactly when it has no gap. -/
theorem places_follow_scalars (items : List Json) :
    List.Forall₂ IsPlaceOf (items.filter isScalar) (placesOf items) ∧
      (List.Forall₂ IsPlaceOf items (placesOf items) ↔ ∀ item ∈ items, isScalar item = true) ∧
      (∀ {s : Schema} (i : Fin s.size) (h : (s.field i).type = .optInt64s) (id : String)
        (data : List (String × Json)), data.lookup (s.field i).name = some (.arr items) →
        (Document.ofHit id (WireFields.ofJson (.obj data))).places i h = placesOf items) ∧
      ∀ values : List (Option Int64),
        ofWire .optInt64s (WireFields.values (toJson .optInt64s values)) =
          values.filter Option.isSome ∧
        (ofWire .optInt64s (WireFields.values (toJson .optInt64s values)) = values ↔
          none ∉ values) := by
  refine ⟨forall₂_placesOf items, forall₂_placesOf_iff, ?_, fun values => ?_⟩
  · intro s i h id data hdata
    exact Document.places_ofHit h id hdata
  · have hback : ofWire .optInt64s (WireFields.values (toJson .optInt64s values)) =
        values.filter Option.isSome := map_readInt64_values values
    rw [hback]
    exact ⟨rfl, filter_isSome_eq_self_iff⟩

/-- The counts of a hit on a sighting, with a gap. -/
theorem places_follow_scalars_counts :
    let counts : Fin Document.sightings.size := ⟨1, by decide⟩
    let items : List Json := [.int 1, .null, .str "+3 ", .bool true]
    let data : List (String × Json) := [("first", .str "1990-12-31"), ("counts", .arr items)]
    data.lookup (Document.sightings.field counts).name = some (.arr items) ∧
      (Document.ofHit "a" (WireFields.ofJson (.obj data))).places counts rfl =
        [some 1, some 3, none] := by
  intro counts items data
  have hplaces : placesOf items = [some 1, some 3, none] := by decide
  refine ⟨rfl, ?_⟩
  rw [← hplaces]
  exact (places_follow_scalars items).2.2.1 counts rfl "a" data rfl

/-- Strings, a truth value and a number past the range; the list and the object have no place. -/
example : placesOf [.str "\u00a0+07", .arr [.int 1], .bool true, .int 9223372036854775808, .obj [],
    .str "7 7", .int (-3)] = [some 7, none, none, none, some (-3)] := by
  decide

/-- With a gap the last of three values moves to the second place. -/
theorem places_not_kept :
    placesOf [.int 1, .null, .int 3] = [some 1, some 3] ∧
      ¬ List.Forall₂ IsPlaceOf [.int 1, .null, .int 3] (placesOf [.int 1, .null, .int 3]) ∧
      ofWire .optInt64s (WireFields.values (toJson .optInt64s [some 1, none, some 3])) =
        [some 1, some 3] := by
  refine ⟨by decide, fun h => ?_, by decide⟩
  exact absurd h.length_eq (by decide)

end FieldType
end DocSearch
