/-
# Documents that come back from the service

What is sent of a document and what a hit gives of it are different forms: values as JSON, `null`
left out, on the one side, lists of strings on the other.  A document that is sent and found again
is the same, but for what has no place in these forms: the part of a second of a date, dates whose
year has not four digits, and gaps in a list of integers.  The last are excluded here
(`HasNoGaps`); the first two are described by `kept`.  A leap second behind another second than the
last of a minute has no place either: such a date is found one second later (`found`).  Where there
is none (`HasLeapsLast`), what is found is what is kept.

A value that is not `null` is read back from its strings (`ofWire_toJson`).  One that is `null` is
not sent, and its field keeps the value of a field that was never set, which is the same
(`found_of_isNull`).

Main statements: `ofWire_toJson`, `lookup_fieldsJson`, `ofHit_fieldsJson`.
-/
import DocSearch.Proofs.Document.ActionJson
import DocSearch.Proofs.Document.InstantText
import DocSearch.Proofs.Json.Members

namespace DocSearch

/-! ## 1. Field values -/

namespace FieldType

/-- A value with what `f` makes of its dates: in a list those that it makes nothing of are left
out, and elsewhere they are missing. -/
def mapDates (f : Instant → Option Instant) : (t : FieldType) → t.Value → t.Value
  | .date, i => (f i).getD Instant.epoch
  | .optDate, i => i.bind f
  | .dates, values => values.filterMap f
  | .text, s => s
  | .optText, s => s
  | .texts, values => values
  | .int32, n => n
  | .int64, n => n
  | .optInt32, n => n
  | .optInt64, n => n
  | .int32s, values => values
  | .int64s, values => values
  | .optInt64s, values => values

/-- What is kept of a value that is sent and found again. -/
def kept (t : FieldType) (v : t.Value) : t.Value := t.mapDates Instant.kept? v

/-- What is found of a value that is sent. -/
def found (t : FieldType) (v : t.Value) : t.Value := t.mapDates Instant.found? v

/-- Whether leap seconds of the dates are the last of their minutes. -/
def HasLeapsLast : (t : FieldType) → t.Value → Prop
  | .date, i => i.HasLeapLast
  | .optDate, i => ∀ j ∈ i, j.HasLeapLast
  | .dates, values => ∀ i ∈ values, i.HasLeapLast
  | _, _ => True

/-- Where leap seconds are the last of their minutes, what is found is what is kept. -/
theorem found_eq_kept (t : FieldType) (v : t.Value) (h : t.HasLeapsLast v) :
    t.found v = t.kept v := by
  cases t with
  | date => exact congrArg (·.getD Instant.epoch) (Instant.found?_eq_kept? h)
  | optDate =>
    cases v with
    | none => rfl
    | some i => exact Instant.found?_eq_kept? (h i rfl)
  | dates => exact List.filterMap_congr fun i hi => Instant.found?_eq_kept? (h i hi)
  | _ => rfl

/-- Whether every place of a list of optional integers is taken. -/
def HasNoGaps : (t : FieldType) → t.Value → Prop
  | .optInt64s, values => none ∉ values
  | _, _ => True

theorem trim_ofInt (n : Int) : Text.trim (Decimal.ofInt n) = Decimal.ofInt n :=
  Text.trim_eq_self fun _ hc => Decimal.not_isBlank_of_isNumeric (Decimal.mem_ofInt hc)

theorem readInt32_ofInt (n : Int32) : readInt32 (Decimal.ofInt n.toInt) = some n := by
  rw [readInt32, trim_ofInt, Decimal.readInt32_ofInt]
  rfl

theorem readInt64_ofInt (n : Int64) : readInt64 (Decimal.ofInt n.toInt) = some n := by
  rw [readInt64, trim_ofInt, Decimal.readInt64_ofInt]
  rfl

theorem values_str (s : String) : WireFields.values (.str s) = [s] := rfl

theorem values_int (n : Int) : WireFields.values (.int n) = [Decimal.ofInt n] := rfl

/-- The strings of a list of scalars. -/
theorem values_arr_map {α : Type} {f : α → Json} {g : α → String}
    (h : ∀ a, WireFields.scalarText (f a) = some (g a)) (items : List α) :
    WireFields.values (.arr (items.map f)) = items.map g := by
  simp [WireFields.values, List.filterMap_map, h]

/-- Every place that is taken keeps what it holds, and the empty places are lost. -/
theorem map_readInt64_values (values : List (Option Int64)) :
    (WireFields.values (toJson .optInt64s values)).map readInt64 =
      values.filter Option.isSome := by
  induction values with
  | nil => rfl
  | cons n values ih =>
    simp only [toJson, WireFields.values, List.map_cons] at ih ⊢
    cases n with
    | none => exact ih
    | some n =>
      have hfirst := readInt64_ofInt n
      have hspelled : WireFields.scalarText (.int n.toInt) = some (Decimal.ofInt n.toInt) := rfl
      rw [orNull, List.filterMap_cons_some hspelled, List.map_cons, hfirst, ih,
        List.filter_cons_of_pos rfl]

/-- A list of places without a gap has no other places. -/
theorem filter_isSome_eq_self_iff {α : Type} {values : List (Option α)} :
    values.filter Option.isSome = values ↔ none ∉ values := by
  rw [List.filter_eq_self]
  constructor
  · intro h hnone
    cases h none hnone
  · intro h place hplace
    cases place with
    | none => exact absurd hplace h
    | some _ => rfl

/-- **A value that is not `null` comes back from its strings**, with what is found of its dates. -/
theorem ofWire_toJson (t : FieldType) (v : t.Value) (hgaps : t.HasNoGaps v)
    (hnull : (t.toJson v).isNull = false) :
    t.ofWire (WireFields.values (t.toJson v)) = t.found v := by
  cases t with
  | text => rfl
  | optText =>
    cases v with
    | none => cases hnull
    | some s => rfl
  | texts =>
    rw [toJson, values_arr_map (g := id) fun _ => rfl, List.map_id]
    rfl
  | int32 => simp [toJson, values_int, ofWire, found, mapDates, readInt32_ofInt]
  | int64 => simp [toJson, values_int, ofWire, found, mapDates, readInt64_ofInt]
  | optInt32 =>
    cases v with
    | none => cases hnull
    | some n => simp [toJson, orNull, values_int, ofWire, found, mapDates, readInt32_ofInt]
  | optInt64 =>
    cases v with
    | none => cases hnull
    | some n => simp [toJson, orNull, values_int, ofWire, found, mapDates, readInt64_ofInt]
  | int32s =>
    rw [toJson, values_arr_map (g := fun n => Decimal.ofInt n.toInt) fun _ => rfl]
    simp [ofWire, found, mapDates, List.filterMap_map, readInt32_ofInt]
  | int64s =>
    rw [toJson, values_arr_map (g := fun n => Decimal.ofInt n.toInt) fun _ => rfl]
    simp [ofWire, found, mapDates, List.filterMap_map, readInt64_ofInt]
  | optInt64s => exact (map_readInt64_values v).trans (filter_isSome_eq_self_iff.mpr hgaps)
  | date => simp [toJson, values_str, ofWire, found, mapDates, Instant.ofText_text]
  | optDate =>
    cases v with
    | none => cases hnull
    | some i => simp [toJson, orNull, values_str, ofWire, found, mapDates, Instant.ofText_text]
  | dates =>
    rw [toJson, values_arr_map (g := Instant.text) fun _ => rfl]
    simp [ofWire, found, mapDates, List.filterMap_map, Instant.ofText_text]

/-- A value that is not sent is that of a field that was never set. -/
theorem found_of_isNull (t : FieldType) (v : t.Value) (hnull : (t.toJson v).isNull = true) :
    t.found v = t.default := by
  cases t with
  | optText =>
    cases v with
    | none => rfl
    | some s => cases hnull
  | optInt32 =>
    cases v with
    | none => rfl
    | some n => cases hnull
  | optInt64 =>
    cases v with
    | none => rfl
    | some n => cases hnull
  | optDate =>
    cases v with
    | none => rfl
    | some i => cases hnull
  | _ => cases hnull

end FieldType

/-! ## 2. Documents -/

namespace Document

variable {s : Schema}

/-- What is kept of a document that is sent and found again. -/
def kept (d : Document s) : Document s :=
  { d with value := fun i => (s.field i).type.kept (d.value i) }

/-- What is found of a document that is sent. -/
def found (d : Document s) : Document s :=
  { d with value := fun i => (s.field i).type.found (d.value i) }

/-- Whether leap seconds of the dates in the document are the last of their minutes. -/
def HasLeapsLast (d : Document s) : Prop := ∀ i, (s.field i).type.HasLeapsLast (d.value i)

/-- Whether no list of optional integers in the document has a gap. -/
def HasNoGaps (d : Document s) : Prop := ∀ i, (s.field i).type.HasNoGaps (d.value i)

/-- What is sent under the name of a field is the value of that field, unless it is `null`. -/
theorem lookup_fieldsJson (d : Document s) (i : Fin s.size) :
    d.fieldsJson.lookup (s.field i).name =
      if ((s.field i).type.toJson (d.value i)).isNull then none
      else some ((s.field i).type.toJson (d.value i)) := by
  have honce : (d.members.map (·.1)).Nodup := by
    rw [map_members]
    exact s.names_nodup
  have hsub : d.fieldsJson.Sublist d.members := List.filter_sublist
  have hmem : ((s.field i).name, (s.field i).type.toJson (d.value i)) ∈ d.members :=
    List.mem_map.mpr ⟨i, List.mem_finRange i, rfl⟩
  split
  · rename_i hnull
    rw [Option.eq_none_iff_forall_ne_some]
    intro j hj
    rw [Json.lookup_eq_some_iff_mem (honce.sublist (hsub.map _))] at hj
    -- the member that was found would be the one that was left out
    have hsame := (Json.lookup_eq_some_iff_mem honce).mpr (hsub.subset hj)
    rw [(Json.lookup_eq_some_iff_mem honce).mpr hmem] at hsame
    cases hsame
    have hkept := (List.mem_filter.mp hj).2
    simp [hnull] at hkept
  · rename_i hnull
    rw [Json.lookup_eq_some_iff_mem (honce.sublist (hsub.map _))]
    exact List.mem_filter.mpr ⟨hmem, by simpa using hnull⟩

/-- **What a hit gives of a document that was sent.** -/
theorem ofHit_fieldsJson_eq_found (d : Document s) (hgaps : d.HasNoGaps) (id : String) :
    ofHit id (WireFields.ofJson (.obj d.fieldsJson)) = d.found.withId id := by
  refine Document.ext rfl (funext fun i => ?_)
  have hlookup : (WireFields.ofJson (.obj d.fieldsJson)).lookup (s.field i).name =
      (d.fieldsJson.lookup (s.field i).name).map WireFields.values :=
    Json.lookup_map_values WireFields.values
  rw [lookup_fieldsJson] at hlookup
  change (ofHit id _).value i = (s.field i).type.found (d.value i)
  cases hnull : ((s.field i).type.toJson (d.value i)).isNull with
  | true =>
    simp only [hnull, if_true, Option.map_none] at hlookup
    rw [ofHit, fill_of_not_mem hlookup, FieldType.found_of_isNull _ _ hnull]
    rfl
  | false =>
    simp only [hnull, Bool.false_eq_true, if_false, Option.map_some] at hlookup
    rw [ofHit, fill_of_lookup hlookup, FieldType.ofWire_toJson _ _ (hgaps i) hnull]

/-- **A document that is sent and found again is the same, as far as it is kept**, with the
identifier of the hit, if the leap seconds of its dates are the last of their minutes.  Whatever
they are, each date is found as the second that is written. -/
theorem ofHit_fieldsJson (d : Document s) (hgaps : d.HasNoGaps) (id : String) :
    ofHit id (WireFields.ofJson (.obj d.fieldsJson)) = d.found.withId id ∧
      (d.HasLeapsLast →
        ofHit id (WireFields.ofJson (.obj d.fieldsJson)) = d.kept.withId id) := by
  have hfound := ofHit_fieldsJson_eq_found d hgaps id
  refine ⟨hfound, fun hleaps => ?_⟩
  have hkept : d.found = d.kept :=
    Document.ext rfl (funext fun i => FieldType.found_eq_kept _ _ (hleaps i))
  rw [hfound, hkept]

/-- The fields of a sighting: a missing note, counts, and dates. -/
def sightings : Schema where
  fields := [⟨"note", .optText⟩, ⟨"counts", .optInt64s⟩, ⟨"first", .date⟩, ⟨"others", .dates⟩]

/-- A sighting within the leap second at the end of 1990, and three others: in the year 10000, a
quarter of a second before 1970, and in the year before the year 0. -/
def sighting : Document sightings where
  id := "a"
  value
    | ⟨0, _⟩ => (none : Option String)
    | ⟨1, _⟩ => [some Int64.minValue, some 0, some Int64.maxValue]
    | ⟨2, _⟩ => (⟨662687999, 1500000000, by decide⟩ : Instant)
    | ⟨3, _⟩ => [⟨253402300800, 750000000, by decide⟩, ⟨-1, 750000000, by decide⟩,
        ⟨-62167219201, 750000000, by decide⟩]
    | ⟨_ + 4, h⟩ => absurd h (Nat.not_lt.mpr (Nat.le_add_left 4 _))

/-- What comes back: the leap second without its half, and of the others the one in 1969. -/
def sightingFound : Document sightings where
  id := "b"
  value
    | ⟨0, _⟩ => (none : Option String)
    | ⟨1, _⟩ => [some Int64.minValue, some 0, some Int64.maxValue]
    | ⟨2, _⟩ => (⟨662687999, 1000000000, by decide⟩ : Instant)
    | ⟨3, _⟩ => [{ Instant.epoch with seconds := -1 }]
    | ⟨_ + 4, h⟩ => absurd h (Nat.not_lt.mpr (Nat.le_add_left 4 _))

theorem ofHit_fieldsJson_sighting :
    sighting.HasNoGaps ∧ sighting.HasLeapsLast ∧
      ofHit "b" (WireFields.ofJson (.obj sighting.fieldsJson)) = sightingFound := by
  have hgaps : sighting.HasNoGaps := by
    intro i
    match i with
    | ⟨0, _⟩ => trivial
    | ⟨1, _⟩ =>
      change none ∉ [some Int64.minValue, some 0, some Int64.maxValue]
      decide
    | ⟨2, _⟩ => trivial
    | ⟨3, _⟩ => trivial
    | ⟨_ + 4, h⟩ => exact absurd h (Nat.not_lt.mpr (Nat.le_add_left 4 _))
  have hleaps : sighting.HasLeapsLast := by
    intro i
    match i with
    | ⟨0, _⟩ => trivial
    | ⟨1, _⟩ => trivial
    | ⟨2, _⟩ => exact fun _ => rfl
    | ⟨3, _⟩ =>
      intro j hj hlong
      have hshort : j.nanos < 1000000000 := by
        rcases List.mem_cons.mp hj with rfl | hj
        · decide
        · rcases List.mem_cons.mp hj with rfl | hj
          · decide
          · cases List.mem_singleton.mp hj
            decide
      exact absurd hlong (Nat.not_le.mpr hshort)
    | ⟨_ + 4, h⟩ => exact absurd h (Nat.not_lt.mpr (Nat.le_add_left 4 _))
  refine ⟨hgaps, hleaps, ((ofHit_fieldsJson sighting hgaps "b").2 hleaps).trans ?_⟩
  refine Document.ext rfl (funext fun i => ?_)
  match i with
  | ⟨0, _⟩ => rfl
  | ⟨1, _⟩ => rfl
  | ⟨2, _⟩ => rfl
  | ⟨3, _⟩ => rfl
  | ⟨_ + 4, h⟩ => exact absurd h (Nat.not_lt.mpr (Nat.le_add_left 4 _))

end Document
end DocSearch
