/-
# Documents filled again and again

A document may be filled more than once: each update names another identifier or leaves the one it
finds, and overwrites the fields that its data has a key for.  What a run of updates leaves in a
field is what the last one with the field's key says, however little that is: an empty list or a
string that does not read as the type puts the field back to its default and is not passed over.

Filling is a loop over the table that sets one field after the other.  `fill` takes all fields at
once, and the first section proves the two equal for every order in which the table may be gone
through.  The run is then an induction on the updates, made once for anything of a document that an
update overwrites or leaves (`foldl_update`); the identifier and the fields are its cases.

Main statement: `ofUpdates_lastWritten`.
-/
import Mathlib.Logic.Function.Basic
import DocSearch.Document.Basic
import DocSearch.Proofs.Json.Members

namespace DocSearch

/-! ## 1. One field after the other -/

/-- The strings under a key are those of the value under it. -/
theorem WireFields.lookup_ofJson (data : Json) (key : String) :
    (WireFields.ofJson data).lookup key = (data.get? key).map WireFields.values := by
  cases data with
  | obj members => exact Json.lookup_map_values WireFields.values
  | _ => rfl

namespace Document

variable {s : Schema}

/-- The document with one field overwritten by what the strings stand for. -/
def set (i : Fin s.size) (values : List String) (d : Document s) : Document s :=
  { d with value := Function.update d.value i ((s.field i).type.ofWire values) }

/-- The document with one field set, if it is named. -/
def setNamed (wire : WireFields) (d : Document s) (i : Fin s.size) : Document s :=
  match wire.lookup (s.field i).name with
  | some values => d.set i values
  | none => d

/-- The document with the fields at the positions set one after the other, each if it is named. -/
def setEach (wire : WireFields) (positions : List (Fin s.size)) (d : Document s) : Document s :=
  positions.foldl (setNamed wire) d

theorem id_setNamed (wire : WireFields) (d : Document s) (i : Fin s.size) :
    (d.setNamed wire i).id = d.id := by
  unfold setNamed
  split <;> rfl

/-- Setting a field fills it and touches no other. -/
theorem value_setNamed (wire : WireFields) (d : Document s) (i k : Fin s.size) :
    (d.setNamed wire i).value k = if k = i then (d.fill wire).value k else d.value k := by
  unfold setNamed
  split
  · rename_i values hnamed
    by_cases hk : k = i
    · subst hk
      rw [if_pos rfl, fill_of_lookup hnamed]
      exact Function.update_self ..
    · rw [if_neg hk]
      exact Function.update_of_ne hk ..
  · rename_i hnamed
    split
    · next hk => rw [hk, fill_of_not_mem hnamed]
    · rfl

/-- What filling makes of a document does not depend on the fields that it overwrites. -/
theorem fill_setNamed (wire : WireFields) (d : Document s) (i : Fin s.size) :
    (d.setNamed wire i).fill wire = d.fill wire := by
  refine Document.ext (id_setNamed wire d i) (funext fun k => ?_)
  cases hnamed : wire.lookup (s.field k).name with
  | some values => rw [fill_of_lookup hnamed, fill_of_lookup hnamed]
  | none =>
    rw [fill_of_not_mem hnamed, value_setNamed, fill_of_not_mem hnamed, ite_self]

theorem id_setEach (wire : WireFields) (positions : List (Fin s.size)) (d : Document s) :
    (d.setEach wire positions).id = d.id := by
  induction positions generalizing d with
  | nil => rfl
  | cons i positions ih => exact (ih _).trans (id_setNamed wire d i)

/-- The fields at the positions are filled, and no others. -/
theorem value_setEach (wire : WireFields) (positions : List (Fin s.size)) (d : Document s)
    (k : Fin s.size) :
    (k ∈ positions → (d.setEach wire positions).value k = (d.fill wire).value k) ∧
      (k ∉ positions → (d.setEach wire positions).value k = d.value k) := by
  induction positions generalizing d with
  | nil => exact ⟨fun hk => absurd hk List.not_mem_nil, fun _ => rfl⟩
  | cons i positions ih =>
    obtain ⟨hmem, hnot⟩ := ih (d.setNamed wire i)
    rw [fill_setNamed] at hmem
    rw [value_setNamed] at hnot
    constructor
    · intro hk
      by_cases hlater : k ∈ positions
      · exact hmem hlater
      · have hnow : k = i := (List.mem_cons.mp hk).resolve_right hlater
        exact (hnot hlater).trans (if_pos hnow)
    · intro hk
      rw [List.mem_cons, not_or] at hk
      exact (hnot hk.2).trans (if_neg hk.1)

/-- **Filling is setting one field after the other**, in any order in which all of them have
their turn. -/
theorem setEach_eq_fill (wire : WireFields) {positions : List (Fin s.size)}
    (hall : ∀ i, i ∈ positions) (d : Document s) : d.setEach wire positions = d.fill wire := by
  refine Document.ext (id_setEach wire positions d) (funext fun k => ?_)
  exact (value_setEach wire positions d k).1 (hall k)

end Document

/-! ## 2. One update -/

/-- An update of a document: another identifier, if there is one, and the data of a hit. -/
structure Update where
  id : Option String
  data : Json

namespace Document

variable {s : Schema}

/-- The document after an update. -/
def update (d : Document s) (u : Update) : Document s :=
  fill (WireFields.ofJson u.data) (u.id.elim d fun id => d.withId id)

theorem id_update (d : Document s) (u : Update) : (d.update u).id = u.id.getD d.id := by
  unfold update
  cases u.id <;> rfl

/-- **One update overwrites a field or leaves it.**  What it writes is what its data says under
the name of the field, whatever the field held. -/
theorem value_update (i : Fin s.size) (d : Document s) (u : Update) :
    (d.update u).value i =
      ((u.data.get? (s.field i).name).map fun j =>
        (s.field i).type.ofWire (WireFields.values j)).getD (d.value i) := by
  unfold update
  have hlookup := WireFields.lookup_ofJson u.data (s.field i).name
  cases hdata : u.data.get? (s.field i).name with
  | some j =>
    rw [hdata, Option.map_some] at hlookup
    exact fill_of_lookup hlookup
  | none =>
    rw [hdata, Option.map_none] at hlookup
    rw [fill_of_not_mem hlookup]
    cases u.id <;> rfl

/-- The name of a field is a name of the table. -/
theorem name_mem_names (i : Fin s.size) : (s.field i).name ∈ s.names :=
  List.mem_map_of_mem (List.getElem_mem i.isLt)

/-- Only the data under the names of the table count. -/
theorem update_congr {id : Option String} {data other : Json}
    (hsame : ∀ name ∈ s.names, data.get? name = other.get? name) (d : Document s) :
    d.update ⟨id, data⟩ = d.update ⟨id, other⟩ := by
  refine Document.ext ?_ (funext fun i => ?_)
  · rw [id_update, id_update]
  · rw [value_update, value_update]
    dsimp only
    rw [hsame _ (name_mem_names i)]

/-- A member under a name that is not in the table might as well be left out. -/
theorem update_foreign {before after : List (String × Json)} {member : String × Json}
    (hforeign : member.1 ∉ s.names) (id : Option String) (d : Document s) :
    d.update ⟨id, .obj (before ++ member :: after)⟩ = d.update ⟨id, .obj (before ++ after)⟩ := by
  refine update_congr (fun name hname => ?_) d
  have hne : (name == member.1) = false := by
    rw [beq_eq_false_iff_ne]
    exact fun he => hforeign (he ▸ hname)
  change (before ++ member :: after).lookup name = (before ++ after).lookup name
  rw [List.lookup_append, List.lookup_append, List.lookup_cons, hne]

/-- The members of an object may come in any order. -/
theorem update_perm {members other : List (String × Json)} (hperm : members.Perm other)
    (hnodup : (members.map (·.1)).Nodup) (id : Option String) (d : Document s) :
    d.update ⟨id, .obj members⟩ = d.update ⟨id, .obj other⟩ := by
  refine update_congr (fun name _ => Option.ext fun j => ?_) d
  have hnodup' : (other.map (·.1)).Nodup := (hperm.map _).nodup_iff.mp hnodup
  change members.lookup name = some j ↔ other.lookup name = some j
  rw [Json.lookup_eq_some_iff_mem hnodup, Json.lookup_eq_some_iff_mem hnodup', hperm.mem_iff]

/-- An update that follows itself finds nothing to do. -/
theorem update_update_self (d : Document s) (u : Update) : (d.update u).update u = d.update u := by
  refine Document.ext ?_ (funext fun i => ?_)
  · rw [id_update, id_update]
    cases u.id <;> rfl
  · rw [value_update, value_update]
    cases u.data.get? (s.field i).name <;> rfl

/-! ## 3. Runs of updates -/

/-- What a run of updates makes of a document of which nothing was set. -/
def ofUpdates (updates : List Update) : Document s := updates.foldl update (blank s)

/-- **Of anything that an update overwrites or leaves, a run of updates leaves what was written
last.** -/
theorem foldl_update {α : Type} (part : Document s → α) {written : Update → Option α}
    (hstep : ∀ d u, part (d.update u) = (written u).getD (part d)) (updates : List Update)
    (d : Document s) :
    part (updates.foldl update d) = ((updates.filterMap written).getLast?).getD (part d) := by
  induction updates generalizing d with
  | nil => rfl
  | cons u updates ih =>
    rw [List.foldl_cons, ih, hstep]
    cases hu : written u with
    | none => rw [List.filterMap_cons_none hu, Option.getD_none]
    | some a =>
      rw [List.filterMap_cons_some hu, List.getLast?_cons, Option.getD_some, Option.getD_some]

/-- An update counts for nothing more than what it makes of every document. -/
theorem ofUpdates_congr {u v : Update} (h : ∀ d : Document s, d.update u = d.update v)
    (before after : List Update) :
    (ofUpdates (before ++ u :: after) : Document s) = ofUpdates (before ++ v :: after) := by
  simp only [ofUpdates, List.foldl_append, List.foldl_cons, h]

/-- The document holds what the updates wrote last: its identifier is the last one they name, and
a field is what the last data with its name stand for, or what it was without any. -/
structure IsLastWritten (updates : List Update) (d : Document s) : Prop where
  id : d.id = ((updates.filterMap Update.id).getLast?).getD ""
  value : ∀ i, d.value i =
    ((updates.filterMap fun u => u.data.get? (s.field i).name).getLast?.map fun j =>
      (s.field i).type.ofWire (WireFields.values j)).getD (s.field i).type.default

theorem isLastWritten_ofUpdates (updates : List Update) :
    IsLastWritten updates (ofUpdates updates : Document s) where
  id := foldl_update Document.id id_update updates (blank s)
  value i := by
    have hrun := foldl_update (fun d : Document s => d.value i) (value_update i) updates (blank s)
    rw [← List.map_filterMap, List.getLast?_map] at hrun
    exact hrun

/-- An update without the name of a field might as well not have been made, as far as the field is
concerned. -/
theorem value_ofUpdates_silent {u : Update} {i : Fin s.size}
    (hsilent : u.data.get? (s.field i).name = none) (before after : List Update) :
    (ofUpdates (before ++ u :: after) : Document s).value i =
      (ofUpdates (before ++ after)).value i := by
  have hskip : (u :: after).filterMap (fun v => v.data.get? (s.field i).name) =
      after.filterMap fun v => v.data.get? (s.field i).name :=
    List.filterMap_cons_none hsilent
  rw [(isLastWritten_ofUpdates _).value, (isLastWritten_ofUpdates _).value, List.filterMap_append,
    hskip, List.filterMap_append]

/-- **Filling is last-writer-wins, and the fields do not interfere.**  An update is the loop over
the table behind a change of the identifier.  A run of updates leaves what was written last: to a
field, only the data under its name count, so that neither an update without that name, nor
members under names that are not in the table, nor the order of the members make a difference.  A
hit is a run of one update, and an update made twice in a row is made once. -/
theorem ofUpdates_lastWritten (s : Schema) :
    (∀ (d : Document s) (u : Update),
      d.update u = setEach (WireFields.ofJson u.data) (List.finRange s.size)
        (u.id.elim d fun id => d.withId id)) ∧
    (∀ updates, IsLastWritten updates (ofUpdates updates : Document s)) ∧
    (∀ (before after : List Update) (u : Update) (i : Fin s.size),
      u.data.get? (s.field i).name = none →
        (ofUpdates (before ++ u :: after) : Document s).value i =
          (ofUpdates (before ++ after)).value i) ∧
    (∀ (before after : List Update) (id : Option String) (front back : List (String × Json))
        (member : String × Json), member.1 ∉ s.names →
      (ofUpdates (before ++ ⟨id, .obj (front ++ member :: back)⟩ :: after) : Document s) =
        ofUpdates (before ++ ⟨id, .obj (front ++ back)⟩ :: after)) ∧
    (∀ (before after : List Update) (id : Option String) (members other : List (String × Json)),
      members.Perm other → (members.map (·.1)).Nodup →
        (ofUpdates (before ++ ⟨id, .obj members⟩ :: after) : Document s) =
          ofUpdates (before ++ ⟨id, .obj other⟩ :: after)) ∧
    (∀ id data, (ofHit id (WireFields.ofJson data) : Document s) = ofUpdates [⟨some id, data⟩]) ∧
    ∀ (before after : List Update) (u : Update),
      (ofUpdates (before ++ u :: u :: after) : Document s) = ofUpdates (before ++ u :: after) := by
  refine ⟨?loop, isLastWritten_ofUpdates, ?silent, ?foreign, ?order, fun id data => rfl, ?twice⟩
  case loop =>
    intro d u
    exact (setEach_eq_fill _ List.mem_finRange _).symm
  case silent =>
    intro before after u i hsilent
    exact value_ofUpdates_silent hsilent before after
  case foreign =>
    intro before after id front back member hforeign
    exact ofUpdates_congr (update_foreign hforeign id) before after
  case order =>
    intro before after id members other hperm hnodup
    exact ofUpdates_congr (update_perm hperm hnodup id) before after
  case twice =>
    intro before after u
    simp only [ofUpdates, List.foldl_append, List.foldl_cons, update_update_self]

/-- The fields of a film. -/
def films : Schema where
  fields := [⟨"title", .text⟩, ⟨"year", .int64⟩, ⟨"genres", .texts⟩, ⟨"rating", .optInt32⟩]

/-- A film with all its fields. -/
def listed : Update where
  id := some "tt0076759"
  data := .obj [("title", .arr [.str "Star Wars"]), ("year", .arr [.str "1977"]),
    ("genres", .arr [.str "drama", .str "space"]), ("rating", .int 8)]

/-- What takes the year and the rating back; films have no director here. -/
def withdrawn : Update where
  id := none
  data := .obj [("year", .arr []), ("director", .str "unknown"), ("rating", .str "n/a")]

theorem ofUpdates_lastWritten_films :
    withdrawn.data.get? "genres" = none ∧ "director" ∉ films.names ∧
      let found : Document films := ofUpdates [listed, withdrawn]
      found.id = "tt0076759" ∧ found.value ⟨0, by decide⟩ = "Star Wars" ∧
        found.value ⟨1, by decide⟩ = (0 : Int64) ∧
        found.value ⟨2, by decide⟩ = ["drama", "space"] ∧
        found.value ⟨3, by decide⟩ = (none : Option Int32) ∧
        found = ofUpdates [listed, ⟨none, .obj [("rating", .str "n/a"), ("year", .arr [])]⟩] := by
  obtain ⟨-, hlast, hsilent, hforeign, horder, -, -⟩ := ofUpdates_lastWritten films
  have hgenres : withdrawn.data.get? "genres" = none := rfl
  have hdirector : "director" ∉ films.names := by decide
  refine ⟨hgenres, hdirector, (hlast _).id, (hlast _).value ⟨0, _⟩, (hlast _).value ⟨1, _⟩,
    ?genres, (hlast _).value ⟨3, _⟩, ?members⟩
  case genres =>
    exact (hsilent [listed] [] withdrawn ⟨2, _⟩ hgenres).trans ((hlast [listed]).value ⟨2, _⟩)
  case members =>
    refine (hforeign [listed] [] none [_] [_] _ hdirector).trans ?_
    exact horder [listed] [] none _ _ (List.Perm.swap ..) (by decide)

end Document
end DocSearch
