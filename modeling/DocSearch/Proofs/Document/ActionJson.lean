/-
# Actions as JSON

What is sent to the service says everything about a document: the value of a field is an exact
JSON value whatever its type, the fields of a document have distinct names, and an action is read
back from its record, fields included.

Main statements: `FieldType.isExact_toJson`, `Document.isExact_fieldsJson`,
`Action.ofJson_toJson`.
-/
import DocSearch.Document.Action
import DocSearch.Proofs.Json.Decode

namespace DocSearch

open Json (IsExact IsFlat isFlat_str isFlat_int32 isFlat_int64 isExact_map int64?_toInt nesting
  membersNesting_le_iff)

/-! ## 1. Field values -/

namespace FieldType

theorem isFlat_orNull {α : Type} {f : α → Json} (h : ∀ a, IsFlat (f a)) (a : Option α) :
    IsFlat (orNull f a) := by
  cases a with
  | none => exact ⟨.null, rfl⟩
  | some a => exact h a

/-- **A field value is exact**, of every type, and has one level at most. -/
theorem isExact_toJson (t : FieldType) (v : t.Value) :
    IsExact (t.toJson v) ∧ (t.toJson v).nesting ≤ 1 := by
  cases t with
  | text => exact (isFlat_str v).within 1
  | optText => exact (isFlat_orNull isFlat_str v).within 1
  | texts => exact isExact_map isFlat_str v
  | int32 => exact (isFlat_int32 v).within 1
  | int64 => exact (isFlat_int64 v).within 1
  | optInt32 => exact (isFlat_orNull isFlat_int32 v).within 1
  | optInt64 => exact (isFlat_orNull isFlat_int64 v).within 1
  | int32s => exact isExact_map isFlat_int32 v
  | int64s => exact isExact_map isFlat_int64 v
  | optInt64s => exact isExact_map (isFlat_orNull isFlat_int64) v
  | date => exact (isFlat_str _).within 1
  | optDate => exact (isFlat_orNull (fun i => isFlat_str _) v).within 1
  | dates => exact isExact_map (fun i => isFlat_str _) v

end FieldType

/-! ## 2. The fields of a document -/

namespace Document

variable {s : Schema}

/-- The fields of a document are named as the schema names them. -/
theorem map_members (d : Document s) : d.members.map (·.1) = s.names := by
  have hfields : (List.finRange s.size).map s.field = s.fields := by
    apply List.ext_getElem
    · simp
    · intro i h₁ h₂
      simp [Schema.field]
  rw [members, Schema.names, ← hfields]
  simp

/-- **What is sent of a document is exact**, and has two levels at most. -/
theorem isExact_fieldsJson (d : Document s) :
    IsExact (.obj d.fieldsJson) ∧ nesting (.obj d.fieldsJson) ≤ 2 := by
  have hsub : d.fieldsJson.Sublist d.members := List.filter_sublist
  have hvalues : ∀ member ∈ d.fieldsJson, IsExact member.2 ∧ member.2.nesting ≤ 1 := by
    intro member hmember
    obtain ⟨i, -, rfl⟩ := List.mem_map.mp (hsub.subset hmember)
    exact FieldType.isExact_toJson _ _
  have honce : (d.fieldsJson.map (·.1)).Nodup := by
    have hall : (d.members.map (·.1)).Nodup := by
      rw [map_members]
      exact s.names_nodup
    exact hall.sublist (hsub.map _)
  refine ⟨.obj honce fun member hmember => (hvalues member hmember).1, ?_⟩
  rw [nesting]
  exact Nat.succ_le_succ (membersNesting_le_iff.mpr fun member hmember =>
    (hvalues member hmember).2)

end Document

/-! ## 3. Actions -/

namespace Action

/-- The fields of an action, if it has any, are exact and have two levels at most. -/
def HasExactFields (a : Action) : Prop :=
  ∀ fields ∈ a.fields, IsExact (.obj fields) ∧ nesting (.obj fields) ≤ 2

theorem hasExactFields_add {s : Schema} (lang : String) (version : Int64) (d : Document s) :
    (add lang version d).HasExactFields := by
  intro fields hfields
  cases hfields
  exact d.isExact_fieldsJson

theorem hasExactFields_delete (version : Int64) (id : String) :
    (delete version id).HasExactFields := by
  intro fields hfields
  cases hfields

/-- The members of the record of an action. -/
def members (a : Action) : List (String × Json) :=
  [("type", Json.str a.kind.name), ("id", .str a.id), ("version", .int a.version.toInt)] ++
    (a.lang.map fun lang => ("lang", Json.str lang)).toList ++
    (a.fields.map fun fields => ("fields", Json.obj fields)).toList

theorem toJson_eq (a : Action) : a.toJson = .obj a.members := rfl

/-- The members have known names, and each name stands once. -/
theorem names_members (a : Action) :
    (∀ member ∈ a.members, member.1 ∈ ["type", "id", "version", "lang", "fields"]) ∧
      (a.members.map (·.1)).Nodup := by
  obtain ⟨kind, id, version, lang, fields⟩ := a
  cases lang <;> cases fields <;> simp [members]

theorem exact_members {a : Action} (h : a.HasExactFields) :
    ∀ member ∈ a.members, IsExact member.2 ∧ member.2.nesting ≤ 2 := by
  intro member hmember
  simp only [members, List.mem_append, List.mem_cons, List.not_mem_nil, or_false,
    Option.mem_toList, Option.map_eq_some_iff] at hmember
  rcases hmember with ((rfl | rfl | rfl) | ⟨lang, -, rfl⟩) | ⟨fields, hfields, rfl⟩
  · exact (isFlat_str _).within 2
  · exact (isFlat_str _).within 2
  · exact (isFlat_int64 _).within 2
  · exact (isFlat_str _).within 2
  · exact h fields hfields

/-- **The record of an action is exact**, and has three levels at most. -/
theorem isExact_toJson {a : Action} (h : a.HasExactFields) :
    IsExact a.toJson ∧ a.toJson.nesting ≤ 3 := by
  rw [toJson_eq]
  refine ⟨.obj (names_members a).2 fun member hmember => (exact_members h member hmember).1, ?_⟩
  rw [nesting]
  exact Nat.succ_le_succ (membersNesting_le_iff.mpr fun member hmember =>
    (exact_members h member hmember).2)

theorem oneOf?_name (kind : ActionKind) :
    Json.oneOf? .json ActionKind.names (.str kind.name) = some kind := by
  cases kind <;> decide

theorem fieldsOfJson_obj {fields : List (String × Json)} (h : IsExact (.obj fields)) :
    Json.nullable? fieldsOfJson (.obj fields) = some (some fields) := by
  simp [Json.nullable?, fieldsOfJson, Json.settle_eq_self h]

/-- **An action is read back from its record.** -/
theorem ofJson_toJson {a : Action} (h : a.HasExactFields) : ofJson a.toJson = some a := by
  obtain ⟨hknown, honce⟩ := names_members a
  have hrecord : a.toJson.record? = some (.named a.members) := rfl
  have hgiven : (Json.Record.named a.members).fields? .json
      ["type", "id", "version", "lang", "fields"] 5 = some a.members :=
    Json.fields?_named (d := .json) hknown honce
  have htype : a.members.lookup "type" = some (.str a.kind.name) := rfl
  have hid : a.members.lookup "id" = some (.str a.id) := rfl
  have hversion : a.members.lookup "version" = some (.int a.version.toInt) := rfl
  have hlang : Json.optional (Json.nullable? Json.string?) none "lang" a.members =
      some a.lang := by
    obtain ⟨kind, id, version, lang, fields⟩ := a
    cases lang <;> cases fields <;> rfl
  have hfields : Json.optional (Json.nullable? fieldsOfJson) none "fields" a.members =
      some a.fields := by
    obtain ⟨kind, id, version, lang, fields⟩ := a
    cases fields with
    | none => cases lang <;> rfl
    | some fields =>
      have hread := fieldsOfJson_obj (h fields rfl).1
      cases lang <;> exact hread
  simp only [ofJson, hrecord, hgiven, Json.required, htype, hid, hversion, hlang, hfields,
    oneOf?_name, Json.string?, int64?_toInt, Option.bind_eq_bind, Option.bind_some]

end Action
end DocSearch
