/-
# Queries and settings read back from JSON

Conditions, filters, facets, orders and settings are read back from the texts that are written of
them, whatever strings, integers and nesting they hold, as long as the text nests no deeper than a
text may.  The conditions of a filter, and those that the settings add to every search, may also
have been written short: what is left out of a condition is what its constructor sets
(`Condition.Abridges`), so both texts stand for the same value and the same filter expression.

Main statement: `says_toJson`.
-/
import DocSearch.Client
import DocSearch.Proofs.Filter.ConditionJson

namespace DocSearch

open Json (IsExact IsFlat isFlat_str isFlat_uint64 Says says_of_isExact nesting)
open Condition (Abridges)

/-! ## 1. Rows of conditions -/

/-- The records of some conditions, any of which may be short. -/
abbrev AbridgeAll (js : List Json) (conditions : List Condition) : Prop :=
  List.Forall₂ Abridges js conditions

theorem abridgeAll_toJson (conditions : List Condition) :
    AbridgeAll (conditions.map Condition.toJson) conditions := by
  induction conditions with
  | nil => exact .nil
  | cons c conditions ih => exact .cons c.abridges_toJson ih

theorem AbridgeAll.isExact {js : List Json} {conditions : List Condition}
    (h : AbridgeAll js conditions) : IsExact (.arr js) := by
  refine .arr ?_
  induction h with
  | nil => simp
  | cons hj _ ih => simpa using ⟨hj.isExact, ih⟩

theorem AbridgeAll.read {js : List Json} {conditions : List Condition}
    (h : AbridgeAll js conditions) (d : Json.Dialect) :
    Json.listOf? (Condition.ofJson d) (.arr js) = some conditions :=
  Json.listOf?_forall₂ (h.imp fun _ _ hj => hj.ofJson_eq d)

theorem AbridgeAll.nesting_le {js : List Json} {conditions : List Condition}
    (h : AbridgeAll js conditions) :
    nesting (.arr js) ≤ nesting (.arr (conditions.map Condition.toJson)) := by
  rw [nesting, nesting]
  refine Nat.succ_le_succ ?_
  induction h with
  | nil => exact Nat.le_refl _
  | cons hj _ ih =>
    rw [List.map_cons, Json.itemsNesting, Json.itemsNesting]
    have hle := hj.nesting_le
    omega

/-! ## 2. Filters and orders -/

namespace Filter

/-- The record of a filter whose conditions have the given records. -/
def record (js : List Json) : Json := .obj [("conditions", .arr js)]

theorem isExact_record {js : List Json} {conditions : List Condition}
    (h : AbridgeAll js conditions) : IsExact (record js) := by
  refine Json.isExact_all ["conditions"] rfl (by decide) ?_
  simpa using h.isExact

theorem ofJson_record {js : List Json} {f : Filter} (h : AbridgeAll js f.conditions)
    (d : Json.Dialect) : ofJson d (record js) = some f := by
  have hgiven : (record js).fields? d ["conditions"] = some [("conditions", .arr js)] :=
    Json.fields?_all d ["conditions"] [("conditions", .arr js)] rfl (by decide)
  have hconditions : Json.required (Json.listOf? (Condition.ofJson d)) "conditions"
      [("conditions", .arr js)] = some f.conditions := h.read d
  simp only [ofJson, hgiven, hconditions, Option.bind_eq_bind, Option.bind_some]

/-- Short conditions make no deeper filter. -/
theorem nesting_record_le {js : List Json} {f : Filter} (h : AbridgeAll js f.conditions) :
    (record js).nesting ≤ f.toJson.nesting := by
  rw [toJson, record, nesting, nesting]
  refine Nat.succ_le_succ (Json.membersNesting_le fun member hmember => ?_)
  obtain rfl := List.mem_singleton.mp hmember
  exact ⟨_, List.mem_singleton_self _, h.nesting_le⟩

end Filter

namespace Order

/-- The members of the record of an order. -/
def members (o : Order) : List (String × Json) :=
  [("field", .str o.field), ("direction", .str (directionName o.direction))]

theorem isExact_toJson (o : Order) : IsExact o.toJson := by
  refine Json.isExact_all ["field", "direction"] rfl (by decide) fun member hmember => ?_
  simp only [List.mem_cons, List.not_mem_nil, or_false] at hmember
  rcases hmember with rfl | rfl
  · exact .str _
  · exact .str _

theorem ofJson_toJson (o : Order) (d : Json.Dialect) : ofJson d o.toJson = some o := by
  have hgiven : o.toJson.fields? d ["field", "direction"] = some o.members :=
    Json.fields?_all d ["field", "direction"] o.members rfl (by decide)
  have hdirection : Json.optional (Json.oneOf? d directions) .ascending "direction" o.members
      = some o.direction := by
    obtain ⟨field, direction⟩ := o
    cases direction <;> rfl
  simp only [ofJson, hgiven, hdirection, Option.bind_eq_bind, Option.bind_some]
  rfl

end Order

/-! ## 3. Facets -/

namespace FacetConstraint

theorem isExact_toJson (c : FacetConstraint) : IsExact c.toJson := by
  cases c with
  | ranges rs =>
    refine Json.isExact_all ["kind", "ranges"] rfl (by decide) fun member hmember => ?_
    simp only [List.mem_cons, List.not_mem_nil, or_false] at hmember
    rcases hmember with rfl | rfl
    · exact .str _
    · refine .arr fun item hitem => ?_
      obtain ⟨r, -, rfl⟩ := List.mem_map.mp hitem
      exact r.isExact_toJson.1
  | values vs =>
    refine Json.isExact_all ["kind", "values"] rfl (by decide) fun member hmember => ?_
    simp only [List.mem_cons, List.not_mem_nil, or_false] at hmember
    rcases hmember with rfl | rfl
    · exact .str _
    · exact (Json.isExact_map isFlat_str vs).1

theorem ofJson_toJson (c : FacetConstraint) : ofJson c.toJson = some c := by
  have hreadable := Json.isReadable_of_isExact c.isExact_toJson
  cases c with
  | ranges rs =>
    have hranges : Json.required (Json.listOf? Range.ofJson) "ranges"
        [("ranges", .arr (rs.map Range.toJson))] = some rs :=
      Json.listOf?_map fun r _ => r.ofJson_toJson
    have hrecord : ofRecord (.named [("ranges", .arr (rs.map Range.toJson))]) "int"
        = some (.ranges rs) := by
      have hgiven := Json.fields?_all .json ["ranges"] [("ranges", .arr (rs.map Range.toJson))] rfl
        (by decide)
      simp only [ofRecord, hgiven, hranges, Option.bind_eq_bind, Option.bind_some]
    unfold ofJson
    rw [if_pos hreadable]
    exact hrecord
  | values vs =>
    have hvalues : Json.required (Json.listOf? Json.string?) "values"
        [("values", .arr (vs.map Json.str))] = some vs :=
      Json.listOf?_map fun _ _ => rfl
    have hrecord : ofRecord (.named [("values", .arr (vs.map Json.str))]) "text"
        = some (.values vs) := by
      have hgiven := Json.fields?_all .json ["values"] [("values", .arr (vs.map Json.str))] rfl
        (by decide)
      simp only [ofRecord, hgiven, hvalues, Option.bind_eq_bind, Option.bind_some]
    unfold ofJson
    rw [if_pos hreadable]
    exact hrecord

end FacetConstraint

namespace Facet

/-- The members of the record of a facet. -/
def members (f : Facet) : List (String × Json) :=
  [("name", .str f.name),
   ("top_result", (f.top.map fun n => Json.int n.toNat).getD .null),
   ("constraint", (f.constraint.map FacetConstraint.toJson).getD .null)]

theorem isExact_toJson (f : Facet) : IsExact f.toJson := by
  refine Json.isExact_all ["name", "top_result", "constraint"] rfl (by decide)
    fun member hmember => ?_
  simp only [List.mem_cons, List.not_mem_nil, or_false] at hmember
  rcases hmember with rfl | rfl | rfl
  · exact .str _
  · cases f.top with
    | none => exact .null
    | some n => exact (Json.isFlat_uint32 n).1
  · cases f.constraint with
    | none => exact .null
    | some c => exact c.isExact_toJson

theorem ofJson_toJson (f : Facet) : ofJson f.toJson = some f := by
  have hgiven : f.toJson.fields? .json ["name", "top_result", "constraint"] = some f.members :=
    Json.fields?_all .json ["name", "top_result", "constraint"] f.members rfl (by decide)
  have htop : Json.optional (Json.nullable? Json.uint32?) none "top_result" f.members
      = some f.top := by
    obtain ⟨name, top, constraint⟩ := f
    cases top with
    | none => rfl
    | some n => exact congrArg (Option.map some) (Json.uint32?_toNat n)
  have hconstraint : Json.optional (Json.nullable? FacetConstraint.ofJson) none "constraint"
      f.members = some f.constraint := by
    obtain ⟨name, top, constraint⟩ := f
    cases constraint with
    | none => rfl
    | some c =>
      have hread := congrArg (Option.map some) c.ofJson_toJson
      cases c <;> exact hread
  simp only [ofJson, hgiven, htop, hconstraint, Option.bind_eq_bind, Option.bind_some]
  rfl

end Facet

/-! ## 4. Settings -/

namespace Settings

/-- The members of the record of settings before the conditions. -/
def plainMembers (st : Settings) : List (String × Json) :=
  [("search_id", .str st.domain), ("api_version", .str st.apiVersion),
   ("scheme", .str st.scheme), ("timeout_secs", .int st.timeoutSeconds.toNat),
   ("max_batch_bytes", .int st.maxBatchBytes.toNat), ("lang", .str st.lang)]

theorem isFlat_plainMembers (st : Settings) : ∀ member ∈ st.plainMembers, IsFlat member.2 := by
  intro member hmember
  simp only [plainMembers, List.mem_cons, List.not_mem_nil, or_false] at hmember
  rcases hmember with rfl | rfl | rfl | rfl | rfl | rfl
  · exact isFlat_str _
  · exact isFlat_str _
  · exact isFlat_str _
  · exact isFlat_uint64 _
  · exact isFlat_uint64 _
  · exact isFlat_str _

/-- The members of the record of settings whose conditions have the given records. -/
def membersWith (st : Settings) (js : List Json) : List (String × Json) :=
  st.plainMembers ++ [("persistent_conditions", .arr js)]

/-- The record of settings whose conditions have the given records. -/
def record (st : Settings) (js : List Json) : Json := .obj (st.membersWith js)

/-- The names of the fields of settings. -/
def fieldNames : List String :=
  ["search_id", "api_version", "scheme", "timeout_secs", "max_batch_bytes", "lang",
   "persistent_conditions"]

theorem isExact_record {js : List Json} {conditions : List Condition}
    (h : AbridgeAll js conditions) (st : Settings) : IsExact (st.record js) := by
  refine Json.isExact_all fieldNames rfl (by decide) fun member hmember => ?_
  rcases List.mem_append.mp hmember with hplain | hconditions
  · exact (st.isFlat_plainMembers member hplain).1
  · obtain rfl := List.mem_singleton.mp hconditions
    exact h.isExact

theorem ofJson_record {js : List Json} {st : Settings} (h : AbridgeAll js st.conditions)
    (d : Json.Dialect) : ofJson d (st.record js) = some st := by
  have hgiven : (st.record js).fields? d fieldNames = some (st.membersWith js) :=
    Json.fields?_all d fieldNames (st.membersWith js) rfl (by decide)
  have htimeout : Json.optional Json.uint64? standard.timeoutSeconds "timeout_secs"
      (st.membersWith js) = some st.timeoutSeconds := Json.uint64?_toNat st.timeoutSeconds
  have hbytes : Json.optional Json.uint64? standard.maxBatchBytes "max_batch_bytes"
      (st.membersWith js) = some st.maxBatchBytes := Json.uint64?_toNat st.maxBatchBytes
  have hconditions : Json.optional (Json.listOf? (Condition.ofJson d)) standard.conditions
      "persistent_conditions" (st.membersWith js) = some st.conditions := h.read d
  rw [fieldNames] at hgiven
  simp only [ofJson, hgiven, htimeout, hbytes, hconditions, Option.bind_eq_bind, Option.bind_some]
  rfl

theorem toJson_eq (st : Settings) :
    st.toJson = st.record (st.conditions.map Condition.toJson) := rfl

/-- Short conditions make no deeper settings. -/
theorem nesting_record_le {js : List Json} {st : Settings} (h : AbridgeAll js st.conditions) :
    (st.record js).nesting ≤ st.toJson.nesting := by
  rw [toJson_eq, record, record, nesting, nesting]
  refine Nat.succ_le_succ (Json.membersNesting_le fun member hmember => ?_)
  rcases List.mem_append.mp hmember with hplain | hconditions
  · exact ⟨member, List.mem_append_left _ hplain, Nat.le_refl _⟩
  · obtain rfl := List.mem_singleton.mp hconditions
    exact ⟨_, List.mem_append_right _ (List.mem_singleton_self _), h.nesting_le⟩

end Settings

/-! ## 5. Texts -/

/-- **Queries and settings are read back from their texts.**  Every condition, filter, facet, order
and record of settings is what its text gives, within the limit on nesting.  A condition, a filter
and settings are also what their text gives when conditions are written short in it; such a text
nests no deeper than the full one, and a filter compiles to the same expression from either. -/
theorem says_toJson :
    (∀ c : Condition, Says (Condition.ofJson .json) c.toJson c) ∧
    (∀ f : Filter, Says (Filter.ofJson .json) f.toJson f) ∧
    (∀ f : Facet, Says Facet.ofJson f.toJson f) ∧
    (∀ o : Order, Says (Order.ofJson .json) o.toJson o) ∧
    (∀ st : Settings, Says (Settings.ofJson .json) st.toJson st) ∧
    (∀ j c, Abridges j c →
      j.nesting ≤ c.toJson.nesting ∧ Says (Condition.ofJson .json) j c) ∧
    (∀ js (f : Filter), AbridgeAll js f.conditions →
      (Filter.record js).nesting ≤ f.toJson.nesting ∧
        Says (Filter.ofJson .json) (Filter.record js) f ∧
        Says (fun j => (Filter.ofJson .json j).map Filter.compile) (Filter.record js) f.compile) ∧
    (∀ js (st : Settings), AbridgeAll js st.conditions →
      (st.record js).nesting ≤ st.toJson.nesting ∧
        Says (Settings.ofJson .json) (st.record js) st) := by
  have hfilter : ∀ js (f : Filter), AbridgeAll js f.conditions →
      Says (Filter.ofJson .json) (Filter.record js) f := fun js f h =>
    says_of_isExact (Filter.isExact_record h) (Filter.ofJson_record h .json)
  have hsettings : ∀ js (st : Settings), AbridgeAll js st.conditions →
      Says (Settings.ofJson .json) (st.record js) st := fun js st h =>
    says_of_isExact (st.isExact_record h) (Settings.ofJson_record h .json)
  refine ⟨fun c => ?_, fun f => ?_, fun f => ?_, fun o => ?_, fun st => ?_, fun j c h => ?_,
    fun js f h => ⟨?_, hfilter js f h, ?_⟩, fun js st h => ⟨?_, hsettings js st h⟩⟩
  · exact says_of_isExact c.abridges_toJson.isExact (c.abridges_toJson.ofJson_eq .json)
  · exact hfilter _ f (abridgeAll_toJson f.conditions)
  · exact says_of_isExact f.isExact_toJson f.ofJson_toJson
  · exact says_of_isExact o.isExact_toJson (o.ofJson_toJson .json)
  · exact hsettings _ st (abridgeAll_toJson st.conditions)
  · exact ⟨h.nesting_le, says_of_isExact h.isExact (h.ofJson_eq .json)⟩
  · exact Filter.nesting_record_le h
  · refine says_of_isExact (Filter.isExact_record h) ?_
    rw [Filter.ofJson_record h, Option.map_some]
  · exact Settings.nesting_record_le h

end DocSearch
