/-
# Conditions read back from JSON

A condition is read back from its record, whatever its kind, its texts and its integers, and
however deep it goes.  The record may also be short of members that say nothing: a flag that has
the value which the constructor of the condition sets, and the field of a text condition without
one.  They may be missing anywhere in the condition, in the parts of its groups too.

`Abridges` says that an object is such a record of a condition.  What makes the short record read
as the condition is that the reader fills in, kind by kind, what the constructors set: texts and
groups join the conditions that must hold, integers and lists the alternatives
(`readFlags_keep`, and the five readings `ofRecord_text` to `ofRecord_group`).

Main statements: `abridges_toJson`, `Abridges.ofJson_eq`, `Abridges.isExact`,
`Abridges.nesting_le`.
-/
import DocSearch.Filter.Condition.Json
import DocSearch.Proofs.Json.Decode

namespace DocSearch

open Json (IsExact IsFlat isFlat_str isFlat_int64 keep membersNesting_le_iff)

/-! ## 1. Conjunctions and values -/

namespace Conjunction

theorem ofJson_toJson (d : Json.Dialect) (c : Conjunction) : ofJson d c.toJson = some c := by
  cases c <;> rfl

theorem toJson_injective {b c : Conjunction} (h : b.toJson = c.toJson) : b = c := by
  have hread := ofJson_toJson .json b
  rw [h, ofJson_toJson] at hread
  exact (Option.some.inj hread).symm

end Conjunction

namespace Range

/-- The members of the record of a range. -/
def members (r : Range) : List (String × Json) :=
  (r.lower.map fun n => ("from", Json.int n.toInt)).toList ++
    (r.upper.map fun n => ("to", Json.int n.toInt)).toList

theorem names_members (r : Range) :
    (∀ member ∈ r.members, member.1 ∈ ["from", "to"]) ∧ (r.members.map (·.1)).Nodup := by
  obtain ⟨lower, upper, bounded⟩ := r
  cases lower <;> cases upper <;> simp [members]

theorem isFlat_members (r : Range) : ∀ member ∈ r.members, IsFlat member.2 := by
  intro member hmember
  simp only [members, List.mem_append, Option.mem_toList, Option.map_eq_some_iff] at hmember
  rcases hmember with ⟨n, -, rfl⟩ | ⟨n, -, rfl⟩
  · exact isFlat_int64 n
  · exact isFlat_int64 n

theorem isExact_toJson (r : Range) : IsExact r.toJson ∧ r.toJson.nesting ≤ 1 := by
  change IsExact (.obj r.members) ∧ Json.nesting (.obj r.members) ≤ 1
  refine ⟨.obj r.names_members.2 fun member hmember => (r.isFlat_members member hmember).1, ?_⟩
  rw [Json.nesting]
  exact Nat.succ_le_succ (membersNesting_le_iff.mpr fun member hmember =>
    Nat.le_of_eq (r.isFlat_members member hmember).2)

/-- A range is read back from its record, in which an absent bound is not written. -/
theorem ofJson_toJson (r : Range) : ofJson r.toJson = some r := by
  have hread : ∀ n : Int64, Json.nullable? Json.int64? (.int n.toInt) = some (some n) := by
    intro n
    rw [Json.nullable?, Json.int64?_toInt, Option.map_some]
    rintro ⟨⟩
  have hgiven : r.toJson.fields? .json ["from", "to"] = some r.members :=
    Json.fields?_named (d := .json) r.names_members.1 r.names_members.2
  have hlower : Json.optional (Json.nullable? Json.int64?) none "from" r.members
      = some r.lower := by
    obtain ⟨lower, upper, bounded⟩ := r
    cases lower with
    | none => cases upper <;> rfl
    | some n => exact hread n
  have hupper : Json.optional (Json.nullable? Json.int64?) none "to" r.members
      = some r.upper := by
    obtain ⟨lower, upper, bounded⟩ := r
    cases upper with
    | none => cases lower <;> rfl
    | some n => cases lower <;> exact hread n
  have hbounds : ofBounds r.lower r.upper = .ok r := ofBounds_eq_ok_iff.mpr ⟨rfl, rfl⟩
  simp only [ofJson, hgiven, hlower, hupper, hbounds, Option.bind_eq_bind, Option.bind_some]
  rfl

end Range

namespace IntValue

theorem isExact_toJson (value : IntValue) : IsExact value.toJson ∧ value.toJson.nesting ≤ 1 := by
  cases value with
  | exact n => exact (isFlat_int64 n).within 1
  | range r => exact r.isExact_toJson

/-- An integer is no range, and a range is no integer. -/
theorem ofJson_toJson (value : IntValue) : ofJson value.toJson = some value := by
  rw [ofJson, if_pos (Json.isReadable_of_isExact value.isExact_toJson.1)]
  cases value with
  | exact n =>
    rw [toJson, Json.int64?_toInt]
  | range r =>
    have hnone : r.toJson.int64? = none := rfl
    rw [toJson, hnone, Range.ofJson_toJson, Option.map_some]

end IntValue

/-! ## 2. Short records -/

namespace Condition

/-- The condition that a constructor makes of the fields. -/
def constructed : Condition → Condition
  | .text (some field) value _ => hasText field value
  | .text none value _ => literal value
  | .int field (.exact n) _ => equals field n
  | .int field (.range r) _ => within field r
  | .texts field values _ => amongTexts field values
  | .ints field values _ => amongInts field values
  | .group left operator right _ => grouped left operator right

/-- The members that say nothing in the record of a condition: the flags as the constructor sets
them, and a field that is not there. -/
def spare (c : Condition) : List (String × Json) :=
  ("field", .null) :: c.constructed.flags.members

/-- What is not kept of the members of a condition says nothing. -/
def Spares (c : Condition) (kept : String → Bool) (members : List (String × Json)) : Prop :=
  ∀ member ∈ members, kept member.1 = false → member ∈ c.spare

/-- The members of a group whose parts have the given records. -/
def groupMembers (left : Json) (operator : Conjunction) (right : Json) (flags : Flags) :
    List (String × Json) :=
  [("left", left), ("operator", operator.toJson), ("right", right)] ++ flags.members

/-- **The short records of a condition.**  Each has the kind and the members of the condition, but
may be without members that say nothing; the parts of a group may have short records as well. -/
inductive Abridges : Json → Condition → Prop where
  | single {c : Condition} {kept : String → Bool} (hkind : c.kind ≠ .group)
      (h : c.Spares kept c.members) :
      Abridges (.obj (("kind", .str c.kind.name) :: keep kept c.members)) c
  | group {left right : Condition} {operator : Conjunction} {flags : Flags} {l r : Json}
      {kept : String → Bool} (hleft : Abridges l left) (hright : Abridges r right)
      (h : (Condition.group left operator right flags).Spares kept
        (groupMembers l operator r flags)) :
      Abridges (.obj (("kind", .str Kind.group.name) ::
        keep kept (groupMembers l operator r flags))) (.group left operator right flags)

theorem spares_all (c : Condition) (members : List (String × Json)) :
    c.Spares (fun _ => true) members := by
  intro member _ h
  cases h

/-- The full record is one of the short ones. -/
theorem abridges_toJson (c : Condition) : Abridges c.toJson c := by
  have hsingle : ∀ c : Condition, c.kind ≠ .group → Abridges c.toJson c := by
    intro c hkind
    have h := Abridges.single hkind (spares_all c c.members)
    rwa [Json.keep_all] at h
  induction c with
  | text => exact hsingle _ (by simp [kind])
  | int => exact hsingle _ (by simp [kind])
  | texts => exact hsingle _ (by simp [kind])
  | ints => exact hsingle _ (by simp [kind])
  | group left operator right flags ihl ihr =>
    have h := Abridges.group ihl ihr (spares_all (.group left operator right flags)
      (groupMembers left.toJson operator right.toJson flags))
    rw [Json.keep_all] at h
    exact h

/-! ## 3. Reading the members of each kind

The members are read as parts; `ofNestedJson` is what a part reads as when it is a condition. -/

section Reading

variable {c : Condition} {kept : String → Bool} {members : List (String × Json)} {key : String}
  {j : Json}

/-- A member that is not kept is spare. -/
theorem mem_spare (h : c.Spares kept members) (hj : members.lookup key = some j)
    (hkept : kept key = false) : (key, j) ∈ c.spare := by
  obtain ⟨before, behind, rfl, -⟩ := List.lookup_eq_some_iff.mp hj
  exact h (key, j) (by simp) hkept

theorem mem_spare_iff {member : String × Json} :
    member ∈ c.spare ↔ member = ("field", .null) ∨
      member = ("conjunction", c.constructed.flags.conjunction.toJson) ∨
      member = ("negate", .bool c.constructed.flags.negate) := by
  simp [spare, Flags.members]

variable (d e : Json.Dialect)

/-- What a value reads as, by itself and as a condition. -/
def asPart (j : Json) : Part := (j, ofNestedJson d j)

/-- The parts of the members that are kept. -/
def keptParts (kept : String → Bool) (members : List (String × Json)) : List (String × Part) :=
  partsOfMembers d (keep kept members)

theorem keptParts_eq (kept : String → Bool) (members : List (String × Json)) :
    keptParts d kept members
      = (keep kept members).map fun member => (member.1, asPart d member.2) :=
  partsOfMembers_eq_map d (keep kept members)

/-- A field other than those that may be spare is kept and read. -/
theorem required_part {α : Type} {f : Part → Option α} {a : α} (h : c.Spares kept members)
    (hj : members.lookup key = some j) (hspare : (key, j) ∉ c.spare)
    (hf : f (asPart d j) = some a) :
    Json.required f key (keptParts d kept members) = some a := by
  have hkept : kept key = true := by
    by_contra hkept
    exact hspare (mem_spare h hj (by simpa using hkept))
  rw [keptParts_eq]
  exact Json.required_keep (asPart d) hkept hj hf

/-- **Flags that are not kept are read as the constructor sets them.** -/
theorem readFlags_keep (h : c.Spares kept members)
    (hconjunction : members.lookup "conjunction" = some c.flags.conjunction.toJson)
    (hnegate : members.lookup "negate" = some (.bool c.flags.negate)) :
    readFlags e c.constructed.flags (keptParts d kept members) = some c.flags := by
  have hreadConjunction : Json.optional (fun part : Part => Conjunction.ofJson e part.1)
      c.constructed.flags.conjunction "conjunction" (keptParts d kept members)
        = some c.flags.conjunction := by
    rw [keptParts_eq]
    refine Json.optional_keep (asPart d) hconjunction (Conjunction.ofJson_toJson e _)
      fun hkept => ?_
    have hmem := mem_spare_iff.mp (mem_spare h hconjunction hkept)
    exact Conjunction.toJson_injective (by simpa [eq_comm] using hmem)
  have hreadNegate : Json.optional (fun part : Part => part.1.bool?) c.constructed.flags.negate
      "negate" (keptParts d kept members) = some c.flags.negate := by
    rw [keptParts_eq]
    refine Json.optional_keep (asPart d) hnegate rfl fun hkept => ?_
    have hmem := mem_spare_iff.mp (mem_spare h hnegate hkept)
    simpa [eq_comm] using hmem
  simp only [readFlags, hreadConjunction, hreadNegate, Option.bind_eq_bind, Option.bind_some]

/-- A record with known names is read field by field, whatever is kept of it. -/
theorem fields?_parts (kept : String → Bool) (members : List (String × Json))
    (names : List String) (hnames : members.map (·.1) = names)
    (hnodup : names.Nodup) :
    (Json.Record.named (keptParts d kept members)).fields? e names 0
      = some (keptParts d kept members) := by
  have hsub := Json.keep_sublist kept members
  have hkeys : (keptParts d kept members).map (·.1) = (keep kept members).map (·.1) := by
    rw [keptParts_eq, List.map_map]
    rfl
  refine Json.fields?_named (fun member hmember => ?_) ?_
  · have hkey : member.1 ∈ (keep kept members).map (·.1) := by
      rw [← hkeys]
      exact List.mem_map_of_mem hmember
    rw [← hnames]
    exact (hsub.map _).subset hkey
  · rw [hkeys]
    subst hnames
    exact hnodup.sublist (hsub.map _)

theorem ofRecord_text {field : Option String} {value : String} {flags : Flags}
    (h : (text field value flags).Spares kept (text field value flags).members) :
    ofRecord e (.named (keptParts d kept (text field value flags).members)) .text
      = some (text field value flags) := by
  have hgiven := fields?_parts d e kept (text field value flags).members
    ["field", "value", "conjunction", "negate"] rfl (by decide)
  have hwritten : (text field value flags).members.lookup "field"
      = some ((field.map Json.str).getD .null) := rfl
  have hfield : Json.optional (fun part : Part => part.1.nullable? Json.string?) none "field"
      (keptParts d kept (text field value flags).members) = some field := by
    rw [keptParts_eq]
    refine Json.optional_keep (asPart d) hwritten (by cases field <;> rfl) fun hkept => ?_
    have hmem := mem_spare_iff.mp (mem_spare h hwritten hkept)
    cases field with
    | none => rfl
    | some field => simp at hmem
  have hvalue : Json.required (fun part : Part => part.1.string?) "value"
      (keptParts d kept (text field value flags).members) = some value :=
    required_part d h rfl (by simp [mem_spare_iff]) rfl
  have hflags : readFlags e .conjunct
      (keptParts d kept (text field value flags).members) = some flags := by
    have hkeep := readFlags_keep d e h rfl rfl
    cases field <;> exact hkeep
  simp only [ofRecord, hgiven, hfield, hvalue, hflags, Option.bind_eq_bind, Option.bind_some]

theorem ofRecord_int {field : String} {value : IntValue} {flags : Flags}
    (h : (int field value flags).Spares kept (int field value flags).members) :
    ofRecord e (.named (keptParts d kept (int field value flags).members)) .int
      = some (int field value flags) := by
  have hgiven := fields?_parts d e kept (int field value flags).members
    ["field", "value", "conjunction", "negate"] rfl (by decide)
  have hfield : Json.required (fun part : Part => part.1.string?) "field"
      (keptParts d kept (int field value flags).members) = some field :=
    required_part d h rfl (by simp [mem_spare_iff]) rfl
  have hvalue : Json.required (fun part : Part => IntValue.ofJson part.1) "value"
      (keptParts d kept (int field value flags).members) = some value :=
    required_part d h rfl (by simp [mem_spare_iff]) value.ofJson_toJson
  have hflags : readFlags e .alternative
      (keptParts d kept (int field value flags).members) = some flags := by
    have hkeep := readFlags_keep d e h rfl rfl
    cases value <;> exact hkeep
  simp only [ofRecord, hgiven, hfield, hvalue, hflags, Option.bind_eq_bind, Option.bind_some]

theorem ofRecord_texts {field : String} {values : List String} {flags : Flags}
    (h : (texts field values flags).Spares kept (texts field values flags).members) :
    ofRecord e (.named (keptParts d kept (texts field values flags).members)) .texts
      = some (texts field values flags) := by
  have hgiven := fields?_parts d e kept (texts field values flags).members
    ["field", "values", "conjunction", "negate"] rfl (by decide)
  have hfield : Json.required (fun part : Part => part.1.string?) "field"
      (keptParts d kept (texts field values flags).members) = some field :=
    required_part d h rfl (by simp [mem_spare_iff]) rfl
  have hvalues : Json.required (fun part : Part => part.1.listOf? Json.string?) "values"
      (keptParts d kept (texts field values flags).members) = some values :=
    required_part d h rfl (by simp [mem_spare_iff]) (Json.listOf?_map fun _ _ => rfl)
  have hflags : readFlags e .alternative
      (keptParts d kept (texts field values flags).members) = some flags :=
    readFlags_keep d e h rfl rfl
  simp only [ofRecord, hgiven, hfield, hvalues, hflags, Option.bind_eq_bind, Option.bind_some]

theorem ofRecord_ints {field : String} {values : List Int64} {flags : Flags}
    (h : (ints field values flags).Spares kept (ints field values flags).members) :
    ofRecord e (.named (keptParts d kept (ints field values flags).members)) .ints
      = some (ints field values flags) := by
  have hgiven := fields?_parts d e kept (ints field values flags).members
    ["field", "values", "conjunction", "negate"] rfl (by decide)
  have hfield : Json.required (fun part : Part => part.1.string?) "field"
      (keptParts d kept (ints field values flags).members) = some field :=
    required_part d h rfl (by simp [mem_spare_iff]) rfl
  have hvalues : Json.required (fun part : Part => part.1.listOf? Json.int64?) "values"
      (keptParts d kept (ints field values flags).members) = some values :=
    required_part d h rfl (by simp [mem_spare_iff])
      (Json.listOf?_map fun n _ => Json.int64?_toInt n)
  have hflags : readFlags e .alternative
      (keptParts d kept (ints field values flags).members) = some flags :=
    readFlags_keep d e h rfl rfl
  simp only [ofRecord, hgiven, hfield, hvalues, hflags, Option.bind_eq_bind, Option.bind_some]

theorem ofRecord_group {left right : Condition} {operator : Conjunction} {flags : Flags}
    {l r : Json} (hleft : ofNestedJson d l = some left) (hright : ofNestedJson d r = some right)
    (h : (group left operator right flags).Spares kept (groupMembers l operator r flags)) :
    ofRecord e (.named (keptParts d kept (groupMembers l operator r flags))) .group
      = some (group left operator right flags) := by
  have hgiven := fields?_parts d e kept (groupMembers l operator r flags)
    ["left", "operator", "right", "conjunction", "negate"] rfl (by decide)
  have hl : Json.required (fun part : Part => part.2) "left"
      (keptParts d kept (groupMembers l operator r flags)) = some left :=
    required_part d h rfl (by simp [mem_spare_iff]) hleft
  have hoperator : Json.required (fun part : Part => Conjunction.ofJson e part.1) "operator"
      (keptParts d kept (groupMembers l operator r flags)) = some operator :=
    required_part d h rfl (by simp [mem_spare_iff]) (Conjunction.ofJson_toJson e operator)
  have hr : Json.required (fun part : Part => part.2) "right"
      (keptParts d kept (groupMembers l operator r flags)) = some right :=
    required_part d h rfl (by simp [mem_spare_iff]) hright
  have hflags : readFlags e .conjunct
      (keptParts d kept (groupMembers l operator r flags)) = some flags :=
    readFlags_keep d e h rfl rfl
  simp only [ofRecord, hgiven, hl, hoperator, hr, hflags, Option.bind_eq_bind, Option.bind_some]

theorem ofRecord_single (hkind : c.kind ≠ .group) (h : c.Spares kept c.members) :
    ofRecord e (.named (keptParts d kept c.members)) c.kind = some c := by
  cases c with
  | text => exact ofRecord_text d e h
  | int => exact ofRecord_int d e h
  | texts => exact ofRecord_texts d e h
  | ints => exact ofRecord_ints d e h
  | group => exact absurd rfl hkind

/-- The kind stands first; the rest is read as its record. -/
theorem ofTagged_kind {kind? : Json → Option Kind} {kind : Kind}
    (hkind : kind? (.str kind.name) = some kind) (hnew : "kind" ∉ members.map (·.1)) :
    ofTagged d kind? (.named (partsOfMembers d (("kind", .str kind.name) :: keep kept members)))
      = ofRecord d.held (.named (keptParts d kept members)) kind := by
  have hkeys : ∀ part ∈ keptParts d kept members, part.1 ≠ "kind" := by
    intro part hpart hname
    rw [keptParts_eq, List.mem_map] at hpart
    obtain ⟨member, hmember, rfl⟩ := hpart
    exact hnew (List.mem_map.mpr ⟨member, (Json.keep_sublist kept members).subset hmember, hname⟩)
  have htag : (keptParts d kept members).filter (fun part => decide (part.1 = "kind")) = [] :=
    List.filter_eq_nil_iff.mpr fun part hpart => by simpa using hkeys part hpart
  have hrest : (keptParts d kept members).filter (fun part => decide (part.1 ≠ "kind"))
      = keptParts d kept members :=
    List.filter_eq_self.mpr fun part hpart => by simpa using hkeys part hpart
  have hparts : partsOfMembers d (("kind", .str kind.name) :: keep kept members)
      = ("kind", asPart d (.str kind.name)) :: keptParts d kept members := rfl
  rw [hparts, ofTagged, List.filter_cons_of_pos (by simp), List.filter_cons_of_neg (by simp),
    htag, hrest]
  exact congrArg (Option.bind · _) hkind

end Reading

/-! ## 4. Short records read back -/

theorem kind_notMem_members (c : Condition) : "kind" ∉ c.members.map (·.1) := by
  cases c <;> simp [members, Flags.members]

theorem kind_notMem_groupMembers (l : Json) (operator : Conjunction) (r : Json) (flags : Flags) :
    "kind" ∉ (groupMembers l operator r flags).map (·.1) := by
  simp [groupMembers, Flags.members]

theorem Kind.ofNestedJson_name (d : Json.Dialect) (kind : Kind) :
    Kind.ofNestedJson d (.str kind.name) = some kind := by
  cases kind <;> rfl

/-- **A short record reads as the condition**, wherever the kind is read from.  The induction
follows the record; the parts of a group have been read as conditions before the group is. -/
theorem Abridges.ofTagged_eq {j : Json} {c : Condition} (h : Abridges j c) (d : Json.Dialect) :
    ∃ members, j = .obj members ∧ ∀ kind? : Json → Option Kind,
      (∀ kind : Kind, kind? (.str kind.name) = some kind) →
        ofTagged d kind? (.named (partsOfMembers d members)) = some c := by
  induction h with
  | @single c kept hkind h =>
    refine ⟨_, rfl, fun kind? hnames => ?_⟩
    rw [ofTagged_kind d (hnames c.kind) c.kind_notMem_members]
    exact ofRecord_single d d.held hkind h
  | @group left right operator flags l r kept hleft hright h ihl ihr =>
    obtain ⟨_, rfl, hl⟩ := ihl
    obtain ⟨_, rfl, hr⟩ := ihr
    refine ⟨_, rfl, fun kind? hnames => ?_⟩
    rw [ofTagged_kind d (hnames .group) (kind_notMem_groupMembers _ operator _ flags)]
    refine ofRecord_group d d.held ?_ ?_ h
    · rw [ofNestedJson]
      exact hl _ (Kind.ofNestedJson_name d)
    · rw [ofNestedJson]
      exact hr _ (Kind.ofNestedJson_name d)

/-! ## 5. Short records are exact -/

theorem isExact_record {members : List (String × Json)} (kept : String → Bool) (kind : Kind)
    (hnew : "kind" ∉ members.map (·.1)) (honce : (members.map (·.1)).Nodup)
    (h : ∀ member ∈ members, IsExact member.2) :
    IsExact (.obj (("kind", .str kind.name) :: keep kept members)) := by
  have hsub := Json.keep_sublist kept members
  refine .obj ?_ fun member hmember => ?_
  · rw [List.map_cons, List.nodup_cons]
    exact ⟨fun hmem => hnew ((hsub.map _).subset hmem), honce.sublist (hsub.map _)⟩
  · rcases List.mem_cons.mp hmember with rfl | hmember
    · exact .str _
    · exact h member (hsub.subset hmember)

theorem isExact_flags (flags : Flags) : ∀ member ∈ flags.members, IsExact member.2 := by
  intro member hmember
  simp only [Flags.members, List.mem_cons, List.not_mem_nil, or_false] at hmember
  rcases hmember with rfl | rfl
  · exact .str _
  · exact .bool _

theorem isExact_members {c : Condition} (hkind : c.kind ≠ .group) :
    ∀ member ∈ c.members, IsExact member.2 := by
  have hfields : ∀ (fields : List (String × Json)) (flags : Flags),
      (∀ member ∈ fields, IsExact member.2) →
        ∀ member ∈ fields ++ flags.members, IsExact member.2 := by
    intro fields flags h member hmember
    rcases List.mem_append.mp hmember with hmember | hmember
    · exact h member hmember
    · exact isExact_flags flags member hmember
  cases c with
  | text field value flags =>
    refine hfields _ flags fun member hmember => ?_
    simp only [List.mem_cons, List.not_mem_nil, or_false] at hmember
    rcases hmember with rfl | rfl
    · cases field with
      | none => exact .null
      | some field => exact .str field
    · exact .str value
  | int field value flags =>
    refine hfields _ flags fun member hmember => ?_
    simp only [List.mem_cons, List.not_mem_nil, or_false] at hmember
    rcases hmember with rfl | rfl
    · exact .str field
    · exact value.isExact_toJson.1
  | texts field values flags =>
    refine hfields _ flags fun member hmember => ?_
    simp only [List.mem_cons, List.not_mem_nil, or_false] at hmember
    rcases hmember with rfl | rfl
    · exact .str field
    · exact (Json.isExact_map isFlat_str values).1
  | ints field values flags =>
    refine hfields _ flags fun member hmember => ?_
    simp only [List.mem_cons, List.not_mem_nil, or_false] at hmember
    rcases hmember with rfl | rfl
    · exact .str field
    · exact (Json.isExact_map isFlat_int64 values).1
  | group => exact absurd rfl hkind

theorem once_members (c : Condition) : (c.members.map (·.1)).Nodup := by
  cases c <;> simp [members, Flags.members]

/-- **A short record is exact**: its text says everything about it. -/
theorem Abridges.isExact {j : Json} {c : Condition} (h : Abridges j c) : IsExact j := by
  induction h with
  | @single c kept hkind _ =>
    exact isExact_record kept c.kind c.kind_notMem_members c.once_members
      (isExact_members hkind)
  | @group left right operator flags l r kept _ _ _ ihl ihr =>
    refine isExact_record kept .group (kind_notMem_groupMembers l operator r flags)
      (by simp [groupMembers, Flags.members]) fun member hmember => ?_
    simp only [groupMembers, List.mem_append, List.mem_cons, List.not_mem_nil, or_false] at hmember
    rcases hmember with (rfl | rfl | rfl) | hmember
    · exact ihl
    · exact .str _
    · exact ihr
    · exact isExact_flags flags member hmember

theorem nesting_record_le {members written : List (String × Json)} (kept : String → Bool)
    (kind : Kind)
    (h : ∀ member ∈ members, ∃ full ∈ written, member.2.nesting ≤ full.2.nesting) :
    Json.nesting (.obj (("kind", .str kind.name) :: keep kept members))
      ≤ Json.nesting (.obj (("kind", .str kind.name) :: written)) := by
  rw [Json.nesting, Json.nesting]
  refine Nat.succ_le_succ (Json.membersNesting_le fun member hmember => ?_)
  rcases List.mem_cons.mp hmember with rfl | hmember
  · exact ⟨_, List.mem_cons_self, Nat.le_refl _⟩
  · obtain ⟨full, hfull, hle⟩ := h member ((Json.keep_sublist kept members).subset hmember)
    exact ⟨full, List.mem_cons_of_mem _ hfull, hle⟩

/-- A short record does not nest deeper than the full one. -/
theorem Abridges.nesting_le {j : Json} {c : Condition} (h : Abridges j c) :
    j.nesting ≤ c.toJson.nesting := by
  induction h with
  | @single c kept _ _ =>
    exact nesting_record_le kept c.kind fun member hmember => ⟨member, hmember, Nat.le_refl _⟩
  | @group left right operator flags l r kept _ _ _ ihl ihr =>
    refine nesting_record_le kept .group fun member hmember => ?_
    simp only [groupMembers, List.mem_append, List.mem_cons, List.not_mem_nil, or_false] at hmember
    rcases hmember with (rfl | rfl | rfl) | hmember
    · exact ⟨("left", left.toJson), by simp [members, toJson], ihl⟩
    · exact ⟨("operator", operator.toJson), by simp [members], Nat.le_refl _⟩
    · exact ⟨("right", right.toJson), by simp [members, toJson], ihr⟩
    · exact ⟨member, by simp [members, hmember], Nat.le_refl _⟩

/-- **Every short record of a condition reads as the condition.** -/
theorem Abridges.ofJson_eq {j : Json} {c : Condition} (h : Abridges j c) (d : Json.Dialect) :
    ofJson d j = some c := by
  have hreadable := Json.isReadable_of_isExact h.isExact
  obtain ⟨members, rfl, hread⟩ := h.ofTagged_eq d
  rw [ofJson, if_pos hreadable]
  exact hread _ Kind.ofJson_name

end Condition
end DocSearch
