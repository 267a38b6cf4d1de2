/-
# Facets are read together or not at all

The facets of an answer are an object that holds the body of each facet under its name.  What a
well-formed body is, and which counts it records, is said here without the reader
(`FacetResult.Records`, `FacetCount.Records`): a body and a count may each be an object or an array
of the same parts in order, and what may be left out is the list of counts and the number of a
count.

A body is read as the counts that it records, and as nothing when it records none
(`FacetResult.ofBody_eq_some_iff`).  The list of facets is there only if each of them is: one body
that records nothing empties it, however deep the damage is, and whatever the other bodies hold.
So there is no third case between all facets and none.

The names of the facets are keys of one object.  They differ because a value has each key once, and
that is why looking up a name finds the facet of that name and not an earlier one.

Main statement: `facets_allOrNone`.
-/
import DocSearch.Proofs.Json.Decode
import DocSearch.Proofs.Json.Values
import DocSearch.Proofs.Reply.Locality

namespace DocSearch

/-! ## 1. The parts of a record -/

namespace Json

variable {names : List String} {name : String} {given : List (String × Json)} {j : Json}

/-- An object, or an array with no more items than the record has parts. -/
inductive IsRecord (names : List String) : Json → Prop where
  | object (members : List (String × Json)) : IsRecord names (.obj members)
  | array {items : List Json} (short : items.length ≤ names.length) : IsRecord names (.arr items)

/-- The part of a record with a name: in an array it stands at the place of the name. -/
def part (names : List String) (name : String) : Json → Option Json
  | .obj members => members.lookup name
  | .arr items => items[names.idxOf name]?
  | _ => none

theorem lookup_zip {items : List Json} (h : name ∈ names) :
    (names.zip items).lookup name = items[names.idxOf name]? := by
  induction names generalizing items with
  | nil => cases h
  | cons first names ih =>
    cases items with
    | nil => simp
    | cons item items =>
      rw [List.zip_cons_cons, List.lookup_cons]
      by_cases hname : name = first
      · subst hname
        simp
      · have hrest := (List.mem_cons.mp h).resolve_left hname
        have hne : (name == first) = false := by simpa using hname
        rw [hne, ih hrest, List.idxOf_cons_ne _ (fun e => hname e.symm), List.getElem?_cons_succ]

/-- A value has the parts of a record exactly when it is one. -/
theorem exists_fields?_iff (h : j.IsValue) :
    (∃ given, j.fields? .json names = some given) ↔ IsRecord names j := by
  cases j with
  | obj members => simp [fields?_obj h.nodup, IsRecord.object]
  | arr items =>
    have hshort : (∃ given, fields? .json names (.arr items) = some given) ↔
        items.length ≤ names.length := by
      simp [fields?, record?, Record.fields?, Dialect.json]
    rw [hshort]
    constructor
    · exact .array
    · intro hrecord
      cases hrecord with
      | array short => exact short
  | _ =>
    constructor
    · rintro ⟨given, hgiven⟩
      cases hgiven
    · intro hrecord
      cases hrecord

/-- What is looked up in the parts of a record is the part with that name. -/
theorem lookup_fields? (h : j.IsValue) (hname : name ∈ names)
    (hgiven : j.fields? .json names = some given) : given.lookup name = j.part names name := by
  cases j with
  | obj members =>
    rw [fields?_obj h.nodup] at hgiven
    obtain rfl := Option.some.inj hgiven
    exact lookup_known hname
  | arr items =>
    change (if _ then _ else none) = _ at hgiven
    split at hgiven
    · obtain rfl := Option.some.inj hgiven
      exact lookup_zip hname
    · cases hgiven
  | _ => cases hgiven

/-- The parts of a value are values. -/
theorem IsValue.part {value : Json} (h : j.IsValue) (hvalue : j.part names name = some value) :
    value.IsValue := by
  cases j with
  | obj members => exact h.lookup hvalue
  | arr items => exact h.item value (List.mem_of_getElem? hvalue)
  | _ => cases hvalue

/-- Two relations that agree on the items of a list hold of the list alike. -/
theorem forall₂_congr {α β : Type} {R S : α → β → Prop} {as : List α} {bs : List β}
    (h : ∀ a ∈ as, ∀ b, R a b ↔ S a b) : List.Forall₂ R as bs ↔ List.Forall₂ S as bs := by
  induction as generalizing bs with
  | nil => cases bs <;> simp
  | cons a as ih =>
    cases bs with
    | nil => simp
    | cons b bs =>
      rw [List.forall₂_cons, List.forall₂_cons, h a List.mem_cons_self b,
        ih fun c hc => h c (List.mem_cons_of_mem _ hc)]

/-- **A record is read part by part.** -/
theorem exists_read_fields?_iff (h : j.IsValue) {P : List (String × Json) → Prop} {Q : Prop}
    (hread : ∀ given, (∀ name ∈ names, given.lookup name = j.part names name) → (P given ↔ Q)) :
    (∃ given, j.fields? .json names = some given ∧ P given) ↔ IsRecord names j ∧ Q := by
  constructor
  · rintro ⟨given, hgiven, hp⟩
    have hparts := hread given fun _ hname => lookup_fields? h hname hgiven
    exact ⟨(exists_fields?_iff h).mp ⟨given, hgiven⟩, hparts.mp hp⟩
  · rintro ⟨hrecord, hq⟩
    obtain ⟨given, hgiven⟩ := (exists_fields?_iff h).mpr hrecord
    have hparts := hread given fun _ hname => lookup_fields? h hname hgiven
    exact ⟨given, hgiven, hparts.mpr hq⟩

end Json

/-! ## 2. Counts -/

namespace FacetCount

/-- The text of the value of a facet: a string as it is, nothing for `null`, and anything else as
JSON. -/
def textOf : Json → String
  | .str s => s
  | .null => ""
  | j => j.compact

/-- What stands in the place of a number says which number it is: nothing says 0. -/
inductive GivesNumber : Option Json → UInt64 → Prop where
  | missing : GivesNumber none 0
  | present (n : UInt64) : GivesNumber (some (.int n.toNat)) n

/-- A JSON value records a count: it has a value, whatever that is, and it may have a number. -/
structure Records (j : Json) (c : FacetCount) : Prop where
  form : j.IsRecord ["value", "count"]
  value : ∃ value, j.part ["value", "count"] "value" = some value ∧ c.value = textOf value
  count : GivesNumber (j.part ["value", "count"] "count") c.count

theorem valueOfJson_of_isValue {j : Json} (h : j.IsValue) : valueOfJson j = some (textOf j) := by
  rw [valueOfJson, Json.settle_of_isValue h]
  cases j <;> rfl

theorem optional_iff_givesNumber {name : String} {given : List (String × Json)} {n : UInt64} :
    Json.optional Json.uint64? 0 name given = some n ↔ GivesNumber (given.lookup name) n := by
  refine Json.optional_eq_some_iff (fun h => ?_) fun j h => ?_
  · rw [h]
    exact ⟨fun | rfl => .missing, fun | .missing => rfl⟩
  · rw [h, Json.uint64?_eq_some_iff]
    constructor
    · rintro rfl
      exact .present n
    · rintro ⟨⟩
      rfl

/-- **A value is read as a count exactly when it records that count.** -/
theorem ofJson_eq_some_iff {j : Json} (h : j.IsValue) {c : FacetCount} :
    ofJson .json j = some c ↔ Records j c := by
  have hfields : ofJson .json j = some c ↔
      ∃ given, j.fields? .json ["value", "count"] = some given ∧
        Json.required valueOfJson "value" given = some c.value ∧
        Json.optional Json.uint64? 0 "count" given = some c.count := by
    simp only [ofJson, Option.bind_eq_bind, Option.bind_eq_some_iff]
    constructor
    · rintro ⟨given, hgiven, value, hvalue, count, hcount, he⟩
      obtain rfl := Option.some.inj he
      exact ⟨given, hgiven, hvalue, hcount⟩
    · rintro ⟨given, hgiven, hvalue, hcount⟩
      exact ⟨given, hgiven, c.value, hvalue, c.count, hcount, rfl⟩
  have hvalue : ∀ part, (∀ value ∈ part, value.IsValue) → ∀ text,
      (part.bind valueOfJson = some text ↔ ∃ value, part = some value ∧ text = textOf value) := by
    intro part hpart text
    rw [Option.bind_eq_some_iff]
    refine exists_congr fun value => and_congr_right fun hv => ?_
    rw [valueOfJson_of_isValue (hpart value (hv ▸ rfl)), Option.some.injEq, eq_comm]
  rw [hfields, Json.exists_read_fields?_iff h (Q := _ ∧ _)]
  · exact ⟨fun ⟨hform, hv, hc⟩ => ⟨hform, hv, hc⟩, fun hr => ⟨hr.form, hr.value, hr.count⟩⟩
  · intro given hgiven
    rw [Json.required, hgiven "value" (by simp), optional_iff_givesNumber, hgiven "count" (by simp),
      hvalue _ fun value hv => h.part hv]

end FacetCount

/-! ## 3. Bodies -/

namespace FacetResult

/-- What stands in the place of the counts says which counts they are: nothing says none. -/
inductive GivesCounts : Option Json → List FacetCount → Prop where
  | missing : GivesCounts none []
  | present {items : List Json} {counts : List FacetCount}
      (h : List.Forall₂ FacetCount.Records items counts) : GivesCounts (some (.arr items)) counts

/-- A JSON value records the counts of a facet. -/
structure Records (body : Json) (counts : List FacetCount) : Prop where
  form : body.IsRecord ["constraints"]
  counts : GivesCounts (body.part ["constraints"] "constraints") counts

theorem optional_iff_givesCounts {name : String} {given : List (String × Json)}
    (h : ∀ j ∈ given.lookup name, j.IsValue) {counts : List FacetCount} :
    Json.optional (Json.listOf? (FacetCount.ofJson .json)) [] name given = some counts ↔
      GivesCounts (given.lookup name) counts := by
  refine Json.optional_eq_some_iff (fun hj => ?_) fun j hj => ?_
  · rw [hj]
    exact ⟨fun | rfl => .missing, fun | .missing => rfl⟩
  · have hvalue : j.IsValue := h j hj
    rw [hj]
    cases j with
    | arr items =>
      have hitems : Json.listOf? (FacetCount.ofJson .json) (.arr items) = some counts ↔
          List.Forall₂ FacetCount.Records items counts := by
        rw [Json.listOf?, Json.mapM_eq_some_iff]
        exact Json.forall₂_congr fun item hitem c =>
          FacetCount.ofJson_eq_some_iff (hvalue.item item hitem)
      rw [hitems]
      exact ⟨.present, fun | .present hcounts => hcounts⟩
    | _ => exact ⟨nofun, nofun⟩

/-- **A body is read as the counts that it records**, under the name of the facet. -/
theorem ofBody_eq_some_iff {name : String} {body : Json} (h : body.IsValue) {r : FacetResult} :
    ofBody (name, body) = some r ↔ r.name = name ∧ Records body r.constraints := by
  have hfields : ofBody (name, body) = some r ↔ r.name = name ∧
      ∃ given, body.fields? .json ["constraints"] = some given ∧
        Json.optional (Json.listOf? (FacetCount.ofJson .json)) [] "constraints" given =
          some r.constraints := by
    simp only [ofBody, Option.bind_eq_bind, Option.bind_eq_some_iff]
    constructor
    · rintro ⟨given, hgiven, counts, hcounts, he⟩
      obtain rfl := Option.some.inj he
      exact ⟨rfl, given, hgiven, hcounts⟩
    · rintro ⟨rfl, given, hgiven, hcounts⟩
      exact ⟨given, hgiven, r.constraints, hcounts, rfl⟩
  rw [hfields, Json.exists_read_fields?_iff h (Q := GivesCounts _ _)]
  · exact and_congr_right fun _ => ⟨fun hr => ⟨hr.1, hr.2⟩, fun hr => ⟨hr.form, hr.counts⟩⟩
  · intro given hgiven
    have hpart := hgiven "constraints" (by simp)
    rw [optional_iff_givesCounts (by rw [hpart]; exact fun j hj => h.part hj), hpart]

end FacetResult

/-! ## 4. All facets or none -/

namespace FacetResult

variable {members : List (String × Json)} {facets : List FacetResult}

/-- The facets of an answer are there, and each of their bodies records counts. -/
def AreRecorded (given : Option Json) (members : List (String × Json)) : Prop :=
  given = some (.obj members) ∧ ∀ member ∈ members, ∃ counts, Records member.2 counts

/-- The facets are those of the members: one for each, in their order. -/
def FollowMembers (members : List (String × Json)) (facets : List FacetResult) : Prop :=
  List.Forall₂ (fun member facet => facet.name = member.1 ∧ Records member.2 facet.constraints)
    members facets

theorem mapM_ofBody_eq_some_iff (h : (Json.obj members).IsValue) :
    members.mapM ofBody = some facets ↔ FollowMembers members facets := by
  rw [Json.mapM_eq_some_iff]
  exact Json.forall₂_congr fun member hmember r => ofBody_eq_some_iff (h.member member hmember)

/-- Where each body records counts, there are facets for all of them. -/
theorem exists_followMembers (h : ∀ member ∈ members, ∃ counts, Records member.2 counts) :
    ∃ facets, FollowMembers members facets := by
  induction members with
  | nil => exact ⟨[], .nil⟩
  | cons member members ih =>
    obtain ⟨counts, hcounts⟩ := h member List.mem_cons_self
    obtain ⟨facets, hfacets⟩ := ih fun m hm => h m (List.mem_cons_of_mem _ hm)
    exact ⟨⟨member.1, counts⟩ :: facets, .cons ⟨rfl, hcounts⟩ hfacets⟩

/-- ...and there are none where one of them does not. -/
theorem FollowMembers.recorded (h : FollowMembers members facets) :
    ∀ member ∈ members, ∃ counts, Records member.2 counts := by
  induction h with
  | nil => simp
  | cons hfirst _ ih =>
    intro member hmember
    rcases List.mem_cons.mp hmember with rfl | hmember
    · exact ⟨_, hfirst.2⟩
    · exact ih member hmember

theorem FollowMembers.names (h : FollowMembers members facets) :
    facets.map name = members.map (·.1) := by
  induction h with
  | nil => rfl
  | cons hfirst _ ih => rw [List.map_cons, List.map_cons, hfirst.1, ih]

/-- The first facet with a name is the facet of the first member with that name. -/
theorem FollowMembers.find? (h : FollowMembers members facets) {name : String}
    {facet : FacetResult} (hfind : facets.find? (fun facet => facet.name == name) = some facet) :
    ∃ body, members.lookup name = some body ∧ Records body facet.constraints := by
  induction h with
  | nil => cases hfind
  | @cons member first members facets hfirst _ ih =>
    rw [List.find?_cons] at hfind
    rw [List.lookup_cons]
    by_cases hname : name = member.1
    · have hfound : (first.name == name) = true := by simp [hfirst.1, hname]
      rw [hfound] at hfind
      obtain rfl := Option.some.inj hfind
      exact ⟨member.2, by simp [hname], hfirst.2⟩
    · have hnot : (first.name == name) = false := by simpa [hfirst.1] using fun e => hname e.symm
      have hne : (name == member.1) = false := by simpa using hname
      rw [hnot] at hfind
      rw [hne]
      exact ih hfind

/-- A body records its counts and no others. -/
theorem Records.unique {body : Json} (h : body.IsValue) {counts others : List FacetCount}
    (hcounts : Records body counts) (hothers : Records body others) : counts = others := by
  have hread : ∀ {given : List FacetCount}, Records body given →
      ofBody ("", body) = some ⟨"", given⟩ :=
    fun hgiven => (ofBody_eq_some_iff h).mpr ⟨rfl, hgiven⟩
  have hsame := (hread hcounts).symm.trans (hread hothers)
  exact congrArg constraints (Option.some.inj hsame)

end FacetResult

namespace SearchResult

open FacetResult (AreRecorded FollowMembers Records readAll)

variable {s : Schema} {given : Option Json} {members : List (String × Json)}

/-- The result has a facet for each member, all under names of their own, and finds each of them by
its name. -/
structure HoldsFacets (members : List (String × Json)) (r : SearchResult s) : Prop where
  facets : FollowMembers members r.facets
  distinct : (r.facets.map FacetResult.name).Nodup
  found : ∀ name counts,
    r.facet? name = some counts ↔ ∃ body, (name, body) ∈ members ∧ Records body counts
  named : ∀ name, (r.facet? name).isSome = true ↔ name ∈ members.map (·.1)

theorem facet?_eq_none {r : SearchResult s} {name : String}
    (h : name ∉ r.facets.map FacetResult.name) : r.facet? name = none := by
  have hfind : r.facets.find? (fun facet => facet.name == name) = none := by
    rw [List.find?_eq_none]
    intro facet hfacet
    simpa using fun e => h (List.mem_map.mpr ⟨facet, hfacet, e⟩)
  rw [facet?, hfind, Option.map_none]

theorem holdsFacets_of_followMembers (h : (Json.obj members).IsValue) {r : SearchResult s}
    (hr : FollowMembers members r.facets) : HoldsFacets members r := by
  have hfind : ∀ name counts, r.facet? name = some counts →
      ∃ body, (name, body) ∈ members ∧ Records body counts := by
    intro name counts hname
    obtain ⟨facet, hfacet, rfl⟩ := Option.map_eq_some_iff.mp hname
    obtain ⟨body, hbody, hrecords⟩ := hr.find? hfacet
    exact ⟨body, (Json.lookup_eq_some_iff_mem h.nodup).mp hbody, hrecords⟩
  have hnamed : ∀ name, (r.facet? name).isSome = true ↔ name ∈ members.map (·.1) := by
    intro name
    rw [← hr.names]
    constructor
    · intro hsome
      by_contra hnot
      rw [facet?_eq_none hnot] at hsome
      cases hsome
    · intro hmem
      obtain ⟨facet, hfacet, rfl⟩ := List.mem_map.mp hmem
      rw [facet?, Option.isSome_map, List.find?_isSome]
      exact ⟨facet, hfacet, beq_self_eq_true _⟩
  refine ⟨hr, hr.names ▸ h.nodup, ?_, hnamed⟩
  intro name counts
  refine ⟨hfind name counts, ?_⟩
  rintro ⟨body, hbody, hrecords⟩
  -- some counts are found under the name, and a member with the same name has the same body
  have hmem : name ∈ members.map (·.1) := List.mem_map.mpr ⟨(name, body), hbody, rfl⟩
  obtain ⟨others, hothers⟩ := Option.isSome_iff_exists.mp ((hnamed name).mpr hmem)
  obtain ⟨other, hother, hotherRecords⟩ := hfind name others hothers
  have hsame : some body = some other := by
    rw [← (Json.lookup_eq_some_iff_mem h.nodup).mpr hbody,
      (Json.lookup_eq_some_iff_mem h.nodup).mpr hother]
  obtain rfl := Option.some.inj hsame
  rw [hothers, hrecords.unique (h.member _ hbody) hotherRecords]

/-- The facets of a result are read from a value, or from nothing. -/
theorem facets_ofBody {body : String} {e : Json} (h : Json.Spells body e) :
    ∃ r : SearchResult s, ofBody body = .ok r ∧ r.facets = readAll (e.get? "facets") ∧
      ∀ j ∈ e.get? "facets", j.IsValue := by
  obtain ⟨members, rfl, -⟩ := h.exists_members
  refine ⟨_, ofBody_of_parse h.1, rfl, fun j hj => ?_⟩
  exact (Json.isValue_of_parse h.1).lookup hj

/-- **The facets of an answer are read together or not at all.**  If they are an object and the
body of each records counts, the result has one facet for each, in their order and with these
counts, and finds each of them by its name; in every other case it has no facet. -/
theorem facets_allOrNone (h : ∀ j ∈ given, j.IsValue) {r : SearchResult s}
    (hr : r.facets = readAll given) :
    (∀ members, AreRecorded given members → HoldsFacets members r) ∧
      ((¬ ∃ members, AreRecorded given members) →
        r.facets = [] ∧ ∀ name, r.facet? name = none) := by
  constructor
  · rintro members ⟨rfl, hrecorded⟩
    have hvalue : (Json.obj members).IsValue := h _ rfl
    obtain ⟨facets, hfacets⟩ := FacetResult.exists_followMembers hrecorded
    refine holdsFacets_of_followMembers hvalue ?_
    rw [hr, readAll, (FacetResult.mapM_ofBody_eq_some_iff hvalue).mpr hfacets]
    exact hfacets
  · intro hnot
    have hnil : r.facets = [] := by
      rw [hr]
      match given with
      | none => rfl
      | some (.obj members) =>
        rw [readAll]
        cases hread : members.mapM FacetResult.ofBody with
        | none => rfl
        | some facets =>
          have hfollow := (FacetResult.mapM_ofBody_eq_some_iff (h _ rfl)).mp hread
          exact absurd ⟨members, rfl, hfollow.recorded⟩ hnot
      | some (.arr items) => rfl
      | some .null => rfl
      | some (.bool b) => rfl
      | some (.int n) => rfl
      | some (.float x) => rfl
      | some (.str t) => rfl
      | some .unreadable => rfl
    exact ⟨hnil, fun name => facet?_eq_none (by simp [hnil])⟩

/-! ### An answer with two facets -/

/-- Two facets: one with two counts, the first of them with the given number; and one without. -/
def genres (number : Json) : List (String × Json) :=
  [("genre", .obj [("constraints",
      .arr [.obj [("value", .str "Drama"), ("count", number)], .arr [.int 1979]])]),
    ("year", .arr [])]

/-- An answer with the two facets. -/
def genresAnswer (number : Json) : Json := .obj [("facets", .obj (genres number))]

theorem spells_genresAnswer {number : Json} (h : number.IsExact) (hdepth : number.nesting = 0) :
    Json.Spells (genresAnswer number).compact (genresAnswer number) := by
  have hcount : (Json.obj [("value", .str "Drama"), ("count", number)]).IsExact :=
    .obj (by simp) (by simpa using ⟨.str "Drama", h⟩)
  have hcounts : (Json.arr [.obj [("value", .str "Drama"), ("count", number)],
      .arr [.int 1979]]).IsExact :=
    .arr (by simpa using ⟨hcount, .arr (by simpa using .int (by decide) (by decide))⟩)
  have hgenre : (Json.obj [("constraints", _)]).IsExact := .obj (by simp) (by simpa using hcounts)
  have hgenres : (Json.obj (genres number)).IsExact :=
    .obj (by simp [genres]) (by simpa [genres] using ⟨hgenre, .arr (by simp)⟩)
  have hexact : (genresAnswer number).IsExact := .obj (by simp) (by simpa using hgenres)
  refine ⟨Json.parse_compact hexact ?_, rfl⟩
  simp [genresAnswer, genres, Json.nesting, Json.membersNesting, Json.itemsNesting, hdepth,
    Json.nestingLimit]

theorem areRecorded_genres :
    AreRecorded (some (.obj (genres (.int 3)))) (genres (.int 3)) := by
  refine ⟨rfl, ?_⟩
  intro member hmember
  rcases List.mem_cons.mp hmember with rfl | hmember
  · have hdrama : FacetCount.Records (.obj [("value", .str "Drama"), ("count", .int 3)])
        ⟨"Drama", 3⟩ :=
      ⟨.object _, ⟨.str "Drama", rfl, rfl⟩, .present 3⟩
    have hyear : FacetCount.Records (.arr [.int 1979]) ⟨"1979", 0⟩ :=
      ⟨.array (by decide), ⟨.int 1979, rfl, rfl⟩, .missing⟩
    exact ⟨[⟨"Drama", 3⟩, ⟨"1979", 0⟩], .object _, .present (.cons hdrama (.cons hyear .nil))⟩
  · obtain rfl := List.mem_singleton.mp hmember
    exact ⟨[], .array (by decide), .missing⟩

theorem not_areRecorded_genres :
    ¬ ∃ members, AreRecorded (some (.obj (genres (.str "3")))) members := by
  rintro ⟨members, he, hrecorded⟩
  cases he
  obtain ⟨counts, hgenre⟩ := hrecorded _ List.mem_cons_self
  have hcounts : FacetResult.GivesCounts (some (.arr [_, _])) counts := hgenre.counts
  cases hcounts with
  | present hitems =>
    cases hitems with
    | cons hdrama _ =>
      have hnumber : FacetCount.GivesNumber (some (.str "3")) _ := hdrama.count
      cases hnumber

/-- A string in the place of one number takes both facets away. -/
theorem facets_allOrNone_genres :
    (∃ r : SearchResult films, ofBody (genresAnswer (.int 3)).compact = .ok r ∧
      HoldsFacets (genres (.int 3)) r) ∧
    ∃ r : SearchResult films, ofBody (genresAnswer (.str "3")).compact = .ok r ∧
      r.facets = [] ∧ r.facet? "year" = none := by
  have hthree : (Json.int 3).IsExact := .int (by decide) (by decide)
  obtain ⟨whole, hwhole, hfacets, hvalue⟩ :=
    facets_ofBody (s := films) (spells_genresAnswer hthree rfl)
  obtain ⟨broken, hbroken, hnone, hvalue'⟩ :=
    facets_ofBody (s := films) (spells_genresAnswer (.str "3") rfl)
  have hgiven : ∀ number, (genresAnswer number).get? "facets" = some (.obj (genres number)) :=
    fun _ => by simp [genresAnswer, Json.get?]
  rw [hgiven] at hfacets hvalue hnone hvalue'
  refine ⟨⟨whole, hwhole, ?_⟩, broken, hbroken, ?_⟩
  · exact (facets_allOrNone hvalue hfacets).1 _ areRecorded_genres
  · obtain ⟨hnil, hlookup⟩ := (facets_allOrNone hvalue' hnone).2 not_areRecorded_genres
    exact ⟨hnil, hlookup "year"⟩

end SearchResult
end DocSearch
