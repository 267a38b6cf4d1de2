/-
# Damage in an answer stays where it is

An answer that is a JSON object always gives a result, and each part of the result is read from its
own keys.  So two answers that agree off some damaged keys give results that agree in every part
none of whose keys is damaged, however broken the rest is.  Within the hit list the same holds of
items, and within the data of an item of fields.

The parts are read by look-up, so most of this follows the definitions.  Two places need more.  The
timing may be read from the top of the answer, with all other keys around it; there the order of
the members could matter if a key stood twice, and it does not because an object that was settled
has each key once (`ofJson_congr`).  And the text of an error may come from the remarks, but
whether there is one does not (`isSome_errorOf_congr`), so broken remarks leave the hits alone.

Main statements: `agreesOff_ofEnvelope`, `agreesOff_ofItem`, `damage_stays`.
-/
import DocSearch.Proofs.Document.Filling
import DocSearch.Proofs.Json.RoundTrip
import DocSearch.Proofs.Reply.Errors

namespace DocSearch

/-! ## 1. Objects that agree off some keys -/

namespace Json

/-- The two values hold the same under every key but the damaged ones. -/
def AgreeOff (damaged : String → Prop) (a b : Json) : Prop :=
  ∀ key, ¬ damaged key → a.get? key = b.get? key

/-- The declared members of a record that has each key once. -/
theorem fields?_obj {d : Dialect} {names : List String} {members : List (String × Json)}
    (once : (members.map (·.1)).Nodup) :
    fields? d names (.obj members) =
      some (members.filter fun member => decide (member.1 ∈ names)) := by
  have hsub := (List.filter_sublist (l := members) (p := fun m => decide (m.1 ∈ names))).map (·.1)
  exact if_pos (once.sublist hsub)

/-- A declared field is read from the record as it is from all of its members. -/
theorem optional_filter {α : Type} {f : Json → Option α} {fallback : α} {names : List String}
    {name : String} (h : name ∈ names) (members : List (String × Json)) :
    optional f fallback name (members.filter fun member => decide (member.1 ∈ names)) =
      optional f fallback name members := by
  rw [optional, optional, lookup_known h]

theorem optional_congr {α : Type} {f : Json → Option α} {fallback : α} {name : String}
    {m₁ m₂ : List (String × Json)} (h : m₁.lookup name = m₂.lookup name) :
    optional f fallback name m₁ = optional f fallback name m₂ := by
  rw [optional, optional, h]

end Json

open Json (AgreeOff Spells)

/-! ## 2. Parts of a result -/

/-- A timing is read from its own members, and their order does not matter. -/
theorem Timing.ofJson_congr {m₁ m₂ : List (String × Json)} (once₁ : (m₁.map (·.1)).Nodup)
    (once₂ : (m₂.map (·.1)).Nodup) (hrid : m₁.lookup "rid" = m₂.lookup "rid")
    (htime : m₁.lookup "time-ms" = m₂.lookup "time-ms")
    (hcpu : m₁.lookup "cpu-time-ms" = m₂.lookup "cpu-time-ms") :
    ofJson (.obj m₁) = ofJson (.obj m₂) := by
  have hmembers : ∀ {members : List (String × Json)}, (members.map (·.1)).Nodup →
      ofJson (.obj members) =
        (Json.optional Json.string? "" "rid" members).bind fun rid =>
        (Json.optional Json.uint64? 0 "time-ms" members).bind fun time =>
        (Json.optional Json.uint64? 0 "cpu-time-ms" members).bind fun cpuTime =>
          some ⟨rid, time, cpuTime⟩ := by
    intro members once
    simp only [ofJson, Json.fields?_obj once, Option.bind_eq_bind, Option.bind_some]
    rw [Json.optional_filter (by simp), Json.optional_filter (by simp),
      Json.optional_filter (by simp)]
  rw [hmembers once₁, hmembers once₂, Json.optional_congr hrid, Json.optional_congr htime,
    Json.optional_congr hcpu]

namespace SearchResult

variable {s : Schema}

section Parts

variable {a b : Json}

theorem part?_congr {α : Type} {f : Json → Option α} {name : String}
    (h : a.get? name = b.get? name) : part? f name a = part? f name b := by
  rw [part?, part?, h]

theorem hitNumber_congr (h : a.get? "hits" = b.get? "hits") (name : String) :
    hitNumber name a = hitNumber name b := by
  rw [hitNumber, hitNumber, h]

theorem remarksOf_congr (h : a.get? "messages" = b.get? "messages") :
    remarksOf a = remarksOf b := by
  rw [remarksOf, remarksOf, part?_congr h]

theorem errorOf_congr (herror : a.get? "error" = b.get? "error")
    (hstatus : a.get? "status" = b.get? "status")
    (hmessages : a.get? "messages" = b.get? "messages") : errorOf a = errorOf b := by
  rw [errorOf, errorOf, part?_congr herror, hstatus, remarksOf_congr hmessages]

theorem ReportsNone.congr (h : ReportsNone a) (herror : a.get? "error" = b.get? "error")
    (hstatus : a.get? "status" = b.get? "status") : ReportsNone b where
  error := by
    have hlacks := h.error
    rwa [Lacks, herror] at hlacks
  status := by
    have hne := h.status
    rwa [hstatus] at hne

/-- Whether there is an error does not depend on the remarks. -/
theorem isSome_errorOf_congr (herror : a.get? "error" = b.get? "error")
    (hstatus : a.get? "status" = b.get? "status") :
    (errorOf a).isSome = (errorOf b).isSome := by
  have hnone : errorOf a = none ↔ errorOf b = none := by
    rw [errorOf_eq_none_iff, errorOf_eq_none_iff]
    exact ⟨fun h => h.congr herror hstatus, fun h => h.congr herror.symm hstatus.symm⟩
  rw [Bool.eq_iff_iff, Option.isSome_iff_ne_none, Option.isSome_iff_ne_none, ne_eq, ne_eq, hnone]

end Parts

/-- The timing of an answer depends on its own part and on the keys that may stand for it. -/
theorem timingOf_congr {m₁ m₂ : List (String × Json)} (once₁ : (m₁.map (·.1)).Nodup)
    (once₂ : (m₂.map (·.1)).Nodup) (hinfo : m₁.lookup "info" = m₂.lookup "info")
    (hrid : m₁.lookup "rid" = m₂.lookup "rid")
    (htime : m₁.lookup "time-ms" = m₂.lookup "time-ms")
    (hcpu : m₁.lookup "cpu-time-ms" = m₂.lookup "cpu-time-ms") :
    timingOf (.obj m₁) = timingOf (.obj m₂) := by
  have hpart : part? Timing.ofJson "info" (.obj m₁) = part? Timing.ofJson "info" (.obj m₂) :=
    part?_congr hinfo
  have htop := Timing.ofJson_congr once₁ once₂ hrid htime hcpu
  have hkeys : (["rid", "time-ms", "cpu-time-ms"].any fun key => ((Json.obj m₁).get? key).isSome) =
      ["rid", "time-ms", "cpu-time-ms"].any fun key => ((Json.obj m₂).get? key).isSome := by
    simp only [Json.get?, List.any_cons, List.any_nil, hrid, htime, hcpu]
  rw [timingOf, timingOf, hpart, htop, hkeys]

/-- The two results agree in every part none of whose keys is damaged. -/
structure AgreesOff (damaged : String → Prop) (r₁ r₂ : SearchResult s) : Prop where
  rank : ¬ damaged "rank" → r₁.rank = r₂.rank
  matchExpr : ¬ damaged "match-expr" → r₁.matchExpr = r₂.matchExpr
  facets : ¬ damaged "facets" → r₁.facets = r₂.facets
  timing : ¬ damaged "info" → ¬ damaged "rid" → ¬ damaged "time-ms" → ¬ damaged "cpu-time-ms" →
    r₁.timing = r₂.timing
  remarks : ¬ damaged "messages" → r₁.remarks = r₂.remarks
  isError : ¬ damaged "error" → ¬ damaged "status" → r₁.isError = r₂.isError
  error : ¬ damaged "error" → ¬ damaged "status" → ¬ damaged "messages" → r₁.error = r₂.error
  found : ¬ damaged "hits" → r₁.found = r₂.found
  start : ¬ damaged "hits" → r₁.start = r₂.start
  hits : ¬ damaged "hits" → ¬ damaged "error" → ¬ damaged "status" → r₁.hits = r₂.hits

/-- **Answers that agree off some keys give results that agree off them.** -/
theorem agreesOff_ofEnvelope {m₁ m₂ : List (String × Json)} (once₁ : (m₁.map (·.1)).Nodup)
    (once₂ : (m₂.map (·.1)).Nodup) {damaged : String → Prop}
    (h : AgreeOff damaged (.obj m₁) (.obj m₂)) :
    AgreesOff damaged (ofEnvelope (.obj m₁) : SearchResult s) (ofEnvelope (.obj m₂)) where
  rank hrank := part?_congr (h _ hrank)
  matchExpr hmatch := part?_congr (h _ hmatch)
  facets hfacets := congrArg FacetResult.readAll (h _ hfacets)
  timing hinfo hrid htime hcpu :=
    timingOf_congr once₁ once₂ (h _ hinfo) (h _ hrid) (h _ htime) (h _ hcpu)
  remarks hmessages := remarksOf_congr (h _ hmessages)
  isError herror hstatus := isSome_errorOf_congr (h _ herror) (h _ hstatus)
  error herror hstatus hmessages := errorOf_congr (h _ herror) (h _ hstatus) (h _ hmessages)
  found hhits := hitNumber_congr (h _ hhits) "found"
  start hhits := hitNumber_congr (h _ hhits) "start"
  hits hhits herror hstatus := by
    simp only [ofEnvelope, isSome_errorOf_congr (h _ herror) (h _ hstatus), h _ hhits]

end SearchResult

/-! ## 3. Hits -/

namespace Hit

variable {s : Schema}

/-- The items of the hit list of an answer; none if it is not a list. -/
def itemsOf (envelope : Json) : List Json :=
  match (envelope.get? "hits").bind (Json.get? "hit") with
  | some (.arr items) => items
  | _ => []

/-- What the data of an item holds under a key. -/
def dataAt (item : Json) (key : String) : Option Json := (item.get? "data").bind (Json.get? key)

/-- The two items differ in the data under one key at most. -/
def DifferAt (key : String) (a b : Json) : Prop :=
  a.get? "id" = b.get? "id" ∧ ∀ other, other ≠ key → dataAt a other = dataAt b other

/-- The two hits differ in the field with a name at most. -/
structure AgreesOff (name : String) (h₁ h₂ : Hit s) : Prop where
  id : h₁.id = h₂.id
  documentId : h₁.document.id = h₂.document.id
  value : ∀ i, (s.field i).name ≠ name → h₁.document.value i = h₂.document.value i

theorem readAll_eq_map (envelope : Json) :
    (readAll ((envelope.get? "hits").bind (Json.get? "hit")) : List (Hit s)) =
      (itemsOf envelope).map ofItem := by
  unfold itemsOf
  split
  · rename_i items h
    rw [h, readAll]
  · rename_i h
    unfold readAll
    split
    · rename_i items hitems
      exact absurd hitems (h items)
    · rfl

/-- What a field is filled from. -/
theorem lookup_wireOf (item : Json) (name : String) :
    (wireOf item).lookup name = (dataAt item name).map WireFields.values := by
  unfold wireOf dataAt
  cases item.get? "data" with
  | none => rfl
  | some data => exact WireFields.lookup_ofJson data name

/-- The field of a hit depends on the data under its name alone. -/
theorem value_ofItem_congr {a b : Json} {i : Fin s.size}
    (h : dataAt a (s.field i).name = dataAt b (s.field i).name) :
    (ofItem a : Hit s).document.value i = (ofItem b).document.value i := by
  simp only [ofItem, Document.ofHit, Document.fill, lookup_wireOf, h]
  rfl

/-- **Data under one key reach one field**, and none if no field has that name. -/
theorem agreesOff_ofItem {key : String} {a b : Json} (h : DifferAt key a b) :
    AgreesOff key (ofItem a : Hit s) (ofItem b) ∧
      (key ∉ s.names → (ofItem a : Hit s) = ofItem b) := by
  obtain ⟨hid, hdata⟩ := h
  have hsame : idOf a = idOf b := by rw [idOf, idOf, hid]
  have hvalue : ∀ i, (s.field i).name ≠ key →
      (ofItem a : Hit s).document.value i = (ofItem b).document.value i :=
    fun i hi => value_ofItem_congr (hdata _ hi)
  refine ⟨⟨hsame, hsame, hvalue⟩, fun hkey => ?_⟩
  have hall : ∀ i, (ofItem a : Hit s).document.value i = (ofItem b).document.value i := by
    intro i
    exact hvalue i fun hi => hkey (hi ▸ Document.name_mem_names i)
  exact Hit.ext hsame (Document.ext hsame (funext hall))

/-- The hits are those of the items: one for each, in their order, with the identifier of its
item, which is that of its document too. -/
structure FollowItems (items : List Json) (hits : List (Hit s)) : Prop where
  length : hits.length = items.length
  ids : hits.map id = items.map idOf
  documentIds : ∀ hit ∈ hits, hit.id = hit.document.id

theorem followItems_map (items : List Json) :
    FollowItems items (items.map ofItem : List (Hit s)) where
  length := List.length_map ofItem
  ids := by
    rw [List.map_map]
    rfl
  documentIds := by
    intro hit hmem
    obtain ⟨item, -, rfl⟩ := List.mem_map.mp hmem
    rfl

end Hit

/-! ## 4. Whole answers -/

namespace SearchResult

variable {s : Schema}

theorem hits_ofEnvelope {e : Json} (h : (ofEnvelope e : SearchResult s).isError = false) :
    (ofEnvelope e : SearchResult s).hits = (Hit.itemsOf e).map Hit.ofItem := by
  have hnone : (errorOf e).isSome = false := h
  simp only [ofEnvelope, hnone, Bool.false_eq_true, if_false]
  exact Hit.readAll_eq_map e

/-- **Damage in an answer stays where it is.**  Two objects give two results.  Where they agree off
some keys, so do the results.  Without an error the hits are those of the items, each hit depends
on its own item alone, and each field of its document on the data under its own name alone. -/
theorem damage_stays {body₁ body₂ : String} {e₁ e₂ : Json} (h₁ : Spells body₁ e₁)
    (h₂ : Spells body₂ e₂) :
    ∃ r₁ r₂ : SearchResult s, ofBody body₁ = .ok r₁ ∧ ofBody body₂ = .ok r₂ ∧
      (∀ damaged : String → Prop, AgreeOff damaged e₁ e₂ → AgreesOff damaged r₁ r₂) ∧
      (r₁.isError = false → Hit.FollowItems (Hit.itemsOf e₁) r₁.hits) ∧
      (r₁.isError = false → r₂.isError = false →
        ∀ (i : Nat) (item₁ item₂ : Json), (Hit.itemsOf e₁)[i]? = some item₁ →
          (Hit.itemsOf e₂)[i]? = some item₂ →
          ∃ hit₁ hit₂, r₁.hits[i]? = some hit₁ ∧ r₂.hits[i]? = some hit₂ ∧
            (item₁ = item₂ → hit₁ = hit₂) ∧
            ∀ key, Hit.DifferAt key item₁ item₂ →
              Hit.AgreesOff key hit₁ hit₂ ∧ (key ∉ s.names → hit₁ = hit₂)) := by
  obtain ⟨m₁, rfl, once₁⟩ := h₁.exists_members
  obtain ⟨m₂, rfl, once₂⟩ := h₂.exists_members
  refine ⟨_, _, ofBody_of_parse h₁.1, ofBody_of_parse h₂.1, ?_, ?_, ?_⟩
  · intro damaged hagree
    exact agreesOff_ofEnvelope once₁ once₂ hagree
  · intro herror
    rw [hits_ofEnvelope herror]
    exact Hit.followItems_map _
  · intro herror₁ herror₂ i item₁ item₂ hitem₁ hitem₂
    refine ⟨Hit.ofItem item₁, Hit.ofItem item₂, ?_, ?_, congrArg _, fun _ => Hit.agreesOff_ofItem⟩
    · rw [hits_ofEnvelope herror₁, List.getElem?_map, hitem₁, Option.map_some]
    · rw [hits_ofEnvelope herror₂, List.getElem?_map, hitem₂, Option.map_some]

/-! ### An answer with two films -/

/-- The fields of a film. -/
def films : Schema where
  fields := [⟨"title", .text⟩, ⟨"year", .optInt64⟩]

/-- An item of a hit list. -/
def film (id title : String) (year : Json) : Json :=
  .obj [("id", .str id), ("data", .obj [("title", .str title), ("year", year)])]

/-- An answer with two films. -/
def twoFilms (facets year : Json) : Json :=
  .obj [("rank", .str "score"), ("facets", facets), ("hits", .obj [("found", .int 2),
    ("hit", .arr [film "a" "M" (.str "1931"), film "b" "Fury" year])])]

theorem itemsOf_twoFilms (facets year : Json) :
    Hit.itemsOf (twoFilms facets year) =
      [film "a" "M" (.str "1931"), film "b" "Fury" year] := by
  simp [Hit.itemsOf, twoFilms, Json.get?, List.lookup_cons]

theorem spells_twoFilms {facets year : Json} (hfacets : facets.IsExact) (hyear : year.IsExact)
    (hfdepth : facets.nesting ≤ 1) (hydepth : year.nesting ≤ 1) :
    Spells (twoFilms facets year).compact (twoFilms facets year) := by
  have hfilm : ∀ {id title : String} {year : Json}, year.IsExact →
      (film id title year).IsExact := by
    intro id title year hyear
    have hdata : (Json.obj [("title", .str title), ("year", year)]).IsExact :=
      .obj (by simp) (by simpa using ⟨.str title, hyear⟩)
    exact .obj (by simp) (by simpa using ⟨.str id, hdata⟩)
  have hitems : (Json.arr [film "a" "M" (.str "1931"), film "b" "Fury" year]).IsExact :=
    .arr (by simpa using ⟨hfilm (.str "1931"), hfilm hyear⟩)
  have hhits : (Json.obj [("found", .int 2), ("hit", _)]).IsExact :=
    .obj (by simp) (by simpa using ⟨.int (by decide) (by decide), hitems⟩)
  have hexact : (twoFilms facets year).IsExact :=
    .obj (by simp) (by simpa using ⟨.str "score", hfacets, hhits⟩)
  have hdepth : (twoFilms facets year).nesting ≤ Json.nestingLimit := by
    simp only [twoFilms, film, Json.nesting, Json.membersNesting, Json.itemsNesting,
      Json.nestingLimit]
    omega
  exact ⟨Json.parse_compact hexact hdepth, by rw [twoFilms, Json.isObject]⟩

/-- With a number for the facets and an object for a year, the facets and that year may change. -/
theorem damage_stays_twoFilms :
    ∃ r₁ r₂ : SearchResult films,
      ofBody (twoFilms (.obj []) (.str "1936")).compact = .ok r₁ ∧
      ofBody (twoFilms (.int 5) (.obj [])).compact = .ok r₂ ∧
      AgreesOff (· ∈ ["facets", "hits"]) r₁ r₂ ∧ r₁.hits[0]? = r₂.hits[0]? ∧
      ∃ hit₁ hit₂, r₁.hits[1]? = some hit₁ ∧ r₂.hits[1]? = some hit₂ ∧
        Hit.AgreesOff "year" hit₁ hit₂ := by
  have hintact : Spells (twoFilms (.obj []) (.str "1936")).compact
      (twoFilms (.obj []) (.str "1936")) :=
    spells_twoFilms (.obj .nil (by simp)) (.str "1936") (by decide) (by decide)
  have hdamaged : Spells (twoFilms (.int 5) (.obj [])).compact (twoFilms (.int 5) (.obj [])) :=
    spells_twoFilms (.int (by decide) (by decide)) (.obj .nil (by simp)) (by decide) (by decide)
  obtain ⟨r₁, r₂, hr₁, hr₂, hparts, -, hitems⟩ := damage_stays (s := films) hintact hdamaged
  have hnone : ∀ {facets year : Json} {r : SearchResult films},
      Spells (twoFilms facets year).compact (twoFilms facets year) →
      ofBody (twoFilms facets year).compact = .ok r → r.isError = false := by
    intro facets year r hspells hr
    have hresult := ofBody_of_parse (s := films) hspells.1
    rw [hr] at hresult
    cases hresult
    simp [ofEnvelope, errorOf, part?, Json.get?, List.lookup_cons]
  have hkeys : AgreeOff (· ∈ ["facets", "hits"]) (twoFilms (.obj []) (.str "1936"))
      (twoFilms (.int 5) (.obj [])) := by
    intro key hkey
    obtain ⟨hfacets, hhits⟩ : key ≠ "facets" ∧ key ≠ "hits" := by simpa using hkey
    have hf : (key == "facets") = false := by simpa using hfacets
    have hh : (key == "hits") = false := by simpa using hhits
    simp only [twoFilms, Json.get?, List.lookup_cons, hf, hh]
  have hyear : Hit.DifferAt "year" (film "b" "Fury" (.str "1936")) (film "b" "Fury" (.obj [])) := by
    constructor
    · simp only [film, Json.get?, List.lookup_cons_self]
    · intro other hother
      have ho : (other == "year") = false := by simpa using hother
      simp [Hit.dataAt, film, Json.get?, List.lookup_cons, ho]
  simp only [itemsOf_twoFilms] at hitems
  obtain ⟨first₁, first₂, hfirst₁, hfirst₂, hfirst, -⟩ :=
    hitems (hnone hintact hr₁) (hnone hdamaged hr₂) 0 _ _ rfl rfl
  obtain ⟨last₁, last₂, hlast₁, hlast₂, -, hlast⟩ :=
    hitems (hnone hintact hr₁) (hnone hdamaged hr₂) 1 _ _ rfl rfl
  refine ⟨r₁, r₂, hr₁, hr₂, hparts _ hkeys, ?_, last₁, last₂, hlast₁, hlast₂, (hlast _ hyear).1⟩
  rw [hfirst₁, hfirst₂, hfirst rfl]

end SearchResult
end DocSearch
