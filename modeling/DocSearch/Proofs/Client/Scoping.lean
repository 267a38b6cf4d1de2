/-
# Searches within the conditions of the settings

The conditions of the settings may hold a client to a part of the documents, those of one tenant
say.  A search that spells out a keyword and a filter stays in that part: its URL has one filter
expression, and no assignment of truth values to the comparisons makes the expression true and one
of the conditions false (`IsScoped`).  A condition that renders nothing asks for nothing.

A raw query stands in the URL instead of the filter, the conditions of the settings included.  So
nothing holds it to them: the URL is the same whatever conditions the settings have
(`searchUrl_of_raw`).

Main statement: `search_isScoped`.
-/
import DocSearch.Proofs.Filter.Meaning
import DocSearch.Proofs.Request.QueryString

namespace DocSearch

open Expression

/-! ## 1. The filter expression, the fields and the rank of a query string -/

/-- The values that a query string gives under a name. -/
def Query.valuesOf (name query : String) : List String :=
  (((pairs query).getD []).filter fun pair => decide (pair.1 = name)).map (·.2)

namespace Search

/-- The pairs of a parameter have no other name than its own. -/
theorem filter_name_eq {α : Type} {own : String} {read : String → Option α} {wanted : Option α}
    {ps : List (String × String)} (h : Gives own read wanted ps) (name : String) :
    ps.filter (fun pair => decide (pair.1 = name)) = if own = name then ps else [] := by
  cases h with
  | absent => simp
  | given => by_cases hname : own = name <;> simp [hname]

/-- The names about facets start with the word for a facet. -/
theorem prefix_of_mem_facetPairs {facets : List Facet} :
    ∀ pair ∈ facetPairs facets, "facet".toList <+: pair.1.toList := by
  have hdetail : ∀ name ending : String,
      "facet".toList <+: ("facet-" ++ name ++ ending).toList :=
    fun name ending => ⟨'-' :: (name.toList ++ ending.toList), by simp⟩
  intro pair hpair
  unfold facetPairs at hpair
  split at hpair
  · cases hpair
  · rcases List.mem_cons.mp hpair with rfl | hpair
    · exact List.prefix_rfl
    · obtain ⟨f, -, hf⟩ := List.mem_flatMap.mp hpair
      simp only [facetDetailPairs, List.mem_append, Option.mem_toList,
        Option.map_eq_some_iff] at hf
      rcases hf with ⟨n, -, rfl⟩ | ⟨t, -, rfl⟩
      · exact hdetail _ _
      · exact hdetail _ _

/-- Without a raw query, the values under a name are those of the parameter with that name; the
facets have none, unless the name starts with the word for a facet. -/
theorem valuesOf_eq {s : Search} (h : s.raw = none) {name : String}
    (hname : ¬ "facet".toList <+: name.toList) :
    Query.valuesOf name s.queryString =
      ((if "q" = name then s.pairGroups.keyword else []) ++
        (if "bq" = name then s.pairGroups.filter else []) ++
        (if "return-fields" = name then s.pairGroups.fields else []) ++
        (if "size" = name then s.pairGroups.size else []) ++
        (if "start" = name then s.pairGroups.start else []) ++
        (if "rank" = name then s.pairGroups.order else [])).map (·.2) := by
  have hpairs : Query.pairs s.queryString = some s.pairGroups.all := by
    rw [queryString, parameters_eq h]
    exact Query.pairs_queryText (by simp [PairGroups.all, pairGroups])
      (isPair_of_mem_pairGroups s)
  have hfacets : s.pairGroups.facets.filter (fun pair => decide (pair.1 = name)) = [] :=
    List.filter_eq_nil_iff.mpr fun pair hpair => by
      have hne : pair.1 ≠ name := fun he => hname (he ▸ prefix_of_mem_facetPairs pair hpair)
      simpa using hne
  have hspell := spell_pairGroups s
  rw [Query.valuesOf, hpairs, Option.getD_some]
  simp only [PairGroups.all, List.filter_append, hfacets, List.append_nil,
    filter_name_eq hspell.keyword, filter_name_eq hspell.filter, filter_name_eq hspell.fields,
    filter_name_eq hspell.size, filter_name_eq hspell.start, filter_name_eq hspell.order]

/-- **Without a raw query, the filter is the one filter expression of the query string**, whatever
else the search asks for. -/
theorem valuesOf_queryString {s : Search} (h : s.raw = none) :
    Query.valuesOf "bq" s.queryString = s.filter.compile.toList := by
  rw [valuesOf_eq h (by decide)]
  cases hfilter : s.filter.compile <;> simp [pairGroups, hfilter]

/-- In the same way, the names of the fields, joined by commas, are its one list of fields. -/
theorem valuesOf_fields_queryString {s : Search} (h : s.raw = none) (hne : s.fields ≠ []) :
    Query.valuesOf "return-fields" s.queryString =
      [Text.escape (String.intercalate "," s.fields)] := by
  rw [valuesOf_eq h (by decide)]
  simp [pairGroups, hne]

/-- And the order is its one rank. -/
theorem valuesOf_rank_queryString {s : Search} (h : s.raw = none) :
    Query.valuesOf "rank" s.queryString =
      (s.order.map fun o => Text.escape o.text).toList := by
  rw [valuesOf_eq h (by decide)]
  cases horder : s.order <;> simp [pairGroups, horder]

end Search

/-! ## 2. Scope -/

/-- An expression that is true of nothing outside the conditions: it can be read, and where it is
true, each condition that renders something is true. -/
def Expression.IsWithin (conditions : List Condition) (e : String) : Prop :=
  ∀ v : Atom → Bool, ∃ b, Expression.truth v (some e) = some b ∧
    (b = true → ∀ c ∈ conditions, c.fragment ≠ "" → c.truth v = some true)

/-- A query string with one filter expression, which is true of nothing outside the
conditions. -/
def Query.IsScoped (conditions : List Condition) (query : String) : Prop :=
  ∃ e, valuesOf "bq" query = [e] ∧ Expression.IsWithin conditions e

namespace Filter

/-- A filter with a condition that renders something has an expression. -/
theorem exists_compile_eq {f : Filter} (h : ∃ c ∈ f.conditions, c.fragment ≠ "") :
    ∃ e, f.compile = some e := by
  obtain ⟨c, hc, hne⟩ := h
  have hmem : c.fragment ∈ fragmentsIn c.conjunction f.conditions := by
    refine List.mem_filter.mpr ⟨?_, by simpa using hne⟩
    exact List.mem_map.mpr ⟨c, List.mem_filter.mpr ⟨hc, decide_eq_true rfl⟩, rfl⟩
  refine Option.ne_none_iff_exists'.mp fun hnone => ?_
  obtain ⟨hand, hor⟩ := compile_eq_none_iff.mp hnone
  cases hk : c.conjunction with
  | and => exact List.ne_nil_of_mem (hk ▸ hmem) hand
  | or => exact List.ne_nil_of_mem (hk ▸ hmem) hor

/-- The expression of a filter is true of nothing outside any of its conditions. -/
theorem isWithin_compile {f : Filter} {e : String} (h : f.compile = some e)
    {conditions : List Condition} (hsub : ∀ c ∈ conditions, c ∈ f.conditions) :
    Expression.IsWithin conditions e := by
  intro v
  refine ⟨f.normalForm.all (Node.eval v), by rw [← h, truth_compile], fun htrue c hc hne => ?_⟩
  rw [Condition.truth_eq_holds v hne, (eval_normalForm_iff v f).mp htrue c (hsub c hc) hne]

end Filter

namespace Client

variable {s : Schema}

/-- **A search without a raw query stays within the conditions of the settings.** -/
theorem search_isScoped (st : Settings) (q : Search) (answer : List Request → Reply)
    (hsome : ∃ c ∈ st.conditions, c.fragment ≠ "") (hplain : q.raw = none) :
    ∃ query, st.searchUrl q = st.searchAddress ++ "?" ++ query ∧
      Query.IsScoped st.conditions query ∧
      (Exchange.run answer (search st q : Exchange (SearchResult s))).requests
        = [.get (st.searchAddress ++ "?" ++ query)] ∧
      (Exchange.run answer
          (trySearch st q : Exchange (Except Failure (SearchResult s)))).requests
        = [.get (st.searchAddress ++ "?" ++ query)] := by
  have hall : ∀ c ∈ st.conditions, c ∈ (st.restrict q).filter.conditions :=
    fun c hc => List.mem_append_right _ hc
  obtain ⟨c, hc, hne⟩ := hsome
  obtain ⟨e, he⟩ := Filter.exists_compile_eq ⟨c, hall c hc, hne⟩
  refine ⟨(st.restrict q).queryString, rfl, ⟨e, ?_, Filter.isWithin_compile he hall⟩, rfl, rfl⟩
  rw [Search.valuesOf_queryString (s := st.restrict q) hplain, he]
  rfl

/-- The client of one tenant. -/
def tenants : Settings :=
  { Settings.ofDomain "movies" "2011-02-01" with
    conditions := [.text (some "tenant") "acme" .conjunct] }

theorem search_isScoped_tenant :
    (∃ c ∈ tenants.conditions, c.fragment ≠ "") ∧ (Search.returning ["title"]).raw = none ∧
      ∃ query,
        tenants.searchUrl (.returning ["title"]) = tenants.searchAddress ++ "?" ++ query ∧
        Query.IsScoped tenants.conditions query :=
  have hsome : ∃ c ∈ tenants.conditions, c.fragment ≠ "" :=
    ⟨_, List.mem_singleton_self _, by decide⟩
  have hscoped := search_isScoped (s := { fields := [] }) tenants (.returning ["title"])
    (fun _ => .error ⟨.emptyResponse, ""⟩) hsome rfl
  ⟨hsome, rfl, hscoped.imp fun _ h => ⟨h.1, h.2.1⟩⟩

/-- With a raw query, the conditions of the settings do not reach the URL. -/
theorem searchUrl_of_raw (st : Settings) {q : Search} {raw : String} (h : q.raw = some raw)
    (conditions : List Condition) :
    ({ st with conditions } : Settings).searchUrl q = st.searchUrl q := by
  have hselection : ∀ cs, (q.restrictedTo cs).selection = (Search.rawParam raw).toList := by
    intro cs
    rw [Search.selection, show (q.restrictedTo cs).raw = some raw from h]
  have hquery : ∀ cs ds, (q.restrictedTo cs).queryString = (q.restrictedTo ds).queryString := by
    intro cs ds
    rw [Search.queryString, Search.queryString, Search.parameters, Search.parameters, hselection,
      hselection]
    rfl
  exact congrArg (st.searchAddress ++ "?" ++ ·) (hquery conditions st.conditions)

/-- A raw query of the tenant's client asks for the documents of every tenant. -/
theorem search_isScoped_raw :
    ∃ q : Search, ∃ query, q.raw = some "q=alien" ∧ (∃ c ∈ tenants.conditions, c.fragment ≠ "") ∧
      tenants.searchUrl q = tenants.searchAddress ++ "?" ++ query ∧
      ¬ Query.IsScoped tenants.conditions query := by
  refine ⟨{ Search.returning ["title"] with raw := some "q=alien" },
    "q=alien&return-fields=title&start=0", rfl, ⟨_, List.mem_singleton_self _, by decide⟩,
    congrArg (tenants.searchAddress ++ "?" ++ ·) (by decide), ?_⟩
  rintro ⟨e, he, -⟩
  have hnone : Query.valuesOf "bq" "q=alien&return-fields=title&start=0" = [] := by decide
  rw [hnone] at he
  cases he

end Client
end DocSearch
