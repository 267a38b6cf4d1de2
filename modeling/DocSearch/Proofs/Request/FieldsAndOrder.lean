/-
# Fields and order told from a query string

What a query string says about the fields to return is their names with commas between them, and
what it says about the order is its text.  Both can be told from it whatever else the search asks
for, and what is encoded can be decoded.  Behind that there are two signs which a name shares with
the text around it.  The comma between two names is encoded like a comma in a name, and a minus sign
in front of a field stands for itself, so a field that begins with one looks like a field in the
downward order.

So two searches with one query string have the same names once these are joined by commas, and the
same text of an order.  Names without commas are read back from the joined names, and the text of an
order is that of one order, unless the order goes up by a field with a minus sign in front
(`Order.Mimics`).

Main statements: `intercalate_comma_injective`, `Order.text_eq_text_iff`, `queryString_tells`.
-/
import DocSearch.Proofs.Client.Scoping
import DocSearch.Proofs.Request.FacetDetails

namespace DocSearch

/-! ## 1. Names between commas -/

/-- Some name has a comma in it. -/
def HasComma (names : List String) : Prop := ∃ name ∈ names, ',' ∈ name.toList

/-- Names without commas are read back from between the commas. -/
theorem readList_names_of_not_hasComma {names : List String} (hne : names ≠ [])
    (h : ¬ HasComma names) :
    readList (fun cs => some (String.ofList cs)) (String.intercalate "," names) = some names := by
  have hread : readList (fun cs => some (String.ofList cs))
      (String.intercalate "," (names.map fun name => name)) = some names :=
    readList_intercalate (fun name => name) hne
      (fun name hname hcomma => h ⟨name, hname, hcomma⟩)
      (fun name _ => by rw [String.ofList_toList])
  rwa [List.map_id'] at hread

/-- **Joined names tell the names**, as long as none of them has a comma. -/
theorem intercalate_comma_injective {names others : List String} (hnames : names ≠ [])
    (hothers : others ≠ [])
    (h : String.intercalate "," names = String.intercalate "," others) :
    names = others ∨ HasComma (names ++ others) := by
  by_cases hcomma : HasComma (names ++ others)
  · exact Or.inr hcomma
  · have hfirst : ¬ HasComma names := fun ⟨name, hname, hc⟩ =>
      hcomma ⟨name, List.mem_append_left _ hname, hc⟩
    have hsecond : ¬ HasComma others := fun ⟨name, hname, hc⟩ =>
      hcomma ⟨name, List.mem_append_right _ hname, hc⟩
    have hread := readList_names_of_not_hasComma hnames hfirst
    rw [h, readList_names_of_not_hasComma hothers hsecond] at hread
    exact Or.inl (Option.some.inj hread).symm

/-! ## 2. The text of an order -/

namespace Order

/-- The order goes up by a field with a minus sign in front, and the other goes down by the rest of
that field. -/
def Mimics (o other : Order) : Prop :=
  o.direction = .ascending ∧ other.direction = .descending ∧ o.field = "-" ++ other.field

/-- **The text of an order tells the order**, but for one that goes up by a minus sign. -/
theorem text_eq_text_iff {o p : Order} :
    o.text = p.text ↔ o = p ∨ o.Mimics p ∨ p.Mimics o := by
  obtain ⟨field, direction⟩ := o
  obtain ⟨field', direction'⟩ := p
  have hsame : ∀ sign : String, sign ++ field = sign ++ field' ↔ field = field' := by
    intro sign
    rw [← String.toList_inj, String.toList_append, String.toList_append,
      List.append_right_inj, String.toList_inj]
  cases direction with
  | ascending =>
    cases direction' with
    | ascending => simp [text, sign, Mimics]
    | descending => simp [text, sign, Mimics]
  | descending =>
    cases direction' with
    | ascending => simp [text, sign, Mimics, eq_comm]
    | descending => simp [text, sign, Mimics, hsame]

end Order

/-! ## 3. The query string -/

namespace Search

/-- **A query string tells the fields and the order.**  Two searches with the same query string have
the same names between commas and the same text of an order.  So they return the same fields, unless
a name has a comma in it, and have the same order, unless one of them goes up by a field with a
minus sign in front that the other goes down by. -/
theorem queryString_tells {q r : Search} {o p : Order} (hq : q.raw = none) (hr : r.raw = none)
    (hqfields : q.fields ≠ []) (hrfields : r.fields ≠ []) (ho : q.order = some o)
    (hp : r.order = some p) (h : q.queryString = r.queryString) :
    String.intercalate "," q.fields = String.intercalate "," r.fields ∧ o.text = p.text ∧
      (q.fields = r.fields ∨ HasComma (q.fields ++ r.fields)) ∧
      (o = p ∨ o.Mimics p ∨ p.Mimics o) := by
  have hfields : String.intercalate "," q.fields = String.intercalate "," r.fields := by
    have hvalues := valuesOf_fields_queryString hq hqfields
    rw [h, valuesOf_fields_queryString hr hrfields] at hvalues
    exact (Text.escape_injective (List.singleton_inj.mp hvalues)).symm
  have horder : o.text = p.text := by
    have hvalues := valuesOf_rank_queryString hq
    rw [h, valuesOf_rank_queryString hr, ho, hp] at hvalues
    exact (Text.escape_injective (List.singleton_inj.mp hvalues)).symm
  exact ⟨hfields, horder, intercalate_comma_injective hqfields hrfields hfields,
    Order.text_eq_text_iff.mp horder⟩

/-- An empty keyword is not in the query string, so these two searches have the same one. -/
theorem queryString_tells_films :
    ∃ (q r : Search) (o p : Order), q ≠ r ∧ q.raw = none ∧ r.raw = none ∧ q.fields ≠ [] ∧
      r.fields ≠ [] ∧ q.order = some o ∧ r.order = some p ∧ q.queryString = r.queryString ∧
      (q.fields = r.fields ∨ HasComma (q.fields ++ r.fields)) ∧
      (o = p ∨ o.Mimics p ∨ p.Mimics o) := by
  have hsame : ({ returning ["title", "year"] with
        order := some ⟨"year", .descending⟩ } : Search).queryString =
      ({ returning ["title", "year"] with
        keyword := some "", order := some ⟨"year", .descending⟩ } : Search).queryString := by
    decide
  obtain ⟨-, -, hfields, horder⟩ :=
    queryString_tells rfl rfl (by decide) (by decide) rfl rfl hsame
  exact ⟨_, _, _, _, by decide, rfl, rfl, by decide, by decide, rfl, rfl, hsame, hfields, horder⟩

/-- One field with a comma in its name and two fields, upwards by a minus sign and downwards. -/
theorem queryString_tells_not_all :
    ∃ (q r : Search) (o p : Order), q.raw = none ∧ r.raw = none ∧ q.fields ≠ [] ∧ r.fields ≠ [] ∧
      q.order = some o ∧ r.order = some p ∧ q.queryString = r.queryString ∧
      q.fields ≠ r.fields ∧ o ≠ p := by
  refine ⟨{ returning ["title,year"] with order := some ⟨"-year", .ascending⟩ },
    { returning ["title", "year"] with order := some ⟨"year", .descending⟩ },
    ⟨"-year", .ascending⟩, ⟨"year", .descending⟩, rfl, rfl, by decide, by decide, rfl, rfl, ?_,
    by decide, by decide⟩
  decide

end Search

end DocSearch
