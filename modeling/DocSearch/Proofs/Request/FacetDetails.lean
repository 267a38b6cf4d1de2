/-
# What the parameters of facets say

The facets of a search give one parameter with all their names, and after it parameters that say
more about one facet each: how many values are wanted, or which ones.  The latter carry the name of
the facet in their own name, between `facet-` and an ending, and a facet may be called anything,
`genre-top-n` or `a,b=c` included.  This module reads all of it back.

A parameter about one facet is a `FacetDetail`.  Two of them are never spelled alike
(`FacetDetail.spelling_injective`): the first equals sign ends the name of the parameter, because an
encoded name holds none; the endings differ in their last letter, so it is clear which one it is;
and what stands in front of it is the encoded name, from which the name can be decoded.  So a
parameter has one reading only, and it does not matter that the name may itself end like a
parameter.

The lists, of names and of what is to be counted, are split at the commas that the writer put
there, since no item has one of its own (`readList_intercalate`).

A facet may be asked for twice.  For a given name, what the parameters say is then what all facets
of that name ask for, one after the other (`filterMap_top`, `forall₂_wanted`).

Main statement: `facetParams_reads`.
-/
import Mathlib.Data.List.Forall2
import Mathlib.Logic.ExistsUnique
import DocSearch.Proofs.Filter.Grammar
import DocSearch.Request.Search

namespace DocSearch

/-! ## 1. Parameters about one facet -/

/-- What a parameter says about one facet. -/
inductive FacetDetail where
  /-- How many of the most frequent values are wanted. -/
  | top (name : String) (n : Nat)
  /-- The list of what is to be counted. -/
  | constraints (name list : String)

namespace FacetDetail

/-- The parameter. -/
def spelling : FacetDetail → String
  | .top name n => "facet-" ++ Text.escape name ++ "-top-n=" ++ Decimal.ofNat n
  | .constraints name list => "facet-" ++ Text.escape name ++ "-constraints=" ++ list

/-- The name of the parameter. -/
def label : FacetDetail → String
  | .top name _ => "facet-" ++ Text.escape name ++ "-top-n"
  | .constraints name _ => "facet-" ++ Text.escape name ++ "-constraints"

/-- The value of the parameter. -/
def value : FacetDetail → String
  | .top _ n => Decimal.ofNat n
  | .constraints _ list => list

theorem spelling_eq (d : FacetDetail) : d.spelling = d.label ++ "=" ++ d.value := by
  have htop : "-top-n=" = "-top-n" ++ "=" := rfl
  have hconstraints : "-constraints=" = "-constraints" ++ "=" := rfl
  cases d with
  | top name n => simp only [spelling, label, value, htop, String.append_assoc]
  | constraints name list => simp only [spelling, label, value, hconstraints, String.append_assoc]

/-- An encoded name has no equals sign in it. -/
theorem not_mem_equals_label (d : FacetDetail) : '=' ∉ d.label.toList := by
  have hlabel : ∀ name ending : String, '=' ∉ ending.toList →
      '=' ∉ ("facet-" ++ Text.escape name ++ ending).toList := by
    intro name ending hending h
    rw [String.toList_append, String.toList_append] at h
    rcases List.mem_append.mp h with h | h
    · rcases List.mem_append.mp h with h | h
      · exact absurd h (by decide)
      · exact absurd (Text.mem_escape h) (by decide)
    · exact hending h
  cases d with
  | top name n => exact hlabel name _ (by decide)
  | constraints name list => exact hlabel name _ (by decide)

/-- The first equals sign of a parameter ends its name. -/
theorem splitOnce_spelling (d : FacetDetail) :
    Text.splitOnce ['='] d.spelling.toList = some (d.label.toList, d.value.toList) := by
  rw [spelling_eq, String.toList_append, String.toList_append]
  exact Text.splitOnce_append [] d.not_mem_equals_label d.value.toList

/-- Between `facet-` and an ending there is the encoded name, and nothing else. -/
theorem name_of_label {name name' ending : String}
    (h : "facet-" ++ Text.escape name ++ ending = "facet-" ++ Text.escape name' ++ ending) :
    name = name' := by
  rw [← String.toList_inj] at h
  simp only [String.toList_append, List.append_assoc] at h
  have hname := List.append_cancel_right (List.append_cancel_left h)
  exact Text.escape_injective (String.toList_inj.mp hname)

/-- The two endings differ in their last letter. -/
theorem label_top_ne (name name' : String) (n : Nat) (list : String) :
    (top name n).label ≠ (constraints name' list).label := by
  have hends : ∀ (front : String) {ending : String} {last : Char},
      ending.toList.getLast? = some last → (front ++ ending).toList.getLast? = some last := by
    intro front ending last h
    rw [String.toList_append, List.getLast?_append, h, Option.some_or]
  have htop : (top name n).label.toList.getLast? = some 'n' := hends _ (by decide)
  have hconstraints : (constraints name' list).label.toList.getLast? = some 's' :=
    hends _ (by decide)
  intro h
  rw [h, hconstraints] at htop
  exact absurd htop (by decide)

/-- **Two parameters about a facet that look alike say the same.** -/
theorem spelling_injective {d e : FacetDetail} (h : d.spelling = e.spelling) : d = e := by
  have hsplit := d.splitOnce_spelling
  rw [h, splitOnce_spelling, Option.some.injEq, Prod.mk.injEq] at hsplit
  obtain ⟨hlabel, hvalue⟩ := hsplit
  have hlabel := String.toList_inj.mp hlabel
  have hvalue := String.toList_inj.mp hvalue
  cases d with
  | top name n =>
    cases e with
    | top name' n' =>
      obtain rfl := name_of_label hlabel
      obtain rfl := Decimal.ofNat_injective hvalue
      rfl
    | constraints name' list => exact absurd hlabel.symm (label_top_ne _ _ _ _)
  | constraints name list =>
    cases e with
    | top name' n => exact absurd hlabel (label_top_ne _ _ _ _)
    | constraints name' list' =>
      obtain rfl := name_of_label hlabel
      obtain rfl := hvalue
      rfl

/-- How many values are wanted of the facet with the given name, if the parameter says that. -/
def top? (name : String) : FacetDetail → Option Nat
  | .top about n => if about = name then some n else none
  | .constraints _ _ => none

/-- The list for the facet with the given name, if the parameter gives one. -/
def list? (name : String) : FacetDetail → Option String
  | .top _ _ => none
  | .constraints about list => if about = name then some list else none

end FacetDetail

/-! ## 2. Lists -/

/-- The items of a list, which are read one by one between commas. -/
def readList {α : Type} (read : List Char → Option α) (list : String) : Option (List α) :=
  (list.toList.splitOn ',').mapM read

/-- **A list of items without commas is read back.** -/
theorem readList_intercalate {α : Type} (write : α → String) {read : List Char → Option α}
    {items : List α} (hne : items ≠ []) (hcomma : ∀ a ∈ items, ',' ∉ (write a).toList)
    (hread : ∀ a ∈ items, read (write a).toList = some a) :
    readList read (String.intercalate "," (items.map write)) = some items := by
  have hsep : ",".toList = [','] := rfl
  have hparts : (String.intercalate "," (items.map write)).toList.splitOn ','
      = items.map fun a => (write a).toList := by
    rw [String.toList_intercalate, hsep, List.map_map]
    refine List.splitOn_intercalate ',' ?_ (by simpa using hne)
    intro part hpart
    obtain ⟨a, ha, rfl⟩ := List.mem_map.mp hpart
    exact hcomma a ha
  rw [readList, hparts]
  exact Text.mapM_map_eq_some hread

/-- A text without the quotes at its two ends. -/
def unquoted? : List Char → Option (List Char)
  | '\'' :: cs => if cs.getLast? = some '\'' then some cs.dropLast else none
  | _ => none

/-- The value that stands encoded between quotes. -/
def readValue (cs : List Char) : Option String := (unquoted? cs).bind Text.unescape

/-- The range that a text is. -/
def readRange (cs : List Char) : Option Range := (Range.ofText (String.ofList cs)).toOption

namespace FacetConstraint

/-- A text lists the constraints: values between quotes, or ranges, with commas between them. -/
def IsListedBy : FacetConstraint → String → Prop
  | .ranges rs, list => readList readRange list = some rs
  | .values vs, list => readList readValue list = some vs

/-- Whether a constraint names nothing. -/
def isVoid : FacetConstraint → Bool
  | .ranges rs => rs.isEmpty
  | .values vs => vs.isEmpty

theorem not_mem_comma_escape (s : String) : ',' ∉ (Text.escape s).toList :=
  fun h => absurd (Text.mem_escape h) (by decide)

theorem not_mem_comma_quoted (v : String) : ',' ∉ (Condition.quoted v).toList := by
  rw [Expression.toList_quoted, List.mem_cons, List.mem_append, List.mem_singleton]
  rintro (h | h | h)
  · exact absurd h (by decide)
  · exact not_mem_comma_escape v h
  · exact absurd h (by decide)

theorem not_mem_comma_range (r : Range) : ',' ∉ r.text.toList := by
  have hbound : ∀ bound, ',' ∉ (Range.boundText bound).toList :=
    fun bound h => absurd (Range.mem_boundText h) (by decide)
  simp [Range.text, hbound]

theorem readValue_quoted (v : String) : readValue (Condition.quoted v).toList = some v := by
  have hunquoted : unquoted? ('\'' :: ((Text.escape v).toList ++ ['\'']))
      = some (Text.escape v).toList := by
    rw [unquoted?, if_pos (by simp), List.dropLast_concat]
  rw [Expression.toList_quoted, readValue, hunquoted, Option.bind_some, Text.unescape_escape]

theorem readRange_text (r : Range) : readRange r.text.toList = some r := by
  rw [readRange, String.ofList_toList, Range.ofText_text]
  rfl

/-- **What is to be counted is read back**, unless it is nothing, and then there is no text. -/
theorem text_cases (c : FacetConstraint) :
    (c.isVoid = true ∧ c.text = none) ∨
      ∃ list, c.isVoid = false ∧ c.text = some list ∧ c.IsListedBy list := by
  match c with
  | .ranges [] => exact Or.inl ⟨rfl, rfl⟩
  | .values [] => exact Or.inl ⟨rfl, rfl⟩
  | .ranges (r :: rs) =>
    have hread := readList_intercalate Range.text (List.cons_ne_nil r rs)
      (fun a _ => not_mem_comma_range a) fun a _ => readRange_text a
    exact Or.inr ⟨_, rfl, rfl, hread⟩
  | .values (v :: vs) =>
    have hread := readList_intercalate Condition.quoted (List.cons_ne_nil v vs)
      (fun a _ => not_mem_comma_quoted a) fun a _ => readValue_quoted a
    exact Or.inr ⟨_, rfl, rfl, hread⟩

end FacetConstraint

/-! ## 3. The facets of one name -/

namespace Facet

/-- What the parameters say about a facet besides its name. -/
def details (f : Facet) : List FacetDetail :=
  (f.top.map fun n => .top f.name n.toNat).toList ++
    ((f.constraint.bind FacetConstraint.text).map fun list => .constraints f.name list).toList

/-- What is to be counted of a facet, unless that is nothing. -/
def wanted (f : Facet) : Option FacetConstraint := f.constraint.filter fun c => !c.isVoid

theorem facetDetails_eq (f : Facet) :
    Search.facetDetails f = f.details.map FacetDetail.spelling := by
  obtain ⟨name, top, constraint⟩ := f
  rw [Search.facetDetails, details, List.map_append]
  congr 1
  · cases top <;> rfl
  · cases constraint.bind FacetConstraint.text <;> rfl

/-- The parameters about a facet say how many values it asks for, under its own name only. -/
theorem filterMap_top_details (f : Facet) (name : String) :
    f.details.filterMap (FacetDetail.top? name)
      = if f.name = name then (f.top.map UInt32.toNat).toList else [] := by
  obtain ⟨about, top, constraint⟩ := f
  rw [details, List.filterMap_append]
  have hlist : ((constraint.bind FacetConstraint.text).map fun list =>
      FacetDetail.constraints about list).toList.filterMap (FacetDetail.top? name) = [] := by
    cases constraint.bind FacetConstraint.text <;> rfl
  rw [hlist, List.append_nil]
  cases top with
  | none => simp
  | some n =>
    by_cases hname : about = name
    · simp [FacetDetail.top?, hname]
    · simp [FacetDetail.top?, hname]

/-- ...and they list what it asks to be counted, if it does. -/
theorem forall₂_wanted_details (f : Facet) (name : String) :
    List.Forall₂ FacetConstraint.IsListedBy (if f.name = name then f.wanted.toList else [])
      (f.details.filterMap (FacetDetail.list? name)) := by
  obtain ⟨about, top, constraint⟩ := f
  have htop : (top.map fun n => FacetDetail.top about n.toNat).toList.filterMap
      (FacetDetail.list? name) = [] := by
    cases top <;> rfl
  rw [details, List.filterMap_append, htop, List.nil_append]
  cases constraint with
  | none => simp [wanted]
  | some c =>
    -- a constraint that names nothing has no text, so both sides skip the same facets
    rcases c.text_cases with ⟨hvoid, htext⟩ | ⟨list, hvoid, htext, hlisted⟩
    · have hwanted : (some c).filter (fun c => !c.isVoid) = none := by simp [Option.filter, hvoid]
      rw [wanted, hwanted, Option.bind_some, htext]
      simp
    · have hwanted : (some c).filter (fun c => !c.isVoid) = some c := by
        simp [Option.filter, hvoid]
      rw [wanted, hwanted, Option.bind_some, htext]
      by_cases hname : about = name
      · simp [FacetDetail.list?, hname, hlisted]
      · simp [FacetDetail.list?, hname]

/-- The facets with a given name. -/
def about (name : String) (fs : List Facet) : List Facet :=
  fs.filter fun f => decide (f.name = name)

/-- What is asked of the facets with a given name, one facet after the other. -/
theorem filterMap_about_cons {β : Type} (ask : Facet → Option β) (name : String) (f : Facet)
    (fs : List Facet) :
    (about name (f :: fs)).filterMap ask
      = (if f.name = name then (ask f).toList else []) ++ (about name fs).filterMap ask := by
  rw [about, about]
  by_cases hname : f.name = name
  · rw [if_pos hname, List.filter_cons_of_pos (by simpa using hname), List.filterMap_cons]
    cases ask f <;> rfl
  · rw [if_neg hname, List.filter_cons_of_neg (by simpa using hname), List.nil_append]

/-- **For one name, the numbers of values are those of the facets of that name, in order.** -/
theorem filterMap_top (name : String) (fs : List Facet) :
    (fs.flatMap details).filterMap (FacetDetail.top? name)
      = (about name fs).filterMap fun f => f.top.map UInt32.toNat := by
  induction fs with
  | nil => rfl
  | cons f fs ih =>
    rw [List.flatMap_cons, List.filterMap_append, ih, filterMap_top_details, filterMap_about_cons]

/-- **...and the lists are those of what these facets ask to be counted.** -/
theorem forall₂_wanted (name : String) (fs : List Facet) :
    List.Forall₂ FacetConstraint.IsListedBy ((about name fs).filterMap wanted)
      ((fs.flatMap details).filterMap (FacetDetail.list? name)) := by
  induction fs with
  | nil => exact .nil
  | cons f fs ih =>
    rw [filterMap_about_cons, List.flatMap_cons, List.filterMap_append]
    exact List.rel_append (forall₂_wanted_details f name) ih

end Facet

/-! ## 4. All parameters -/

namespace Search

/-- The facets that have a name. -/
def named (facets : List Facet) : List Facet := facets.filter fun f => !f.name.isEmpty

theorem named_eq_nil_iff {facets : List Facet} :
    named facets = [] ↔ ∀ f ∈ facets, f.name = "" := by
  simp [named, List.filter_eq_nil_iff]

/-- The parameters of facets of which one has a name. -/
theorem facetParams_of_named {facets : List Facet} (h : named facets ≠ []) :
    facetParams facets =
      ("facet=" ++ String.intercalate "," ((named facets).map fun f => Text.escape f.name)) ::
        ((named facets).flatMap Facet.details).map FacetDetail.spelling := by
  have hdetails : facetDetails = fun f => f.details.map FacetDetail.spelling :=
    funext Facet.facetDetails_eq
  unfold facetParams
  rw [← named, List.map_flatMap, ← hdetails]
  split
  · rename_i hnil
    exact absurd hnil h
  · rfl

/-- The names of facets are read back. -/
theorem readList_names {fs : List Facet} (h : fs ≠ []) :
    readList Text.unescape (String.intercalate "," (fs.map fun f => Text.escape f.name))
      = some (fs.map Facet.name) := by
  have hne : fs.map Facet.name ≠ [] := fun hnil => h (List.map_eq_nil_iff.mp hnil)
  have hread := readList_intercalate Text.escape hne
    (fun name _ => FacetConstraint.not_mem_comma_escape name)
    fun name _ => Text.unescape_escape name
  rwa [List.map_map] at hread

/-- **The parameters of facets say what the facets ask for, and can be read in one way only.**
There are none when no facet has a name.  Otherwise the first lists the names; each of the others
is about one facet, and in one way only; and for every name they say what the facets of that name
ask for, in order: how many values, and which ones, except where a facet names none. -/
theorem facetParams_reads (facets : List Facet) :
    (facetParams facets = [] ∧ ∀ f ∈ facets, f.name = "") ∨
      ∃ names more, ∃ details : List FacetDetail, facetParams facets = ("facet=" ++ names) :: more ∧
        (∃ f ∈ facets, f.name ≠ "") ∧
        readList Text.unescape names = some ((named facets).map Facet.name) ∧
        (∀ entry ∈ more, ∃! d : FacetDetail, d.spelling = entry) ∧
        details.map FacetDetail.spelling = more ∧
        ∀ name, details.filterMap (FacetDetail.top? name)
            = (Facet.about name (named facets)).filterMap (fun f => f.top.map UInt32.toNat) ∧
          List.Forall₂ FacetConstraint.IsListedBy
            ((Facet.about name (named facets)).filterMap Facet.wanted)
            (details.filterMap (FacetDetail.list? name)) := by
  by_cases h : named facets = []
  · refine Or.inl ⟨?_, named_eq_nil_iff.mp h⟩
    rw [facetParams, ← named, h]
  · refine Or.inr ⟨_, _, (named facets).flatMap Facet.details, facetParams_of_named h, ?_,
      readList_names h, ?_, rfl, ?_⟩
    · obtain ⟨f, hf⟩ := List.exists_mem_of_ne_nil _ h
      obtain ⟨hmem, hname⟩ := List.mem_filter.mp hf
      exact ⟨f, hmem, by simpa using hname⟩
    · -- every entry is the spelling of some detail, and of no other
      intro entry hentry
      obtain ⟨d, -, rfl⟩ := List.mem_map.mp hentry
      exact ⟨d, rfl, fun e he => FacetDetail.spelling_injective he⟩
    · intro name
      exact ⟨Facet.filterMap_top name _, Facet.forall₂_wanted name _⟩

end Search
end DocSearch
