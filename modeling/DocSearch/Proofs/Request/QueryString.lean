/-
# What a query string says

The query string of a search is taken apart again: at the ampersands into pieces, and each piece
at its first equals sign.  Each parameter is there exactly when the search asks for it, its value
reads back as what the search asks for, and the parameters stand in a fixed order.

The proof names the pairs before they are written (`pairGroups`), shows that the parameters of the
search are these pairs (`parameters_eq`), and that each of them holds neither of the two
separators, whatever texts the search carries (`isPair_of_mem_pairGroups`).  Two values are not
plain encoded texts: a filter expression and the constraints of a facet.  Their own signs are
parentheses, `+`, commas and quotes, so no separator is among them either.

Main statement: `queryString_reads`.
-/
import DocSearch.Proofs.Filter.NormalForm
import DocSearch.Proofs.Request.Pairs
import DocSearch.Request.Search

namespace DocSearch

open Query (IsPart IsPair isPart_append isPart_intercalate isPart_escape)

/-! ## 1. Numbers, ranges and filter expressions -/

theorem isPart_ofNat (n : Nat) : IsPart (Decimal.ofNat n) := by
  intro c hc
  rw [Decimal.toList_ofNat] at hc
  have hdigit := Decimal.isDigit_of_mem_toDigits hc
  exact Query.isPartChar_of_isAlphanum (by simp [Char.isAlphanum, hdigit])

theorem isPartChar_of_isNumeric {c : Char} (h : Decimal.isNumeric c = true) :
    Query.isPartChar c = true := by
  rw [Decimal.isNumeric, Bool.or_eq_true, decide_eq_true_eq] at h
  rcases h with h | rfl
  · exact Query.isPartChar_of_isAlphanum (by simp [Char.isAlphanum, h])
  · decide

theorem isPart_range (r : Range) : IsPart r.text := by
  refine isPart_append (isPart_append ?_ (by decide)) ?_
  · exact fun c hc => isPartChar_of_isNumeric (Range.mem_boundText hc)
  · exact fun c hc => isPartChar_of_isNumeric (Range.mem_boundText hc)

/-- Constraints hold commas and quotes of their own. -/
theorem isPart_constraint {constraint : FacetConstraint} {t : String}
    (h : constraint.text = some t) : IsPart t := by
  have hjoin : ∀ parts : List String, (∀ part ∈ parts, IsPart part) →
      IsPart (String.intercalate "," parts) :=
    fun parts hparts => isPart_intercalate (by decide) hparts
  match constraint, h with
  | .ranges (r :: rs), h =>
    obtain rfl := Option.some.inj h
    refine hjoin _ fun part hpart => ?_
    obtain ⟨range, -, rfl⟩ := List.mem_map.mp hpart
    exact isPart_range range
  | .values (v :: vs), h =>
    obtain rfl := Option.some.inj h
    refine hjoin _ fun part hpart => ?_
    obtain ⟨value, -, rfl⟩ := List.mem_map.mp hpart
    exact isPart_append (isPart_append (by decide) (isPart_escape value)) (by decide)

namespace Expression

/-- A word of a filter expression. -/
theorem isPart_atom (a : Atom) : IsPart a.spelling := by
  intro c hc
  have hword := isWordChar_of_mem_spelling hc
  rw [isWordChar, Bool.or_eq_true, decide_eq_true_eq] at hword
  rcases hword with h | rfl
  · exact Query.isPartChar_of_isEscaped h
  · decide

theorem isPart_operation {word : String} {operands : List String} (hword : IsPart word)
    (hoperands : ∀ operand ∈ operands, IsPart operand) :
    IsPart (Condition.operation word operands) := by
  refine isPart_append (isPart_append (by decide) (isPart_intercalate (by decide) ?_)) (by decide)
  intro part hpart
  rcases List.mem_cons.mp hpart with rfl | hpart
  · exact hword
  · exact hoperands part hpart

mutual

/-- A node adds parentheses and `+` to its words. -/
theorem isPart_node : ∀ n : Node, IsPart n.spelling
  | .atom a => isPart_atom a
  | .op keyword first more => by
    rw [Node.spelling]
    refine isPart_operation (by cases keyword <;> decide) fun operand hoperand => ?_
    rcases List.mem_cons.mp hoperand with rfl | hoperand
    · exact isPart_node first
    · exact isPart_nodes more operand hoperand
  | .not operand => by
    rw [Node.spelling]
    refine isPart_operation (by decide) fun text htext => ?_
    obtain rfl := List.mem_singleton.mp htext
    exact isPart_node operand

theorem isPart_nodes : ∀ ns : List Node, ∀ text ∈ spellings ns, IsPart text
  | [], text, h => by cases h
  | n :: ns, text, h => by
    rw [spellings] at h
    rcases List.mem_cons.mp h with rfl | h
    · exact isPart_node n
    · exact isPart_nodes ns text h

end

end Expression

/-- **A filter expression has no separator of query strings in it.** -/
theorem isPart_compile {f : Filter} {e : String} (h : f.compile = some e) : IsPart e := by
  rw [Filter.compile_eq_rowText] at h
  split at h
  · cases h
  · obtain rfl := Option.some.inj h
    exact isPart_intercalate (by decide) (Expression.isPart_nodes f.normalForm)

/-! ## 2. The pairs of a search -/

/-- The pairs of a query string, by what they are about. -/
structure PairGroups where
  keyword : List (String × String)
  filter : List (String × String)
  facets : List (String × String)
  fields : List (String × String)
  size : List (String × String)
  start : List (String × String)
  order : List (String × String)

/-- All pairs, in the order of the query string. -/
def PairGroups.all (p : PairGroups) : List (String × String) :=
  p.keyword ++ p.filter ++ p.facets ++ p.fields ++ p.size ++ p.start ++ p.order

namespace Search

/-- The pairs of one facet besides its name. -/
def facetDetailPairs (f : Facet) : List (String × String) :=
  (f.top.map fun n =>
      ("facet-" ++ Text.escape f.name ++ "-top-n", Decimal.ofNat n.toNat)).toList ++
    ((f.constraint.bind FacetConstraint.text).map fun text =>
      ("facet-" ++ Text.escape f.name ++ "-constraints", text)).toList

/-- The pairs of the facets. -/
def facetPairs (facets : List Facet) : List (String × String) :=
  match facets.filter fun f => !f.name.isEmpty with
  | [] => []
  | named =>
    ("facet", String.intercalate "," (named.map fun f => Text.escape f.name)) ::
      named.flatMap facetDetailPairs

/-- The pairs of a search without a raw query. -/
def pairGroups (s : Search) : PairGroups where
  keyword := ((s.keyword.filter fun k => !k.isEmpty).map fun k => ("q", Text.escape k)).toList
  filter := (s.filter.compile.map fun e => ("bq", e)).toList
  facets := facetPairs s.facets
  fields :=
    if s.fields.isEmpty then []
    else [("return-fields", Text.escape (String.intercalate "," s.fields))]
  size := (s.size.map fun n => ("size", Decimal.ofNat n.toNat)).toList
  start := [("start", Decimal.ofNat s.start.toNat)]
  order := (s.order.map fun o => ("rank", Text.escape o.text)).toList

/-- A parameter that may be missing is the piece of a pair that may be missing. -/
theorem toList_map_piece {α : Type} (a : Option α) (f : α → String × String) :
    (a.map f).toList.map Query.piece = (a.map fun a => Query.piece (f a)).toList := by
  cases a <;> rfl

theorem facetDetails_eq (f : Facet) :
    facetDetails f = (facetDetailPairs f).map Query.piece := by
  have htop : "-top-n=" = "-top-n" ++ "=" := rfl
  have hconstraints : "-constraints=" = "-constraints" ++ "=" := rfl
  rw [facetDetailPairs, List.map_append, toList_map_piece, toList_map_piece, facetDetails]
  simp only [Query.piece, htop, hconstraints, String.append_assoc]

theorem facetParams_eq (facets : List Facet) :
    facetParams facets = (facetPairs facets).map Query.piece := by
  have hdetails : facetDetails = fun f => (facetDetailPairs f).map Query.piece :=
    funext facetDetails_eq
  unfold facetParams facetPairs
  cases facets.filter fun f => !f.name.isEmpty with
  | nil => rfl
  | cons f named =>
    have hfacet : "facet=" = "facet" ++ "=" := rfl
    simp only [List.map_cons, List.map_flatMap, Query.piece, hfacet, hdetails]

theorem keywordParam_eq (keyword : Option String) :
    (keywordParam keyword).toList =
      (((keyword.filter fun k => !k.isEmpty).map fun k => ("q", Text.escape k)).toList).map
        Query.piece := by
  cases keyword with
  | none => rfl
  | some k =>
    by_cases hk : k.isEmpty = true
    · simp [keywordParam, Option.filter, hk]
    · simp only [keywordParam, Option.filter, hk]
      rfl

/-- The separator of the fields is encoded like the fields. -/
theorem fieldsParam_eq (fields : List String) :
    (fieldsParam fields).toList =
      (if fields.isEmpty then []
        else [("return-fields", Text.escape (String.intercalate "," fields))]).map Query.piece := by
  have hcomma : Text.escape "," = "%2C" := by decide
  cases fields with
  | nil => rfl
  | cons field fields =>
    rw [Text.escape_intercalate, hcomma]
    rfl

theorem rankParam_eq (o : Order) : rankParam o = Query.piece ("rank", Text.escape o.text) := by
  have hsign : ∀ d, Text.escape (Order.sign d) = Order.sign d := by
    intro d
    cases d <;> decide
  rw [Order.text, Text.escape_append, hsign]
  rfl

/-- **The parameters of a search are its pairs.** -/
theorem parameters_eq {s : Search} (h : s.raw = none) :
    s.parameters = s.pairGroups.all.map Query.piece := by
  have hselection : s.selection = (keywordParam s.keyword).toList ++
      (filterParam s.filter).toList := by
    rw [selection, h]
  have hfilter : (filterParam s.filter).toList =
      (s.filter.compile.map fun e => ("bq", e)).toList.map Query.piece := by
    rw [toList_map_piece]
    rfl
  have hsize : (s.size.map fun n => "size=" ++ Decimal.ofNat n.toNat).toList =
      (s.size.map fun n => ("size", Decimal.ofNat n.toNat)).toList.map Query.piece := by
    rw [toList_map_piece]
    rfl
  have horder : (s.order.map rankParam).toList =
      (s.order.map fun o => ("rank", Text.escape o.text)).toList.map Query.piece := by
    rw [toList_map_piece, funext rankParam_eq]
  rw [parameters, hselection, keywordParam_eq, hfilter, facetParams_eq, fieldsParam_eq, hsize,
    horder]
  simp only [PairGroups.all, pairGroups, List.map_append]
  rfl

/-! ## 3. No pair holds a separator -/

/-- A pair with a fixed name. -/
theorem isPair_of_value {name value : String} (hne : name ≠ "") (hname : IsPart name)
    (hvalue : IsPart value) : IsPair (name, value) :=
  ⟨hne, hname, hvalue⟩

theorem isPair_of_mem_facetDetailPairs {f : Facet} :
    ∀ pair ∈ facetDetailPairs f, IsPair pair := by
  have hname : ∀ ending : String, IsPart ending →
      IsPart ("facet-" ++ Text.escape f.name ++ ending) :=
    fun ending hending => isPart_append (isPart_append (by decide) (isPart_escape f.name)) hending
  have hne : ∀ ending : String, "facet-" ++ Text.escape f.name ++ ending ≠ "" := by
    intro ending h
    rw [← String.toList_inj] at h
    simp at h
  intro pair hpair
  simp only [facetDetailPairs, List.mem_append, Option.mem_toList, Option.map_eq_some_iff,
    Option.bind_eq_some_iff] at hpair
  rcases hpair with ⟨n, -, rfl⟩ | ⟨t, ⟨constraint, -, ht⟩, rfl⟩
  · exact ⟨hne _, hname _ (by decide), isPart_ofNat _⟩
  · exact ⟨hne _, hname _ (by decide), isPart_constraint ht⟩

theorem isPair_of_mem_facetPairs {facets : List Facet} :
    ∀ pair ∈ facetPairs facets, IsPair pair := by
  intro pair hpair
  unfold facetPairs at hpair
  split at hpair
  · cases hpair
  · rcases List.mem_cons.mp hpair with rfl | hpair
    · refine isPair_of_value (by decide) (by decide)
        (isPart_intercalate (by decide) fun part hpart => ?_)
      obtain ⟨f, -, rfl⟩ := List.mem_map.mp hpart
      exact isPart_escape f.name
    · obtain ⟨f, -, hf⟩ := List.mem_flatMap.mp hpair
      exact isPair_of_mem_facetDetailPairs pair hf

/-- **No name and no value holds a separator**, whatever texts the search carries. -/
theorem isPair_of_mem_pairGroups (s : Search) : ∀ pair ∈ s.pairGroups.all, IsPair pair := by
  intro pair hpair
  simp only [PairGroups.all, pairGroups, List.mem_append, Option.mem_toList,
    Option.map_eq_some_iff, List.mem_singleton] at hpair
  rcases hpair with (((((⟨k, -, rfl⟩ | ⟨e, he, rfl⟩) | hfacet) | hfields) | ⟨n, -, rfl⟩) | rfl) |
    ⟨o, -, rfl⟩
  · exact isPair_of_value (by decide) (by decide) (isPart_escape k)
  · exact isPair_of_value (by decide) (by decide) (isPart_compile he)
  · exact isPair_of_mem_facetPairs pair hfacet
  · split at hfields
    · cases hfields
    · obtain rfl := List.mem_singleton.mp hfields
      exact isPair_of_value (by decide) (by decide) (isPart_escape _)
  · exact isPair_of_value (by decide) (by decide) (isPart_ofNat _)
  · exact isPair_of_value (by decide) (by decide) (isPart_ofNat _)
  · exact isPair_of_value (by decide) (by decide) (isPart_escape _)

/-! ## 4. The query string read back -/

end Search

/-- What the pairs of one parameter have to be: none when nothing is wanted, and otherwise one
with the name of the parameter, whose value reads as what is wanted. -/
inductive Gives {α : Type} (name : String) (read : String → Option α) :
    Option α → List (String × String) → Prop where
  | absent : Gives name read none []
  | given {wanted : α} {value : String} (h : read value = some wanted) :
      Gives name read (some wanted) [(name, value)]

/-- The reading of a percent-encoded value. -/
def readEscaped (value : String) : Option String := Text.unescape value.toList

/-- The reading of a number. -/
def readNumber (value : String) : Option UInt32 := (Decimal.readUInt32 value).toOption

/-- The pairs say what a search asks for. -/
structure PairGroups.Spell (p : PairGroups) (s : Search) : Prop where
  keyword : Gives "q" readEscaped (s.keyword.filter fun k => !k.isEmpty) p.keyword
  filter : Gives "bq" some s.filter.compile p.filter
  facets : p.facets.map Query.piece = Search.facetParams s.facets
  fields : Gives "return-fields" readEscaped
    (if s.fields = [] then none else some (String.intercalate "," s.fields)) p.fields
  size : Gives "size" readNumber s.size p.size
  start : Gives "start" readNumber (some s.start) p.start
  order : Gives "rank" readEscaped (s.order.map Order.text) p.order

/-- A value that is written so that it reads back. -/
theorem gives_toList {α : Type} (name : String) {read : String → Option α} {write : α → String}
    (h : ∀ a, read (write a) = some a) (wanted : Option α) :
    Gives name read wanted (wanted.map fun a => (name, write a)).toList := by
  cases wanted with
  | none => exact .absent
  | some a => exact .given (h a)

theorem readEscaped_escape (t : String) : readEscaped (Text.escape t) = some t :=
  Text.unescape_escape t

theorem readNumber_ofNat (n : UInt32) : readNumber (Decimal.ofNat n.toNat) = some n := by
  rw [readNumber, Decimal.readUInt32_ofNat]
  rfl

namespace Search

theorem spell_pairGroups (s : Search) : s.pairGroups.Spell s where
  keyword := gives_toList "q" readEscaped_escape _
  filter := gives_toList "bq" (fun _ => rfl) _
  facets := (facetParams_eq s.facets).symm
  fields := by
    simp only [pairGroups, List.isEmpty_iff]
    split
    · exact .absent
    · exact .given (readEscaped_escape _)
  size := gives_toList "size" readNumber_ofNat _
  start := .given (readNumber_ofNat s.start)
  order := by
    have hgives := gives_toList "rank" readEscaped_escape (s.order.map Order.text)
    rw [Option.map_map] at hgives
    exact hgives

/-- **A query string says what its search asks for, and nothing else.**  Without a raw query, the
pairs of the query string are those of the keyword, the filter, the facets, the fields, the size,
the start and the order, one after the other; and nothing that the search carries can add a
piece, end one early or bring in a character of its own. -/
theorem queryString_reads {s : Search} (h : s.raw = none) :
    (∃ p : PairGroups, Query.pairs s.queryString = some p.all ∧ p.Spell s) ∧
      Query.IsWellFormed s.queryString := by
  have hpairs := isPair_of_mem_pairGroups s
  have hne : s.pairGroups.all ≠ [] := by
    simp [PairGroups.all, pairGroups]
  have htext : s.queryString = Query.queryText s.pairGroups.all := by
    rw [queryString, parameters_eq h, Query.queryText]
  rw [htext]
  refine ⟨⟨s.pairGroups, ?_, spell_pairGroups s⟩, ?_⟩
  · exact Query.pairs_queryText hne hpairs
  · exact Query.isWellFormed_queryText hne hpairs

/-- Signs of the query string in a keyword stay in the keyword. -/
theorem queryString_reads_signs :
    ∃ s : Search, s.keyword = some "a&b=c" ∧ s.raw = none ∧
      (∃ p : PairGroups, Query.pairs s.queryString = some p.all ∧ p.Spell s) ∧
      Query.IsWellFormed s.queryString :=
  ⟨{ returning ["title"] with keyword := some "a&b=c" }, rfl, rfl, queryString_reads rfl⟩

end Search

end DocSearch
