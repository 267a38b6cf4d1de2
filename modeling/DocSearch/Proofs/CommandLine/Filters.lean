/-
# What the filters of the command line ask for

Which condition a filter asks for is said here without the reader.  The first equals sign of a
filter parts it (`HasSides`): what stands before is the field, blanks around it ignored, and must
not be blank; what stands behind is the value as it is, further equals signs included.  An integer
filter has two ways to go on, and two dots in its value choose between them: with two dots it is a
range, and it is not tried as an integer when it is none.

The filters are read in one row, those of one option after those of another, and the first that
asks for nothing decides (`conditions_eq_mapM`, `Refuses`).  Its place in the row is what counts: an
integer filter that is no range is not reported while a filter before it has no field.  A raw query
changes nothing of this, though it takes the place of the filters in the request.

All conditions of the command line render something, and none is negated, so the compiler keeps
every one of them: those that have to hold in one clause, and all others in the clause of the
alternatives.

Main statement: `searchOf_exact`.
-/
import DocSearch.CommandLine.Run
import DocSearch.Proofs.Client.Scoping
import DocSearch.Proofs.Filter.RangeSpelling
import DocSearch.Proofs.Filter.Rearrangement

namespace DocSearch

open Outcome

/-! ## 1. The sides of a filter -/

/-- A filter has a field and a value, on the two sides of its first equals sign.  Blanks around the
field do not belong to it, and it must not be blank itself. -/
def HasSides (filter field value : String) : Prop :=
  ∃ before, Text.IsFirstSplit ['='] filter.toList before value.toList ∧
    field.toList = Text.trimWhere Text.isBlank before ∧ field ≠ ""

theorem splitFilter_ok_iff {filter field value : String} :
    splitFilter filter = .ok (field, value) ↔ HasSides filter field value := by
  rw [splitFilter_eq_ok_iff]
  constructor
  · rintro ⟨before, after, hsplit, hne, rfl, rfl⟩
    refine ⟨before, ?_, String.toList_ofList, fun hempty => hne ?_⟩
    · rw [String.toList_ofList]
      exact Text.splitOnce_eq_some_iff.mp hsplit
    · exact String.ofList_eq_empty_iff.mp hempty
  · rintro ⟨before, hsplit, hfield, hne⟩
    refine ⟨before, value.toList, Text.splitOnce_eq_some_iff.mpr hsplit, fun hblank => hne ?_, ?_,
      String.ofList_toList.symm⟩
    · rwa [hblank, String.toList_eq_nil_iff] at hfield
    · rw [← hfield, String.ofList_toList]

/-- A filter without sides has no field, whatever else is wrong with it. -/
theorem splitFilter_error_iff {filter : String} {fault : FilterFault} :
    splitFilter filter = .error fault ↔
      (¬ ∃ field value, HasSides filter field value) ∧ fault = .noField filter := by
  have hfault : ∀ other, splitFilter filter = .error other → other = .noField filter := by
    intro other h
    unfold splitFilter at h
    split at h
    · exact (Except.error.inj h).symm
    · dsimp only at h
      split at h
      · exact (Except.error.inj h).symm
      · cases h
  constructor
  · intro h
    refine ⟨?_, hfault fault h⟩
    rintro ⟨field, value, hsides⟩
    rw [splitFilter_ok_iff.mpr hsides] at h
    cases h
  · rintro ⟨hnone, rfl⟩
    cases hread : splitFilter filter with
    | ok sides => exact absurd ⟨sides.1, sides.2, splitFilter_ok_iff.mp hread⟩ hnone
    | error other => rw [hfault other hread]

/-! ## 2. The value of an integer filter -/

/-- Two dots stand next to each other somewhere in a text. -/
def HasDots (value : String) : Prop := ['.', '.'] <:+: value.toList

/-- A text stands for what an integer field is compared with: a range, or an integer with blanks
around it. -/
inductive SpellsValue (value : String) : IntValue → Prop where
  | range {r : Range} (h : Range.Spells value r.lower r.upper) : SpellsValue value (.range r)
  | exact {n : Int64} (hplain : ¬ HasDots value) (h : Decimal.Spells value n.toInt) :
      SpellsValue value (.exact n)

/-- A text stands for no such thing, and a filter with it ends in the failure. -/
inductive RefusesValue (filter value : String) : Failure → Prop where
  | range {fault : Range.Fault} (hdots : HasDots value) (h : Range.ofText value = .error fault) :
      RefusesValue filter value ⟨.invalidRange, fault.message⟩
  | exact {fault : Decimal.Fault} (hplain : ¬ HasDots value)
      (h : Decimal.readInt64 (Text.trim value) = .error fault) :
      RefusesValue filter value
        ⟨.other, "Invalid integer in '" ++ filter ++ "': " ++ fault.message⟩

theorem hasDots_of_spells {value : String} {lower upper : Option Int64}
    (h : Range.Spells value lower upper) : HasDots value := by
  obtain ⟨before, after, hsplit, -, -⟩ := h
  exact ⟨before, after, hsplit.1.symm⟩

theorem integerValue_of_dots {filter value : String} (h : HasDots value) :
    integerValue filter value =
      ((Range.ofText value).map IntValue.range).mapError .badRange :=
  if_pos (Text.isSome_splitOnce_iff.mpr h)

theorem integerValue_of_plain {filter value : String} (h : ¬ HasDots value) :
    integerValue filter value =
      ((Decimal.readInt64 (Text.trim value)).map IntValue.exact).mapError (.badInteger filter) :=
  if_neg fun hsome => h (Text.isSome_splitOnce_iff.mp hsome)

theorem integerValue_ok_iff {filter value : String} {v : IntValue} :
    integerValue filter value = .ok v ↔ SpellsValue value v := by
  by_cases hdots : HasDots value
  · rw [integerValue_of_dots hdots, mapError_eq_ok_iff, map_eq_ok_iff]
    simp only [Range.ofText_eq_ok_iff]
    constructor
    · rintro ⟨r, h, rfl⟩
      exact .range h
    · intro h
      cases h with
      | range h => exact ⟨_, h, rfl⟩
      | exact hplain => exact absurd hdots hplain
  · rw [integerValue_of_plain hdots, mapError_eq_ok_iff, map_eq_ok_iff]
    simp only [Decimal.readInt64_eq_ok_iff, Text.toList_trim, ← Decimal.spells_iff]
    constructor
    · rintro ⟨n, h, rfl⟩
      exact .exact hdots h
    · intro h
      cases h with
      | range h => exact absurd (hasDots_of_spells h) hdots
      | exact _ h => exact ⟨_, h, rfl⟩

theorem integerValue_error_iff {filter value : String} {f : Failure} :
    (∃ fault, integerValue filter value = .error fault ∧ fault.failure = f) ↔
      RefusesValue filter value f := by
  by_cases hdots : HasDots value
  · simp only [integerValue_of_dots hdots, mapError_eq_error_iff, map_eq_error_iff]
    constructor
    · rintro ⟨_, ⟨fault, h, rfl⟩, rfl⟩
      exact .range hdots h
    · intro h
      cases h with
      | range _ h => exact ⟨_, ⟨_, h, rfl⟩, rfl⟩
      | exact hplain => exact absurd hdots hplain
  · simp only [integerValue_of_plain hdots, mapError_eq_error_iff, map_eq_error_iff]
    constructor
    · rintro ⟨_, ⟨fault, h, rfl⟩, rfl⟩
      exact .exact hdots h
    · intro h
      cases h with
      | range hfound => exact absurd hfound hdots
      | exact _ h => exact ⟨_, ⟨_, h, rfl⟩, rfl⟩

/-! ## 3. The condition of a filter -/

/-- The options that take filters. -/
inductive FilterOption where
  | required
  | alternative
  | integer

namespace FilterOption

/-- Reads the filter of an option. -/
def read : FilterOption → String → Except FilterFault Condition
  | .required => textCondition .conjunct
  | .alternative => textCondition .alternative
  | .integer => integerCondition

/-- Where the condition of an option goes in a filter expression. -/
def bucket : FilterOption → Conjunction
  | .required => .and
  | .alternative => .or
  | .integer => .or

/-- A filter behind an option asks for the condition. -/
inductive Asks : FilterOption → String → Condition → Prop where
  | required {filter field value : String} (h : HasSides filter field value) :
      Asks .required filter (.text (some field) value .conjunct)
  | alternative {filter field value : String} (h : HasSides filter field value) :
      Asks .alternative filter (.text (some field) value .alternative)
  | integer {filter field value : String} {v : IntValue} (h : HasSides filter field value)
      (hvalue : SpellsValue value v) : Asks .integer filter (.int field v .alternative)

/-- A filter behind an option asks for nothing and ends in the failure. -/
inductive Refuses : FilterOption → String → Failure → Prop where
  | noField {option : FilterOption} {filter : String}
      (h : ¬ ∃ field value, HasSides filter field value) :
      Refuses option filter ⟨.other, "Invalid filter '" ++ filter ++ "': expected FIELD=VALUE"⟩
  | noInteger {filter field value : String} {f : Failure} (h : HasSides filter field value)
      (hvalue : RefusesValue filter value f) : Refuses .integer filter f

theorem textCondition_ok_iff {flags : Flags} {filter : String} {c : Condition} :
    textCondition flags filter = .ok c ↔
      ∃ field value, HasSides filter field value ∧ .text (some field) value flags = c := by
  rw [textCondition, map_eq_ok_iff, Prod.exists]
  simp only [splitFilter_ok_iff]

/-- **A filter is read as the condition that it asks for.** -/
theorem read_ok_iff {option : FilterOption} {filter : String} {c : Condition} :
    option.read filter = .ok c ↔ Asks option filter c := by
  constructor
  · intro h
    cases option with
    | required =>
      obtain ⟨field, value, hsides, rfl⟩ := textCondition_ok_iff.mp h
      exact .required hsides
    | alternative =>
      obtain ⟨field, value, hsides, rfl⟩ := textCondition_ok_iff.mp h
      exact .alternative hsides
    | integer =>
      obtain ⟨sides, hsides, h⟩ := bind_eq_ok_iff.mp h
      obtain ⟨v, hv, rfl⟩ := map_eq_ok_iff.mp h
      exact .integer (splitFilter_ok_iff.mp hsides) (integerValue_ok_iff.mp hv)
  · intro h
    cases h with
    | required h => exact textCondition_ok_iff.mpr ⟨_, _, h, rfl⟩
    | alternative h => exact textCondition_ok_iff.mpr ⟨_, _, h, rfl⟩
    | integer h hvalue =>
      exact bind_eq_ok_iff.mpr ⟨_, splitFilter_ok_iff.mpr h,
        map_eq_ok_iff.mpr ⟨_, integerValue_ok_iff.mpr hvalue, rfl⟩⟩

/-- Reading the sides is the first thing that is done with a filter. -/
theorem read_of_split {option : FilterOption} {filter : String} {fault : FilterFault}
    (h : splitFilter filter = .error fault) : option.read filter = .error fault := by
  cases option with
  | required => exact map_eq_error_iff.mpr h
  | alternative => exact map_eq_error_iff.mpr h
  | integer => exact bind_eq_error_iff.mpr (Or.inl h)

/-- **A filter that asks for nothing ends in the failure that says why.** -/
theorem read_error_iff {option : FilterOption} {filter : String} {f : Failure} :
    (∃ fault, option.read filter = .error fault ∧ fault.failure = f) ↔
      Refuses option filter f := by
  constructor
  · rintro ⟨fault, h, rfl⟩
    cases hsplit : splitFilter filter with
    | error other =>
      obtain ⟨hnone, rfl⟩ := splitFilter_error_iff.mp hsplit
      rw [read_of_split hsplit] at h
      cases h
      exact .noField hnone
    | ok sides =>
      have hsides := splitFilter_ok_iff.mp hsplit
      cases option with
      | required =>
        rw [read_ok_iff.mpr (.required hsides)] at h
        cases h
      | alternative =>
        rw [read_ok_iff.mpr (.alternative hsides)] at h
        cases h
      | integer =>
        rw [FilterOption.read, integerCondition, hsplit] at h
        exact .noInteger hsides (integerValue_error_iff.mp ⟨fault, map_eq_error_iff.mp h, rfl⟩)
  · intro h
    cases h with
    | noField hnone =>
      exact ⟨.noField filter, read_of_split (splitFilter_error_iff.mpr ⟨hnone, rfl⟩), rfl⟩
    | noInteger hsides hvalue =>
      obtain ⟨fault, hfault, rfl⟩ := integerValue_error_iff.mpr hvalue
      refine ⟨fault, bind_eq_error_iff.mpr (Or.inr ?_), rfl⟩
      exact ⟨_, splitFilter_ok_iff.mpr hsides, map_eq_error_iff.mpr hfault⟩

/-- A condition of the command line goes where its option says, and never asks for nothing. -/
theorem Asks.place {option : FilterOption} {filter : String} {c : Condition}
    (h : Asks option filter c) : c.conjunction = option.bucket ∧ c.isVoid = false := by
  cases h with
  | required => exact ⟨rfl, rfl⟩
  | alternative => exact ⟨rfl, rfl⟩
  | integer => exact ⟨rfl, rfl⟩

theorem place_of_mem {option : FilterOption} {filters : List String} {conditions : List Condition}
    (h : List.Forall₂ option.Asks filters conditions) :
    ∀ c ∈ conditions, c.conjunction = option.bucket ∧ c.isVoid = false := by
  induction h with
  | nil => exact fun c hc => absurd hc List.not_mem_nil
  | cons hasks _ ih => exact List.forall_mem_cons.mpr ⟨hasks.place, ih⟩

end FilterOption

/-! ## 4. The filters of a command line -/

namespace SearchOptions

/-- The filters of the options, in the order in which they are read. -/
def filters (o : SearchOptions) : List (FilterOption × String) :=
  o.required.map (FilterOption.required, ·) ++ o.alternatives.map (FilterOption.alternative, ·) ++
    o.integers.map (FilterOption.integer, ·)

/-- **The three options are read in one row.** -/
theorem conditions_eq_mapM (o : SearchOptions) :
    o.conditions = o.filters.mapM fun given => given.1.read given.2 := by
  simp only [conditions, filters, List.mapM_append, List.mapM_map, bind_assoc, pure_bind]
  rfl

theorem conditions_ok_iff {o : SearchOptions} {conditions : List Condition} :
    o.conditions = .ok conditions ↔
      ∃ required alternatives integers,
        List.Forall₂ FilterOption.required.Asks o.required required ∧
        List.Forall₂ FilterOption.alternative.Asks o.alternatives alternatives ∧
        List.Forall₂ FilterOption.integer.Asks o.integers integers ∧
        required ++ alternatives ++ integers = conditions := by
  have hread : ∀ option filters cs,
      List.mapM (FilterOption.read option) filters = .ok cs ↔
        List.Forall₂ option.Asks filters cs := by
    intro option filters cs
    rw [mapM_eq_ok_iff]
    simp only [FilterOption.read_ok_iff]
  change ((o.required.mapM (FilterOption.read .required)).bind fun required =>
    (o.alternatives.mapM (FilterOption.read .alternative)).bind fun alternatives =>
      (o.integers.mapM (FilterOption.read .integer)).map fun integers =>
        required ++ alternatives ++ integers) = _ ↔ _
  simp only [bind_eq_ok_iff, map_eq_ok_iff, hread]
  constructor
  · rintro ⟨required, hrequired, alternatives, halternatives, integers, hintegers, h⟩
    exact ⟨required, alternatives, integers, hrequired, halternatives, hintegers, h⟩
  · rintro ⟨required, alternatives, integers, hrequired, halternatives, hintegers, h⟩
    exact ⟨required, hrequired, alternatives, halternatives, integers, hintegers, h⟩

end SearchOptions

/-! ## 5. The search -/

namespace Filter

/-- The expression of some clauses, of which there may be none. -/
def joined (clauses : List String) : List String :=
  if clauses.isEmpty then [] else [String.intercalate "+" clauses]

theorem asked_append (bucket : Conjunction) (cs ds : List Condition) :
    (Filter.mk (cs ++ ds)).asked bucket =
      (Filter.mk cs).asked bucket ++ (Filter.mk ds).asked bucket :=
  List.filter_append cs ds

/-- Of conditions that ask for something and are all in one bucket, this bucket has all and the
other has none. -/
theorem asked_of_forall {own : Conjunction} {cs : List Condition}
    (h : ∀ c ∈ cs, c.conjunction = own ∧ c.isVoid = false) (bucket : Conjunction) :
    (Filter.mk cs).asked bucket = if bucket = own then cs else [] := by
  split
  · rename_i hsame
    exact List.filter_eq_self.mpr fun c hc => by simp [h c hc, hsame]
  · rename_i hother
    exact asked_eq_nil_iff.mpr fun c hc hbucket => absurd (hbucket.symm.trans (h c hc).1) hother

/-- Conditions that ask for something, those of one bucket in front of those of the other, all have
their place in the expression. -/
theorem compile_append {ands ors : List Condition}
    (hand : ∀ c ∈ ands, c.conjunction = .and ∧ c.isVoid = false)
    (hor : ∀ c ∈ ors, c.conjunction = .or ∧ c.isVoid = false) :
    (Filter.mk (ands ++ ors)).compile.toList =
      joined ((andClause (ands.map Condition.fragment)).toList ++
        (orClause (ors.map Condition.fragment)).toList) := by
  have hands : (Filter.mk (ands ++ ors)).asked .and = ands := by
    rw [asked_append, asked_of_forall hand, asked_of_forall hor, if_pos rfl, if_neg (by decide),
      List.append_nil]
  have hors : (Filter.mk (ands ++ ors)).asked .or = ors := by
    rw [asked_append, asked_of_forall hand, asked_of_forall hor, if_pos rfl, if_neg (by decide),
      List.nil_append]
  rw [compile, buckets_eq, hands, hors, joined]
  dsimp only
  split
  · rfl
  · rfl

end Filter

/-- The search asks for what the filters and the rank of the options say.  Each filter has its
condition, in the order of the filters.  The request has those that have to hold in one clause and
all others behind it, unless a raw query stands there instead, and the rank as it was written. -/
structure Search.Follows (o : SearchOptions) (q : Search)
    (required alternatives integers : List Condition) : Prop where
  of_required : List.Forall₂ FilterOption.required.Asks o.required required
  of_alternatives : List.Forall₂ FilterOption.alternative.Asks o.alternatives alternatives
  of_integers : List.Forall₂ FilterOption.integer.Asks o.integers integers
  conditions : q.filter.conditions = required ++ alternatives ++ integers
  expression : o.raw = none → Query.valuesOf "bq" q.queryString =
    Filter.joined ((Filter.andClause (required.map Condition.fragment)).toList ++
      (Filter.orClause ((alternatives ++ integers).map Condition.fragment)).toList)
  order : q.order.map Search.rankParam = o.rank.map fun rank => "rank=" ++ Text.escape rank
  rank : o.raw = none → Query.valuesOf "rank" q.queryString = (o.rank.map Text.escape).toList

namespace Invocation

theorem searchOf_ok_iff {o : SearchOptions} {q : Search} :
    searchOf o = .ok q ↔ o.toSearch hitSchema.names = .ok q := mapError_eq_ok_iff

/-- Whatever becomes a search follows the options. -/
theorem follows_of_searchOf {o : SearchOptions} {q : Search} (h : searchOf o = .ok q) :
    ∃ required alternatives integers, Search.Follows o q required alternatives integers := by
  obtain ⟨conditions, hconditions, rfl⟩ := map_eq_ok_iff.mp (searchOf_ok_iff.mp h)
  obtain ⟨required, alternatives, integers, hrequired, halternatives, hintegers, rfl⟩ :=
    SearchOptions.conditions_ok_iff.mp hconditions
  refine ⟨required, alternatives, integers, hrequired, halternatives, hintegers, rfl, ?expression,
    ?order, ?rank⟩
  case expression =>
    intro hplain
    rw [Search.valuesOf_queryString (by exact hplain)]
    dsimp only
    rw [List.append_assoc]
    refine Filter.compile_append (FilterOption.place_of_mem hrequired) fun c hc => ?_
    rcases List.mem_append.mp hc with hc | hc
    · exact FilterOption.place_of_mem halternatives c hc
    · exact FilterOption.place_of_mem hintegers c hc
  case order =>
    rw [Option.map_map]
    refine Option.map_congr fun rank _ => ?_
    rw [Function.comp_apply, Search.rankParam_eq, Order.text_ofText]
    rfl
  case rank =>
    intro hplain
    rw [Search.valuesOf_rank_queryString (by exact hplain), Option.map_map]
    simp only [Function.comp_def, Order.text_ofText]

/-- A raw query is taken along and changes nothing else. -/
theorem searchOf_raw (o : SearchOptions) (raw : Option String) :
    searchOf { o with raw } = (searchOf o).map fun q => { q with raw } := by
  have hconditions : ({ o with raw } : SearchOptions).conditions = o.conditions := rfl
  unfold searchOf SearchOptions.toSearch
  rw [hconditions]
  cases o.conditions <;> rfl

theorem searchOf_error_iff {o : SearchOptions} {f : Failure} :
    searchOf o = .error f ↔ ∃ fault, o.conditions = .error fault ∧ fault.failure = f := by
  rw [searchOf, mapError_eq_error_iff]
  simp only [SearchOptions.toSearch, map_eq_error_iff]

/-- The options give a search exactly when each of their filters asks for something. -/
theorem exists_searchOf_eq_ok_iff (o : SearchOptions) :
    (∃ q, searchOf o = .ok q) ↔ ∀ given ∈ o.filters, ∃ c, given.1.Asks given.2 c := by
  simp only [searchOf_ok_iff, SearchOptions.toSearch, map_eq_ok_iff]
  rw [← exists_comm]
  simp only [exists_and_left, exists_eq', and_true]
  rw [SearchOptions.conditions_eq_mapM, exists_mapM_eq_ok_iff]
  simp only [FilterOption.read_ok_iff]

/-- **The filters of a command line become the conditions that they ask for.**  The options give a
search exactly when each of their filters asks for something, and the search follows them.
Otherwise they fail for the reason of the first filter that asks for nothing, those of one option
coming before those of the next.  A raw query changes nothing of this. -/
theorem searchOf_exact (o : SearchOptions) :
    ((∃ q, searchOf o = .ok q) ↔ ∀ given ∈ o.filters, ∃ c, given.1.Asks given.2 c) ∧
    (∀ q, searchOf o = .ok q →
      ∃ required alternatives integers, Search.Follows o q required alternatives integers) ∧
    (∀ f, searchOf o = .error f ↔
      ∃ before option filter after, o.filters = before ++ (option, filter) :: after ∧
        (∀ given ∈ before, ∃ c, given.1.Asks given.2 c) ∧ option.Refuses filter f) ∧
    ∀ raw, searchOf { o with raw } = (searchOf o).map fun q => { q with raw } := by
  refine ⟨exists_searchOf_eq_ok_iff o, fun q => follows_of_searchOf, ?fails, searchOf_raw o⟩
  case fails =>
    intro f
    simp only [searchOf_error_iff, SearchOptions.conditions_eq_mapM, mapM_eq_error_iff,
      FilterOption.read_ok_iff]
    constructor
    · rintro ⟨fault, ⟨before, given, after, hfilters, hbefore, hfault⟩, hf⟩
      exact ⟨before, given.1, given.2, after, hfilters, hbefore,
        FilterOption.read_error_iff.mp ⟨fault, hfault, hf⟩⟩
    · rintro ⟨before, option, filter, after, hfilters, hbefore, hrefuses⟩
      obtain ⟨fault, hfault, hf⟩ := FilterOption.read_error_iff.mpr hrefuses
      exact ⟨fault, ⟨before, (option, filter), after, hfilters, hbefore, hfault⟩, hf⟩

/-- A genre with an equals sign in it, a year between two others, and a rating. -/
def recent : SearchOptions :=
  { SearchOptions.none with
    required := [" genre =Sci-Fi=1"]
    alternatives := ["genre=Drama"]
    integers := ["year=2000..2004", "rating= +5"]
    rank := some "-year" }

/-- A range without bounds, in front of a filter without a value. -/
def endless : SearchOptions :=
  { recent with
    integers := ["year=..", "rating"]
    raw := some "q=star" }

theorem searchOf_exact_recent :
    (∃ q, searchOf recent = .ok q ∧
      (∃ required alternatives integers, Search.Follows recent q required alternatives integers) ∧
      Query.valuesOf "bq" q.queryString = ["(and+genre%3A'Sci-Fi%3D1')+" ++
        "(and+(or+genre%3A'Drama')+(or+year%3A2000..2004)+(or+rating%3A5))"] ∧
      Query.valuesOf "rank" q.queryString = ["-year"]) ∧
    ∃ before option filter after, endless.filters = before ++ (option, filter) :: after ∧
      option.Refuses filter ⟨.invalidRange, "at least one of from/to must be set"⟩ := by
  obtain ⟨-, hfollows, -, -⟩ := searchOf_exact recent
  obtain ⟨-, -, hfails, -⟩ := searchOf_exact endless
  obtain ⟨before, option, filter, after, hfilters, -, hrefuses⟩ := (hfails _).mp rfl
  obtain ⟨required, alternatives, integers, hsearch⟩ := hfollows _ rfl
  exact ⟨⟨_, rfl, ⟨required, alternatives, integers, hsearch⟩,
    (Search.valuesOf_queryString rfl).trans (by decide),
    (hsearch.rank rfl).trans (by decide)⟩, before, option, filter, after, hfilters, hrefuses⟩

end Invocation

end DocSearch
