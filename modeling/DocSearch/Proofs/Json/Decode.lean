/-
# Values behind JSON texts

A value is read from a text in two steps: the text becomes a tree, and a reader makes the value of
the tree.  `Says` is what a tree has to be for the text to give a value: as long as the text nests
no deeper than a text may, the reader gets the value.  An exact tree is what its own text becomes,
so only the second step is left to the readers (`says_of_isExact`).

The rest is about readers of scalars, of arrays and of the fields of a record, some of which may
have been left out.

Main statements: `says_of_isExact`, `isReadable_of_isExact`, `optional_keep`.
-/
import Mathlib.Data.List.Forall2
import DocSearch.Json.Record
import DocSearch.Proofs.Json.Members
import DocSearch.Proofs.Json.RoundTrip

namespace DocSearch
namespace Json

/-! ## 1. Texts -/

variable {α : Type}

/-- The value of a text, if the reader makes one of its tree. -/
def decode (ofJson : Json → Option α) (text : String) : Option α :=
  (read text).toOption.bind ofJson

/-- The text of a tree gives a value, unless it nests too deep to be read at all. -/
def Says (ofJson : Json → Option α) (j : Json) (a : α) : Prop :=
  j.nesting ≤ nestingLimit → decode ofJson j.compact = some a

theorem says_of_isExact {ofJson : Json → Option α} {j : Json} {a : α} (h : IsExact j)
    (hread : ofJson j = some a) : Says ofJson j a := by
  intro hdepth
  rw [decode, read, readWithin_compact h hdepth]
  exact hread

theorem areItemsReadable_iff {items : List Json} :
    areItemsReadable items = true ↔ ∀ item ∈ items, item.isReadable = true := by
  induction items with
  | nil => simp [areItemsReadable]
  | cons item items ih => simp [areItemsReadable, ih]

theorem areMembersReadable_iff {members : List (String × Json)} :
    areMembersReadable members = true ↔ ∀ member ∈ members, member.2.isReadable = true := by
  induction members with
  | nil => simp [areMembersReadable]
  | cons member members ih => simp [areMembersReadable, ih]

/-- An exact value has nothing unreadable in it. -/
theorem isReadable_of_isExact {j : Json} (h : IsExact j) : j.isReadable = true := by
  induction h with
  | null => rfl
  | bool b => rfl
  | int hl hu => rfl
  | str s => rfl
  | arr _ ih =>
    rw [isReadable]
    exact areItemsReadable_iff.mpr ih
  | obj _ _ ih =>
    rw [isReadable]
    exact areMembersReadable_iff.mpr ih

/-! ## 2. Scalars and arrays -/

/-- A scalar: exact, and neither an array nor an object. -/
def IsFlat (j : Json) : Prop := IsExact j ∧ j.nesting = 0

theorem IsFlat.within {j : Json} (h : IsFlat j) (depth : Nat) :
    IsExact j ∧ j.nesting ≤ depth := by
  refine ⟨h.1, ?_⟩
  rw [h.2]
  exact Nat.zero_le depth

theorem isFlat_str (s : String) : IsFlat (.str s) := ⟨.str s, rfl⟩

theorem isFlat_int32 (n : Int32) : IsFlat (.int n.toInt) := by
  have hl := Int32.le_toInt n
  have hu := Int32.toInt_lt n
  exact ⟨.int (by omega) (by omega), rfl⟩

theorem isFlat_int64 (n : Int64) : IsFlat (.int n.toInt) := by
  have hl := Int64.le_toInt n
  have hu := Int64.toInt_lt n
  exact ⟨.int (by omega) (by omega), rfl⟩

theorem isFlat_uint32 (n : UInt32) : IsFlat (.int n.toNat) := by
  have h := n.toNat_lt
  exact ⟨.int (by omega) (by omega), rfl⟩

theorem isFlat_uint64 (n : UInt64) : IsFlat (.int n.toNat) := by
  have h := n.toNat_lt
  exact ⟨.int (by omega) (by omega), rfl⟩

/-- A list of scalars has one level. -/
theorem isExact_map {f : α → Json} (h : ∀ a, IsFlat (f a)) (values : List α) :
    IsExact (.arr (values.map f)) ∧ nesting (.arr (values.map f)) ≤ 1 := by
  have hitems : ∀ item ∈ values.map f, IsFlat item := by
    intro item hitem
    obtain ⟨a, -, rfl⟩ := List.mem_map.mp hitem
    exact h a
  refine ⟨.arr fun item hitem => (hitems item hitem).1, ?_⟩
  rw [nesting]
  exact Nat.succ_le_succ (itemsNesting_le_iff.mpr fun item hitem =>
    Nat.le_of_eq (hitems item hitem).2)

theorem int64?_toInt (n : Int64) : int64? (.int n.toInt) = some n := by
  have hrange : Int64.minValue.toInt ≤ n.toInt ∧ n.toInt ≤ Int64.maxValue.toInt :=
    ⟨Int64.minValue_le_toInt n, Int64.toInt_le n⟩
  rw [int64?, intWithin?, if_pos hrange, Option.map_some, Int64.ofInt_toInt]

/-- Nothing else is a 64-bit integer. -/
theorem int64?_eq_some_iff {j : Json} {n : Int64} : int64? j = some n ↔ j = .int n.toInt := by
  constructor
  · intro h
    obtain ⟨m, hm, rfl⟩ := Option.map_eq_some_iff.mp h
    unfold intWithin? at hm
    split at hm
    · split at hm
      · rename_i hrange
        obtain rfl := Option.some.inj hm
        rw [Int64.toInt_ofInt_of_le hrange.1 (Int.lt_of_le_of_lt hrange.2 (by decide))]
      · cases hm
    · cases hm
  · rintro rfl
    exact int64?_toInt n

theorem uint32?_toNat (n : UInt32) : uint32? (.int n.toNat) = some n := by
  have hrange : (0 : Int) ≤ n.toNat ∧ (n.toNat : Int) ≤ UInt32.size - 1 := by
    have h := n.toNat_lt
    simp only [UInt32.size]
    omega
  rw [uint32?, intWithin?, if_pos hrange, Option.map_some, Int.toNat_natCast, UInt32.ofNat_toNat]

theorem uint64?_toNat (n : UInt64) : uint64? (.int n.toNat) = some n := by
  have hrange : (0 : Int) ≤ n.toNat ∧ (n.toNat : Int) ≤ UInt64.size - 1 := by
    have h := n.toNat_lt
    simp only [UInt64.size]
    omega
  rw [uint64?, intWithin?, if_pos hrange, Option.map_some, Int.toNat_natCast, UInt64.ofNat_toNat]

/-- Nothing else is a 64-bit unsigned integer. -/
theorem uint64?_eq_some_iff {j : Json} {n : UInt64} : uint64? j = some n ↔ j = .int n.toNat := by
  constructor
  · intro h
    obtain ⟨m, hm, rfl⟩ := Option.map_eq_some_iff.mp h
    unfold intWithin? at hm
    split at hm
    · split at hm
      · rename_i k hrange
        obtain rfl := Option.some.inj hm
        have hlt : k.toNat < UInt64.size := by omega
        rw [UInt64.toNat_ofNat_of_lt' hlt, Int.toNat_of_nonneg hrange.1]
      · cases hm
    · cases hm
  · rintro rfl
    exact uint64?_toNat n

/-- An array is read item by item. -/
theorem listOf?_map {toJson : α → Json} {ofJson : Json → Option α} {values : List α}
    (h : ∀ a ∈ values, ofJson (toJson a) = some a) :
    listOf? ofJson (.arr (values.map toJson)) = some values :=
  Text.mapM_map_eq_some h

/-- A field that may be left out is its fallback, or what is read of it: two cases for whatever is
said about it. -/
theorem optional_eq_some_iff {β : Type} {read : α → Option β} {fallback b : β} {name : String}
    {given : List (String × α)} {P : Prop}
    (missing : given.lookup name = none → (fallback = b ↔ P))
    (present : ∀ part, given.lookup name = some part → (read part = some b ↔ P)) :
    optional read fallback name given = some b ↔ P := by
  unfold optional
  cases h : given.lookup name with
  | none =>
    rw [Option.some.injEq]
    exact missing h
  | some part => exact present part h

/-- Reading one after the other gives a list exactly when each reading gives its item. -/
theorem mapM_eq_some_iff {β : Type} {read : β → Option α} {parts : List β} {values : List α} :
    parts.mapM read = some values ↔
      List.Forall₂ (fun part a => read part = some a) parts values := by
  constructor
  · intro h
    induction parts generalizing values with
    | nil =>
      obtain rfl := Option.some.inj h
      exact .nil
    | cons part parts ih =>
      simp only [List.mapM_cons, Option.bind_eq_bind, Option.bind_eq_some_iff,
        Option.pure_def] at h
      obtain ⟨a, ha, rest, hrest, he⟩ := h
      obtain rfl := Option.some.inj he
      exact .cons ha (ih hrest)
  · intro h
    induction h with
    | nil => rfl
    | cons hpart _ ih =>
      rw [List.mapM_cons, hpart, ih]
      rfl

theorem listOf?_forall₂ {ofJson : Json → Option α} {items : List Json} {values : List α}
    (h : List.Forall₂ (fun item a => ofJson item = some a) items values) :
    listOf? ofJson (.arr items) = some values :=
  mapM_eq_some_iff.mpr h

/-! ## 3. Records -/

/-- A record that has all its fields and no others, each once. -/
theorem fields?_all (d : Dialect) (names : List String) (members : List (String × Json))
    (hnames : members.map (·.1) = names) (honce : names.Nodup) :
    (Record.named members).fields? d names 0 = some members := by
  subst hnames
  exact fields?_named (d := d) (fun member hmember => List.mem_map_of_mem hmember) honce

/-- The reader of records wants the known names to differ, which is to say that each of them stands
once at most. -/
theorem nodup_known_iff {names : List String} {members : List (String × Json)} :
    ((members.filter fun member => decide (member.1 ∈ names)).map (·.1)).Nodup ↔
      ∀ name ∈ names, (members.map (·.1)).count name ≤ 1 := by
  have hfilter : (members.filter fun member => decide (member.1 ∈ names)).map (·.1)
      = (members.map (·.1)).filter fun name => decide (name ∈ names) := by
    rw [List.filter_map]
    rfl
  rw [hfilter, List.nodup_iff_count]
  constructor
  · intro h name hname
    have hcount := h name
    rwa [List.count_filter (by simpa using hname)] at hcount
  · intro h name
    by_cases hname : name ∈ names
    · rw [List.count_filter (by simpa using hname)]
      exact h name hname
    · rw [List.count_eq_zero.mpr fun hm => hname (by simpa using (List.mem_filter.mp hm).2)]
      exact Nat.zero_le 1

theorem isExact_all {members : List (String × Json)} (names : List String)
    (hnames : members.map (·.1) = names) (honce : names.Nodup)
    (h : ∀ member ∈ members, IsExact member.2) : IsExact (.obj members) := by
  subst hnames
  exact .obj honce h

/-- Members nest no deeper than others of which each has one that is as deep. -/
theorem membersNesting_le {members written : List (String × Json)}
    (h : ∀ member ∈ members, ∃ full ∈ written, member.2.nesting ≤ full.2.nesting) :
    membersNesting members ≤ membersNesting written := by
  have hwritten := membersNesting_le_iff.mp (Nat.le_refl (membersNesting written))
  refine membersNesting_le_iff.mpr fun member hmember => ?_
  obtain ⟨full, hfull, hle⟩ := h member hmember
  exact Nat.le_trans hle (hwritten full hfull)

/-! ## 4. Fields that may be left out -/

/-- The members whose key is kept. -/
def keep (kept : String → Bool) (members : List (String × Json)) : List (String × Json) :=
  members.filter fun member => kept member.1

variable {β γ : Type} {kept : String → Bool} {members : List (String × Json)} {key : String}
  {j : Json} {f : β → Option γ} {c : γ}

theorem keep_sublist (kept : String → Bool) (members : List (String × Json)) :
    (keep kept members).Sublist members :=
  List.filter_sublist

theorem keep_all (members : List (String × Json)) : keep (fun _ => true) members = members :=
  List.filter_eq_self.mpr fun _ _ => rfl

theorem lookup_keep :
    (keep kept members).lookup key = if kept key then members.lookup key else none := by
  split
  · next h => exact lookup_filter_keys h
  · next h =>
    rw [List.lookup_eq_none_iff]
    intro member hmember
    have hkept := (List.mem_filter.mp hmember).2
    rw [bne_iff_ne]
    rintro rfl
    exact h hkept

/-- A field that is kept is read as it was written. -/
theorem required_keep (part : Json → β) (hkept : kept key = true) (hj : members.lookup key = some j)
    (hf : f (part j) = some c) :
    required f key ((keep kept members).map fun member => (member.1, part member.2)) = some c := by
  rw [required, lookup_map_values, lookup_keep, if_pos hkept, hj]
  exact hf

/-- A field that is not kept is read as its fallback, which has to be what was written. -/
theorem optional_keep (part : Json → β) {fallback : γ} (hj : members.lookup key = some j)
    (hf : f (part j) = some c) (hleft : kept key = false → fallback = c) :
    optional f fallback key ((keep kept members).map fun member => (member.1, part member.2))
      = some c := by
  rw [optional, lookup_map_values, lookup_keep]
  cases hkept : kept key with
  | true =>
    rw [if_pos rfl, hj]
    exact hf
  | false =>
    rw [if_neg (by simp), hleft hkept]
    rfl

end Json
end DocSearch
