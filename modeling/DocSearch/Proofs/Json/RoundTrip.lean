/-
# JSON values read back

The compact text of a value is read as that value, as long as the text says everything about it.
What it may not say: which double a decimal stands for (so doubles are left out here), and what an
object held before its repeated keys were settled.  That is `IsExact`.  The reader further holds a
limited number of levels; `nesting` counts those of a value.

The reader and the writer recurse in the same way, so one induction on the reader's fuel proves
the statement for values, items and members together (`reads`).  A value takes two steps at most
for each character of its text.

Main statements: `readWithin_compact`, `settle_eq_self`, `parse_compact`.
-/
import DocSearch.Proofs.Json.Scalar

namespace DocSearch
namespace Json

/-! ## 1. Exact values and their nesting -/

/-- A value that its text determines: integers of 64 bits, no doubles, and each key of an object
once. -/
inductive IsExact : Json → Prop where
  | null : IsExact .null
  | bool (b : Bool) : IsExact (.bool b)
  | int {n : Int} (hl : -9223372036854775808 ≤ n) (hu : n < 18446744073709551616) :
      IsExact (.int n)
  | str (s : String) : IsExact (.str s)
  | arr {items : List Json} (h : ∀ item ∈ items, IsExact item) : IsExact (.arr items)
  | obj {members : List (String × Json)} (once : (members.map (·.1)).Nodup)
      (h : ∀ member ∈ members, IsExact member.2) : IsExact (.obj members)

mutual

/-- How many levels of arrays and objects a value has. -/
def nesting : Json → Nat
  | .arr items => itemsNesting items + 1
  | .obj members => membersNesting members + 1
  | _ => 0

/-- The greatest nesting of an item. -/
def itemsNesting : List Json → Nat
  | [] => 0
  | item :: items => max (nesting item) (itemsNesting items)

/-- The greatest nesting of a member. -/
def membersNesting : List (String × Json) → Nat
  | [] => 0
  | member :: members => max (nesting member.2) (membersNesting members)

end

theorem itemsNesting_le_iff {items : List Json} {depth : Nat} :
    itemsNesting items ≤ depth ↔ ∀ item ∈ items, item.nesting ≤ depth := by
  induction items with
  | nil => simp [itemsNesting]
  | cons item items ih =>
    simp only [itemsNesting, Nat.max_le, List.mem_cons, forall_eq_or_imp, ih]

theorem membersNesting_le_iff {members : List (String × Json)} {depth : Nat} :
    membersNesting members ≤ depth ↔ ∀ member ∈ members, member.2.nesting ≤ depth := by
  induction members with
  | nil => simp [membersNesting]
  | cons member members ih =>
    simp only [membersNesting, Nat.max_le, List.mem_cons, forall_eq_or_imp, ih]

/-! ## 2. The characters of a written value -/

/-- The characters of the items of an array. -/
def itemsText (items : List Json) : List Char :=
  (String.intercalate "," (compactItems items)).toList

/-- The characters of the members of an object. -/
def membersText (members : List (String × Json)) : List Char :=
  (String.intercalate "," (compactMembers members)).toList

theorem itemsText_singleton (item : Json) : itemsText [item] = item.compact.toList := by
  simp [itemsText, compactItems]

theorem itemsText_cons_cons (item next : Json) (items : List Json) :
    itemsText (item :: next :: items) =
      item.compact.toList ++ ',' :: itemsText (next :: items) := by
  simp [itemsText, compactItems, String.intercalate_cons_cons]

theorem membersText_singleton (member : String × Json) :
    membersText [member] = (quoted member.1).toList ++ ':' :: member.2.compact.toList := by
  simp [membersText, compactMembers]

theorem membersText_cons_cons (member next : String × Json) (members : List (String × Json)) :
    membersText (member :: next :: members) =
      (quoted member.1).toList ++ ':' :: (member.2.compact.toList ++
        ',' :: membersText (next :: members)) := by
  simp [membersText, compactMembers, String.intercalate_cons_cons]

theorem toList_compact_arr (items : List Json) :
    (compact (.arr items)).toList = '[' :: (itemsText items ++ [']']) := by
  simp [compact, itemsText]

theorem toList_compact_obj (members : List (String × Json)) :
    (compact (.obj members)).toList = '\x7b' :: (membersText members ++ ['\x7d']) := by
  simp [compact, membersText]

theorem isGap_of_isDigit {c : Char} (h : c.isDigit = true) : isGap c = false := by
  have hspace := Decimal.ne_of_isDigit (d := ' ') h (by decide)
  have htab := Decimal.ne_of_isDigit (d := '\t') h (by decide)
  have hline := Decimal.ne_of_isDigit (d := '\n') h (by decide)
  have hreturn := Decimal.ne_of_isDigit (d := '\r') h (by decide)
  simp [isGap, hspace, htab, hline, hreturn]

/-- What a written value begins with: no blank, and no closing bracket. -/
theorem exists_compact_eq_cons {j : Json} (h : IsExact j) :
    ∃ c cs, j.compact.toList = c :: cs ∧ isGap c = false ∧ c ≠ ']' := by
  cases h with
  | null => exact ⟨'n', ['u', 'l', 'l'], by simp [compact], by decide, by decide⟩
  | bool b =>
    cases b with
    | false => exact ⟨'f', ['a', 'l', 's', 'e'], by simp [compact], by decide, by decide⟩
    | true => exact ⟨'t', ['r', 'u', 'e'], by simp [compact], by decide, by decide⟩
  | @int n hl hu =>
    obtain ⟨c, cs, hcs, hc⟩ := exists_ofInt_eq_cons n
    rw [compact]
    rcases hc with rfl | hc
    · exact ⟨'-', cs, hcs, by decide, by decide⟩
    · exact ⟨c, cs, hcs, isGap_of_isDigit hc, Decimal.ne_of_isDigit hc (by decide)⟩
  | str s => exact ⟨'"', _, toList_quoted s, by decide, by decide⟩
  | @arr items h => exact ⟨'[', _, toList_compact_arr items, by decide, by decide⟩
  | @obj members once h => exact ⟨'\x7b', _, toList_compact_obj members, by decide, by decide⟩

/-- Items begin as the first of them does. -/
theorem exists_itemsText_eq_cons {item : Json} (h : IsExact item) (items : List Json) :
    ∃ c cs, itemsText (item :: items) = c :: cs ∧ isGap c = false ∧ c ≠ ']' := by
  obtain ⟨c, cs, hcs, hgap, hc⟩ := exists_compact_eq_cons h
  cases items with
  | nil => exact ⟨c, cs, by rw [itemsText_singleton, hcs], hgap, hc⟩
  | cons next items =>
    exact ⟨c, cs ++ ',' :: itemsText (next :: items), by rw [itemsText_cons_cons, hcs]; rfl,
      hgap, hc⟩

/-- Members begin with the quote of the first key. -/
theorem exists_membersText_eq_cons (member : String × Json) (members : List (String × Json)) :
    ∃ cs, membersText (member :: members) = '"' :: cs := by
  cases members with
  | nil => exact ⟨_, by rw [membersText_singleton, toList_quoted, List.cons_append]⟩
  | cons next members =>
    exact ⟨_, by rw [membersText_cons_cons, toList_quoted, List.cons_append]⟩

theorem skipGap_of_stop {cs : List Char} (h : Text.StopsAt isGap cs) : skipGap cs = cs := by
  cases cs with
  | nil => rfl
  | cons c cs => simp [skipGap, h c rfl]

theorem stopsAt_compact {j : Json} (h : IsExact j) (rest : List Char) :
    Text.StopsAt isGap (j.compact.toList ++ rest) := by
  obtain ⟨c, cs, hcs, hgap, -⟩ := exists_compact_eq_cons h
  rw [hcs]
  exact Text.stopsAt_cons hgap

/-! ## 3. The steps of the reader -/

section Steps

variable {fuel depth : Nat} {cs rest : List Char}

/-- A number is read as the scan of numbers reads it. -/
theorem readValue_numeral {c : Char} (h : c = '-' ∨ c.isDigit = true) :
    readValue (fuel + 1) depth (c :: cs) =
      (scanNumeral (c :: cs)).map fun found => (found.1.value, found.2) := by
  have hne : ∀ d : Char, d ≠ '-' → d.isDigit = false → c ≠ d := by
    intro d hd hdd
    rcases h with rfl | hc
    · exact fun e => hd e.symm
    · exact Decimal.ne_of_isDigit hc hdd
  rw [readValue, if_pos h]
  · exact fun e => hne '"' (by decide) (by decide) e
  · exact fun e => hne '[' (by decide) (by decide) e
  · exact fun e => hne '\x7b' (by decide) (by decide) e
  · exact fun e => hne 't' (by decide) (by decide) e
  · exact fun e => hne 'f' (by decide) (by decide) e
  · exact fun e => hne 'n' (by decide) (by decide) e

/-- Behind an opening bracket stand items, unless the array is empty. -/
theorem readValue_bracket {items : List Json} (hdepth : 0 < depth) (hgap : Text.StopsAt isGap cs)
    (hfirst : cs.head? ≠ some ']') (hne : cs ≠ [])
    (h : readItems fuel (depth - 1) cs = .ok (items, rest)) :
    readValue (fuel + 1) depth ('[' :: cs) = .ok (.arr items, rest) := by
  rw [readValue, skipGap_of_stop hgap]
  cases cs with
  | nil => exact absurd rfl hne
  | cons c cs =>
    have hc : c ≠ ']' := fun e => hfirst (by rw [e]; rfl)
    simp [hc, h, Except.map, Nat.ne_of_gt hdepth]

/-- Behind an opening brace stand members, unless the object is empty. -/
theorem readValue_brace {members : List (String × Json)} (hdepth : 0 < depth)
    (h : readMembers fuel (depth - 1) ('"' :: cs) =
      .ok (members.map fun member => (some member.1, member.2), rest)) :
    readValue (fuel + 1) depth ('\x7b' :: '"' :: cs) = .ok (.obj members, rest) := by
  rw [readValue, skipGap_of_stop (Text.stopsAt_cons (by decide))]
  simp [h, Except.map, Nat.ne_of_gt hdepth, ofMembers, Function.comp_def]

/-- The last item of an array. -/
theorem readItems_last {item : Json} (h : readValue fuel depth cs = .ok (item, ']' :: rest)) :
    readItems (fuel + 1) depth cs = .ok ([item], rest) := by
  rw [readItems, h]
  simp only [skipGap_of_stop (Text.stopsAt_cons (p := isGap) (c := ']') (by decide))]

/-- An item with others behind it. -/
theorem readItems_more {item : Json} {items : List Json} {more : List Char}
    (h : readValue fuel depth cs = .ok (item, ',' :: more)) (hgap : Text.StopsAt isGap more)
    (hfirst : more.head? ≠ some ']') (hmore : readItems fuel depth more = .ok (items, rest)) :
    readItems (fuel + 1) depth cs = .ok (item :: items, rest) := by
  rw [readItems, h]
  simp only [skipGap_of_stop (Text.stopsAt_cons (p := isGap) (c := ',') (by decide)),
    skipGap_of_stop hgap, afterComma, if_neg hfirst, hmore, Except.map]

/-- A key and its colon. -/
theorem scanKey_quoted (key : String) (hgap : Text.StopsAt isGap cs) :
    scanKey ((quoted key).toList ++ ':' :: cs) = .ok (some key, cs) := by
  have hscan : scanString (key.toList.flatMap escapeChar ++ '"' :: ':' :: cs) =
      .ok (some key, ':' :: cs) := scanString_quoted key (':' :: cs)
  rw [toList_quoted]
  simp only [List.cons_append, List.append_assoc, List.nil_append, scanKey, hscan, Except.bind,
    skipGap_of_stop (Text.stopsAt_cons (p := isGap) (c := ':') (by decide)), skipGap_of_stop hgap]

/-- The last member of an object. -/
theorem readMembers_last {key : String} {value : Json} (hgap : Text.StopsAt isGap cs)
    (h : readValue fuel depth cs = .ok (value, '\x7d' :: rest)) :
    readMembers (fuel + 1) depth ((quoted key).toList ++ ':' :: cs) =
      .ok ([(some key, value)], rest) := by
  rw [readMembers, scanKey_quoted key hgap]
  simp only [h, skipGap_of_stop (Text.stopsAt_cons (p := isGap) (c := '\x7d') (by decide))]

/-- A member with others behind it. -/
theorem readMembers_more {key : String} {value : Json} {members : List (Option String × Json)}
    {more : List Char} (hgap : Text.StopsAt isGap cs)
    (h : readValue fuel depth cs = .ok (value, ',' :: '"' :: more))
    (hmore : readMembers fuel depth ('"' :: more) = .ok (members, rest)) :
    readMembers (fuel + 1) depth ((quoted key).toList ++ ':' :: cs) =
      .ok ((some key, value) :: members, rest) := by
  have hquote : afterComma '\x7d' ('"' :: more) = .ok ('"' :: more) := if_neg (by simp)
  rw [readMembers, scanKey_quoted key hgap]
  simp only [h, skipGap_of_stop (Text.stopsAt_cons (p := isGap) (c := ',') (by decide)),
    skipGap_of_stop (Text.stopsAt_cons (p := isGap) (c := '"') (by decide)), hquote, hmore,
    Except.map]

end Steps

/-! ## 4. Values read back -/

/-- What the reader gets back within `fuel` steps: a value that does not run into what follows,
and the items or members up to their closing bracket. -/
structure Reads (fuel : Nat) : Prop where
  value : ∀ {j : Json} {depth : Nat} {rest : List Char}, IsExact j → j.nesting ≤ depth →
    2 * j.compact.toList.length ≤ fuel + 1 → Text.StopsAt isNumeralChar rest →
    readValue fuel depth (j.compact.toList ++ rest) = .ok (j, rest)
  items : ∀ {items : List Json} {depth : Nat} {rest : List Char}, items ≠ [] →
    (∀ item ∈ items, IsExact item) → itemsNesting items ≤ depth →
    2 * (itemsText items).length ≤ fuel →
    readItems fuel depth (itemsText items ++ ']' :: rest) = .ok (items, rest)
  members : ∀ {members : List (String × Json)} {depth : Nat} {rest : List Char}, members ≠ [] →
    (∀ member ∈ members, IsExact member.2) → membersNesting members ≤ depth →
    2 * (membersText members).length ≤ fuel →
    readMembers fuel depth (membersText members ++ '\x7d' :: rest) =
      .ok (members.map fun member => (some member.1, member.2), rest)

/-- No text is short enough for no steps at all. -/
theorem reads_zero : Reads 0 where
  value := by
    intro j depth rest hj _ hfuel _
    obtain ⟨c, cs, hcs, -, -⟩ := exists_compact_eq_cons hj
    rw [hcs, List.length_cons] at hfuel
    omega
  items := by
    intro items depth rest hne hitems _ hfuel
    obtain ⟨item, items, rfl⟩ := List.exists_cons_of_ne_nil hne
    obtain ⟨c, cs, hcs, -, -⟩ := exists_itemsText_eq_cons (hitems item List.mem_cons_self) items
    rw [hcs, List.length_cons] at hfuel
    omega
  members := by
    intro members depth rest hne _ _ hfuel
    obtain ⟨member, members, rfl⟩ := List.exists_cons_of_ne_nil hne
    obtain ⟨cs, hcs⟩ := exists_membersText_eq_cons member members
    rw [hcs, List.length_cons] at hfuel
    omega

section Step

variable {fuel : Nat}

/-- A value is read from what its parts are read from. -/
theorem Reads.value_succ (ih : Reads fuel) {j : Json} {depth : Nat} {rest : List Char}
    (hj : IsExact j) (hdepth : j.nesting ≤ depth)
    (hfuel : 2 * j.compact.toList.length ≤ fuel + 2) (hrest : Text.StopsAt isNumeralChar rest) :
    readValue (fuel + 1) depth (j.compact.toList ++ rest) = .ok (j, rest) := by
  cases hj with
  | null => simp [compact, readValue, scanWord, Except.map]
  | bool b => cases b <;> simp [compact, readValue, scanWord, Except.map]
  | @int n hl hu =>
    obtain ⟨numeral, hscan, hvalue⟩ := scanNumeral_ofInt hl hu hrest
    obtain ⟨c, cs, hcs, hc⟩ := exists_ofInt_eq_cons n
    rw [compact]
    rw [hcs, List.cons_append] at hscan ⊢
    rw [readValue_numeral hc, hscan]
    simp [Except.map, hvalue]
  | str s =>
    have hscan := scanString_quoted s rest
    rw [compact, toList_quoted]
    simp [readValue, hscan, Except.map]
  | @arr items hitems =>
    rw [nesting] at hdepth
    rw [toList_compact_arr] at hfuel ⊢
    simp only [List.length_cons, List.length_append, List.length_nil] at hfuel
    cases items with
    | nil =>
      have hpos : depth ≠ 0 := by omega
      simp [itemsText, compactItems, readValue, skipGap, isGap, hpos]
    | cons item items =>
      obtain ⟨c, cs, hcs, hgap, hc⟩ :=
        exists_itemsText_eq_cons (hitems item List.mem_cons_self) items
      have hread : readItems fuel (depth - 1) (itemsText (item :: items) ++ ']' :: rest) =
          .ok (item :: items, rest) :=
        ih.items (by simp) hitems (by omega) (by omega)
      rw [hcs] at hread
      rw [hcs]
      simp only [List.cons_append, List.append_assoc, List.nil_append] at hread ⊢
      exact readValue_bracket (by omega) (Text.stopsAt_cons hgap)
        (by simpa using hc) (by simp) hread
  | @obj members once hmembers =>
    rw [nesting] at hdepth
    rw [toList_compact_obj] at hfuel ⊢
    simp only [List.length_cons, List.length_append, List.length_nil] at hfuel
    cases members with
    | nil =>
      have hpos : depth ≠ 0 := by omega
      simp [membersText, compactMembers, readValue, skipGap, isGap, hpos]
    | cons member members =>
      obtain ⟨cs, hcs⟩ := exists_membersText_eq_cons member members
      have hread : readMembers fuel (depth - 1)
          (membersText (member :: members) ++ '\x7d' :: rest) =
            .ok ((member :: members).map fun member => (some member.1, member.2), rest) :=
        ih.members (by simp) hmembers (by omega) (by omega)
      rw [hcs] at hread
      rw [hcs]
      simp only [List.cons_append, List.append_assoc, List.nil_append] at hread ⊢
      exact readValue_brace (by omega) hread

/-- Items are read from what one of them and the others are read from. -/
theorem Reads.items_succ (ih : Reads fuel) {items : List Json} {depth : Nat} {rest : List Char}
    (hne : items ≠ []) (hitems : ∀ item ∈ items, IsExact item)
    (hdepth : itemsNesting items ≤ depth) (hfuel : 2 * (itemsText items).length ≤ fuel + 1) :
    readItems (fuel + 1) depth (itemsText items ++ ']' :: rest) = .ok (items, rest) := by
  obtain ⟨item, items, rfl⟩ := List.exists_cons_of_ne_nil hne
  have hitem : IsExact item := hitems item List.mem_cons_self
  have hlevel : item.nesting ≤ depth := itemsNesting_le_iff.mp hdepth item List.mem_cons_self
  cases items with
  | nil =>
    rw [itemsText_singleton] at hfuel ⊢
    exact readItems_last (ih.value hitem hlevel hfuel (Text.stopsAt_cons (by decide)))
  | cons next items =>
    rw [itemsText_cons_cons] at hfuel ⊢
    rw [List.append_assoc, List.cons_append]
    simp only [List.length_append, List.length_cons] at hfuel
    have hothers : ∀ i ∈ next :: items, IsExact i := fun i hi =>
      hitems i (List.mem_cons_of_mem _ hi)
    have hlevels : itemsNesting (next :: items) ≤ depth := by
      rw [itemsNesting] at hdepth
      omega
    obtain ⟨c, cs, hcs, hgap, hc⟩ :=
      exists_itemsText_eq_cons (hothers next List.mem_cons_self) items
    have hmore : readItems fuel depth (itemsText (next :: items) ++ ']' :: rest) =
        .ok (next :: items, rest) :=
      ih.items (by simp) hothers hlevels (by omega)
    have hfirst : readValue fuel depth
        (item.compact.toList ++ ',' :: (itemsText (next :: items) ++ ']' :: rest)) =
          .ok (item, ',' :: (itemsText (next :: items) ++ ']' :: rest)) :=
      ih.value hitem hlevel (by omega) (Text.stopsAt_cons (by decide))
    refine readItems_more hfirst ?_ ?_ hmore
    · rw [hcs]
      exact Text.stopsAt_cons hgap
    · rw [hcs]
      simpa using hc

/-- Members are read from what one of them and the others are read from. -/
theorem Reads.members_succ (ih : Reads fuel) {members : List (String × Json)} {depth : Nat}
    {rest : List Char} (hne : members ≠ []) (hmembers : ∀ member ∈ members, IsExact member.2)
    (hdepth : membersNesting members ≤ depth)
    (hfuel : 2 * (membersText members).length ≤ fuel + 1) :
    readMembers (fuel + 1) depth (membersText members ++ '\x7d' :: rest) =
      .ok (members.map fun member => (some member.1, member.2), rest) := by
  obtain ⟨member, members, rfl⟩ := List.exists_cons_of_ne_nil hne
  have hvalue : IsExact member.2 := hmembers member List.mem_cons_self
  have hlevel : member.2.nesting ≤ depth :=
    membersNesting_le_iff.mp hdepth member List.mem_cons_self
  cases members with
  | nil =>
    rw [membersText_singleton] at hfuel ⊢
    rw [List.append_assoc, List.cons_append]
    simp only [List.length_append, List.length_cons] at hfuel
    exact readMembers_last (stopsAt_compact hvalue _)
      (ih.value hvalue hlevel (by omega) (Text.stopsAt_cons (by decide)))
  | cons next members =>
    rw [membersText_cons_cons] at hfuel ⊢
    simp only [List.append_assoc, List.cons_append]
    simp only [List.length_append, List.length_cons] at hfuel
    have hothers : ∀ m ∈ next :: members, IsExact m.2 := fun m hm =>
      hmembers m (List.mem_cons_of_mem _ hm)
    have hlevels : membersNesting (next :: members) ≤ depth := by
      rw [membersNesting] at hdepth
      omega
    obtain ⟨cs, hcs⟩ := exists_membersText_eq_cons next members
    have hmore : readMembers fuel depth (membersText (next :: members) ++ '\x7d' :: rest) =
        .ok ((next :: members).map fun member => (some member.1, member.2), rest) :=
      ih.members (by simp) hothers hlevels (by omega)
    have hfirst : readValue fuel depth
        (member.2.compact.toList ++ ',' :: (membersText (next :: members) ++ '\x7d' :: rest)) =
          .ok (member.2, ',' :: (membersText (next :: members) ++ '\x7d' :: rest)) :=
      ih.value hvalue hlevel (by omega) (Text.stopsAt_cons (by decide))
    rw [hcs, List.cons_append] at hmore hfirst ⊢
    exact readMembers_more (stopsAt_compact hvalue _) hfirst hmore

end Step

/-- **The reader gets back what the writer wrote**, with any fuel that the text does not exceed. -/
theorem reads (fuel : Nat) : Reads fuel := by
  induction fuel with
  | zero => exact reads_zero
  | succ fuel ih => exact ⟨ih.value_succ, ih.items_succ, ih.members_succ⟩

/-- **A compact text is read as the value it was written from**, within the limit on nesting. -/
theorem readWithin_compact {j : Json} {depth : Nat} (h : IsExact j) (hdepth : j.nesting ≤ depth) :
    readWithin depth j.compact = .ok j := by
  have hread : readValue (2 * j.compact.toList.length + 2) depth (j.compact.toList ++ []) =
      .ok (j, []) :=
    (reads _).value h hdepth (by omega) (Text.stopsAt_nil _)
  rw [List.append_nil] at hread
  have hgap : skipGap j.compact.toList = j.compact.toList := by
    have hstop := stopsAt_compact h []
    rw [List.append_nil] at hstop
    exact skipGap_of_stop hstop
  have hend : skipGap [] = [] := rfl
  simp only [readWithin, hgap, hread, hend]

/-! ## 5. Settled values -/

theorem put_of_notMem {name : String} {members : List (String × Json)}
    (h : name ∉ members.map (·.1)) (value : Json) :
    put name value members = members ++ [(name, value)] := by
  induction members with
  | nil => rfl
  | cons member members ih =>
    rw [List.map_cons, List.mem_cons, not_or] at h
    rw [put, if_neg (fun e => h.1 e.symm), ih h.2, List.cons_append]

/-- Where no key is repeated, nothing is overwritten. -/
theorem lastWins_eq_self {members : List (String × Json)} (h : (members.map (·.1)).Nodup) :
    lastWins members = members := by
  have step : ∀ settled rest : List (String × Json), ((settled ++ rest).map (·.1)).Nodup →
      rest.foldl (fun settled member => put member.1 member.2 settled) settled =
        settled ++ rest := by
    intro settled rest
    induction rest generalizing settled with
    | nil => intro _; simp
    | cons member rest ih =>
      intro hnodup
      have hnew : member.1 ∉ settled.map (·.1) := by
        rw [List.map_append, List.map_cons, List.nodup_append] at hnodup
        intro hmem
        exact hnodup.2.2 member.1 hmem member.1 List.mem_cons_self rfl
      rw [List.foldl_cons, put_of_notMem hnew, ih]
      · simp
      · simpa using hnodup
  exact step [] members h

theorem settleItems_eq_self {items : List Json} (h : ∀ item ∈ items, settle item = some item) :
    settleItems items = some items := by
  induction items with
  | nil => rfl
  | cons item items ih =>
    rw [settleItems, h item List.mem_cons_self,
      ih fun i hi => h i (List.mem_cons_of_mem _ hi)]

theorem settleMembers_eq_self {members : List (String × Json)}
    (h : ∀ member ∈ members, settle member.2 = some member.2) :
    settleMembers members = some members := by
  induction members with
  | nil => rfl
  | cons member members ih =>
    rw [settleMembers, h member List.mem_cons_self,
      ih fun m hm => h m (List.mem_cons_of_mem _ hm)]

/-- **An exact value stands for itself.** -/
theorem settle_eq_self {j : Json} (h : IsExact j) : settle j = some j := by
  induction h with
  | null => rfl
  | bool b => rfl
  | int hl hu => rfl
  | str s => rfl
  | arr _ ih => rw [settle, settleItems_eq_self ih, Option.map_some]
  | obj once _ ih => rw [settle, settleMembers_eq_self ih, Option.map_some, lastWins_eq_self once]

/-- **An exact value is the value of its compact text.** -/
theorem parse_compact {j : Json} (h : IsExact j) (hdepth : j.nesting ≤ nestingLimit) :
    parse j.compact = some j := by
  rw [parse, read, readWithin_compact h hdepth]
  exact settle_eq_self h

end Json
end DocSearch
