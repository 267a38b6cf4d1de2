/-
# Taking a text apart where it was put together

A reader that looks for the first place of a separator finds the place where a writer put it, as
long as what stands before cannot hold the separator's first character.  The same for a row of
characters that ends at the first one of another kind, and for trimming, which leaves a text
alone that holds nothing to be trimmed.

What the first place of a separator is can be said without the reader: no other place has less in
front of it (`IsFirstSplit`), and the reader finds that place in every text that has one.

Main statements: `splitOnce_append`, `splitOnce_eq_some_iff`, `takeWhile_append_stop`,
`trimWhere_eq_self_iff`, `trimWhere_surrounded`, `exists_eq_trimWhere`, `mapM_map_eq_some`.
-/
import DocSearch.Text.Blank

namespace DocSearch.Text

/-! ## 1. The first place of a separator -/

/-- What begins with `start` loses exactly that. -/
theorem dropStart?_append (start rest : List Char) :
    dropStart? start (start ++ rest) = some rest := by
  induction start with
  | nil => rfl
  | cons a start ih =>
    rw [List.cons_append, dropStart?, if_pos rfl]
    exact ih

/-- Another first character, another beginning. -/
theorem dropStart?_of_ne {a c : Char} (h : a ≠ c) (start cs : List Char) :
    dropStart? (a :: start) (c :: cs) = none := by
  rw [dropStart?, if_neg h]

/-- **A split finds the separator where it was put**, when its first character does not occur
before it. -/
theorem splitOnce_append {a : Char} (sep : List Char) {before : List Char} (h : a ∉ before)
    (after : List Char) :
    splitOnce (a :: sep) (before ++ (a :: sep) ++ after) = some (before, after) := by
  induction before with
  | nil =>
    have hstart : dropStart? (a :: sep) (a :: (sep ++ after)) = some after :=
      dropStart?_append (a :: sep) after
    simp [splitOnce, hstart]
  | cons c before ih =>
    have hc : a ≠ c := fun e => h (e ▸ List.mem_cons_self)
    have hrest := ih fun hm => h (List.mem_cons_of_mem _ hm)
    simp only [List.cons_append]
    rw [splitOnce, dropStart?_of_ne hc]
    simp only [List.append_assoc] at hrest ⊢
    rw [hrest]
    rfl

/-- Without the first character of the separator there is no split. -/
theorem splitOnce_eq_none {a : Char} (sep : List Char) {cs : List Char} (h : a ∉ cs) :
    splitOnce (a :: sep) cs = none := by
  induction cs with
  | nil => rfl
  | cons c cs ih =>
    have hc : a ≠ c := fun e => h (e ▸ List.mem_cons_self)
    rw [splitOnce, dropStart?_of_ne hc]
    simp only [ih fun hm => h (List.mem_cons_of_mem _ hm), Option.map_none]

/-- A separator stands between two parts of a text, and nowhere before. -/
def IsFirstSplit (sep cs before after : List Char) : Prop :=
  cs = before ++ sep ++ after ∧
    ∀ before' after', cs = before' ++ sep ++ after' → before.length ≤ before'.length

/-- There is one first place at most. -/
theorem IsFirstSplit.unique {sep cs before after before' after' : List Char}
    (h : IsFirstSplit sep cs before after) (h' : IsFirstSplit sep cs before' after') :
    before = before' ∧ after = after' := by
  have hlength : before.length = before'.length :=
    Nat.le_antisymm (h.2 before' after' h'.1) (h'.2 before after h.1)
  have hparts := h.1.symm.trans h'.1
  rw [List.append_assoc, List.append_assoc] at hparts
  obtain ⟨hbefore, hbehind⟩ := List.append_inj hparts hlength
  exact ⟨hbefore, List.append_cancel_left hbehind⟩

theorem isFirstSplit_of_splitOnce {sep cs before after : List Char}
    (h : splitOnce sep cs = some (before, after)) : IsFirstSplit sep cs before after := by
  refine ⟨splitOnce_eq h, ?_⟩
  induction cs generalizing before with
  | nil =>
    obtain ⟨rest, -, he⟩ := Option.map_eq_some_iff.mp h
    cases he
    intro before' after' _
    exact Nat.zero_le _
  | cons c cs ih =>
    rw [splitOnce] at h
    split at h
    · cases h
      intro before' after' _
      exact Nat.zero_le _
    · rename_i hstart
      obtain ⟨sides, hsides, he⟩ := Option.map_eq_some_iff.mp h
      cases he
      intro before' after' hplace
      cases before' with
      | nil =>
        -- the separator does not stand at the very front
        rw [hplace, List.nil_append, dropStart?_append] at hstart
        cases hstart
      | cons d before' =>
        simp only [List.cons_append, List.cons.injEq] at hplace
        exact Nat.succ_le_succ (ih hsides before' after' hplace.2)

theorem exists_splitOnce (sep before after : List Char) :
    ∃ sides, splitOnce sep (before ++ sep ++ after) = some sides := by
  induction before with
  | nil =>
    have hstart : dropStart? sep (sep ++ after) = some after := dropStart?_append sep after
    rw [List.nil_append]
    cases hcs : sep ++ after with
    | nil =>
      rw [hcs] at hstart
      exact ⟨([], after), by rw [splitOnce, hstart]; rfl⟩
    | cons c cs =>
      rw [hcs] at hstart
      exact ⟨([], after), by rw [splitOnce, hstart]⟩
  | cons c before ih =>
    obtain ⟨sides, hsides⟩ := ih
    simp only [List.cons_append]
    rw [splitOnce]
    split
    · exact ⟨_, rfl⟩
    · rw [hsides]
      exact ⟨_, rfl⟩

/-- There is a first place exactly when the separator stands somewhere. -/
theorem isSome_splitOnce_iff {sep cs : List Char} :
    (splitOnce sep cs).isSome = true ↔ sep <:+: cs := by
  rw [Option.isSome_iff_exists]
  constructor
  · rintro ⟨⟨before, after⟩, h⟩
    exact ⟨before, after, (splitOnce_eq h).symm⟩
  · rintro ⟨before, after, rfl⟩
    exact exists_splitOnce sep before after

/-- **A split finds the first place of the separator, and only that.** -/
theorem splitOnce_eq_some_iff {sep cs before after : List Char} :
    splitOnce sep cs = some (before, after) ↔ IsFirstSplit sep cs before after := by
  constructor
  · exact isFirstSplit_of_splitOnce
  · intro h
    obtain ⟨⟨before', after'⟩, hsides⟩ := exists_splitOnce sep before after
    rw [← h.1] at hsides
    obtain ⟨rfl, rfl⟩ := h.unique (isFirstSplit_of_splitOnce hsides)
    exact hsides

/-! ## 2. Rows of one kind -/

/-- The first character of a text, if there is one, is not of the kind `p`. -/
def StopsAt (p : Char → Bool) (cs : List Char) : Prop := ∀ c ∈ cs.head?, p c = false

theorem stopsAt_nil (p : Char → Bool) : StopsAt p [] := by simp [StopsAt]

theorem stopsAt_cons {p : Char → Bool} {c : Char} {cs : List Char} (h : p c = false) :
    StopsAt p (c :: cs) := by
  simpa [StopsAt] using h

/-- A row of one kind in front of something else is taken as a whole. -/
theorem takeWhile_append_stop {p : Char → Bool} {row rest : List Char}
    (hrow : ∀ c ∈ row, p c = true) (hrest : StopsAt p rest) :
    (row ++ rest).takeWhile p = row := by
  rw [List.takeWhile_append_of_pos hrow]
  cases rest with
  | nil => simp
  | cons c rest => simp [hrest c (by simp)]

/-- ...and what follows it is left. -/
theorem dropWhile_append_stop {p : Char → Bool} {row rest : List Char}
    (hrow : ∀ c ∈ row, p c = true) (hrest : StopsAt p rest) :
    (row ++ rest).dropWhile p = rest := by
  rw [List.dropWhile_append_of_pos hrow]
  cases rest with
  | nil => rfl
  | cons c rest => simp [hrest c (by simp)]

/-! ## 3. Trimming -/

/-- A text that is not empty and has nothing to trim at its two ends. -/
structure IsTrimmed (p : Char → Bool) (cs : List Char) : Prop where
  ne_nil : cs ≠ []
  start : StopsAt p cs
  stop : StopsAt p cs.reverse

theorem stopsAt_append {p : Char → Bool} {cs : List Char} (hne : cs ≠ []) (h : StopsAt p cs)
    (rest : List Char) : StopsAt p (cs ++ rest) := by
  obtain ⟨first, more, rfl⟩ := List.exists_cons_of_ne_nil hne
  exact h

theorem stopsAt_of_forall {p : Char → Bool} {cs : List Char} (h : ∀ c ∈ cs, p c = false) :
    StopsAt p cs :=
  fun c hc => h c (List.mem_of_mem_head? hc)

theorem StopsAt.append {p : Char → Bool} {cs rest : List Char} (h : StopsAt p cs)
    (hrest : StopsAt p rest) : StopsAt p (cs ++ rest) := by
  cases cs with
  | nil => exact hrest
  | cons c cs => exact h

/-- Only the two ends matter. -/
theorem IsTrimmed.of_ends {p : Char → Bool} {start stop : List Char} (hstart : start ≠ [])
    (hstop : stop ≠ []) (hp : ∀ c ∈ start, p c = false) (hp' : ∀ c ∈ stop, p c = false)
    (between : List Char) : IsTrimmed p (start ++ between ++ stop) := by
  have hreverse : ∀ c ∈ stop.reverse, p c = false := fun c hc => hp' c (List.mem_reverse.mp hc)
  refine ⟨by simp [hstart], ?_, ?_⟩
  · rw [List.append_assoc]
    exact stopsAt_append hstart (stopsAt_of_forall hp) _
  · rw [List.reverse_append]
    exact stopsAt_append (by simpa using hstop) (stopsAt_of_forall hreverse) _

theorem IsTrimmed.of_forall {p : Char → Bool} {cs : List Char} (hne : cs ≠ [])
    (h : ∀ c ∈ cs, p c = false) : IsTrimmed p cs :=
  ⟨hne, stopsAt_of_forall h, stopsAt_of_forall fun c hc => h c (List.mem_reverse.mp hc)⟩

/-- **Trimming takes away what stands around a trimmed text**, and nothing more. -/
theorem trimWhere_surrounded {p : Char → Bool} {before cs after : List Char} (h : IsTrimmed p cs)
    (hbefore : ∀ c ∈ before, p c = true) (hafter : ∀ c ∈ after, p c = true) :
    trimWhere p (before ++ cs ++ after) = cs := by
  have hreverse : ∀ c ∈ after.reverse, p c = true := fun c hc => hafter c (List.mem_reverse.mp hc)
  rw [trimWhere, dropEndWhile, List.append_assoc,
    dropWhile_append_stop hbefore (stopsAt_append h.ne_nil h.start after), List.reverse_append,
    dropWhile_append_stop hreverse h.stop, List.reverse_reverse]

/-- The same where nothing may be left. -/
theorem trimWhere_of_ends {p : Char → Bool} {before cs after : List Char} (hstart : StopsAt p cs)
    (hstop : StopsAt p cs.reverse) (hbefore : ∀ c ∈ before, p c = true)
    (hafter : ∀ c ∈ after, p c = true) : trimWhere p (before ++ cs ++ after) = cs := by
  by_cases hempty : cs = []
  · have hall : ∀ c ∈ before ++ after, p c = true := List.forall_mem_append.mpr ⟨hbefore, hafter⟩
    have hdrop := dropWhile_append_stop hall (stopsAt_nil p)
    rw [List.append_nil] at hdrop
    rw [hempty, List.append_nil, trimWhere, hdrop]
    rfl
  · exact trimWhere_surrounded ⟨hempty, hstart, hstop⟩ hbefore hafter

/-- What trimming takes away is all of the kind that it trims. -/
theorem exists_eq_trimWhere (p : Char → Bool) (cs : List Char) :
    ∃ before after, cs = before ++ trimWhere p cs ++ after ∧ (∀ c ∈ before, p c = true) ∧
      ∀ c ∈ after, p c = true := by
  have htake : ∀ {row : List Char} {c : Char}, c ∈ row.takeWhile p → p c = true :=
    fun hc => List.all_eq_true.mp List.all_takeWhile _ hc
  have hback : cs.dropWhile p =
      trimWhere p cs ++ ((cs.dropWhile p).reverse.takeWhile p).reverse := by
    rw [trimWhere, dropEndWhile, ← List.reverse_append, List.takeWhile_append_dropWhile,
      List.reverse_reverse]
  refine ⟨cs.takeWhile p, ((cs.dropWhile p).reverse.takeWhile p).reverse, ?_, fun _ => htake, ?_⟩
  · rw [List.append_assoc, ← hback, List.takeWhile_append_dropWhile]
  · intro c hc
    exact htake (List.mem_reverse.mp hc)

theorem stopsAt_dropWhile (p : Char → Bool) (cs : List Char) : StopsAt p (cs.dropWhile p) := by
  intro c hc
  have hhead := List.head?_dropWhile_not p cs
  rw [Option.mem_def.mp hc] at hhead
  simpa using hhead

/-- What is left is not trimmed any further at its two ends. -/
theorem stopsAt_trimWhere (p : Char → Bool) (cs : List Char) :
    StopsAt p (trimWhere p cs) ∧ StopsAt p (trimWhere p cs).reverse := by
  have hstop : StopsAt p (trimWhere p cs).reverse := by
    rw [trimWhere, dropEndWhile, List.reverse_reverse]
    exact stopsAt_dropWhile p _
  refine ⟨?_, hstop⟩
  obtain ⟨taken, htaken⟩ : trimWhere p cs <+: cs.dropWhile p := by
    rw [trimWhere, dropEndWhile, ← List.reverse_suffix, List.reverse_reverse]
    exact List.dropWhile_suffix p
  by_cases hempty : trimWhere p cs = []
  · rw [hempty]
    exact stopsAt_nil p
  · have hstart := stopsAt_dropWhile p cs
    obtain ⟨first, more, hleft⟩ := List.exists_cons_of_ne_nil hempty
    rw [← htaken, hleft] at hstart
    rw [hleft]
    exact hstart

/-- **The texts that trimming leaves alone** are those that have nothing to trim at either end. -/
theorem trimWhere_eq_self_iff {p : Char → Bool} {cs : List Char} :
    trimWhere p cs = cs ↔ StopsAt p cs ∧ StopsAt p cs.reverse := by
  constructor
  · intro h
    have hends := stopsAt_trimWhere p cs
    rwa [h] at hends
  · rintro ⟨hstart, hstop⟩
    have hnothing : ∀ c ∈ ([] : List Char), p c = true := fun c hc => absurd hc List.not_mem_nil
    have hleft := trimWhere_of_ends hstart hstop hnothing hnothing
    rwa [List.nil_append, List.append_nil] at hleft

/-- So a text without anything to trim stays as it is. -/
theorem trimWhere_eq_self {p : Char → Bool} {cs : List Char} (h : ∀ c ∈ cs, p c = false) :
    trimWhere p cs = cs :=
  trimWhere_eq_self_iff.mpr
    ⟨stopsAt_of_forall h, stopsAt_of_forall fun c hc => h c (List.mem_reverse.mp hc)⟩

theorem trim_eq_self {s : String} (h : ∀ c ∈ s.toList, isBlank c = false) : trim s = s := by
  rw [trim, trimWhere_eq_self h, String.ofList_toList]

theorem dropWhile_eq_self_iff {p : Char → Bool} {cs : List Char} :
    cs.dropWhile p = cs ↔ StopsAt p cs := by
  constructor
  · intro h
    have hstart := stopsAt_dropWhile p cs
    rwa [h] at hstart
  · intro h
    have hdrop : ([] ++ cs).dropWhile p = cs := dropWhile_append_stop (by simp) h
    exact hdrop

theorem trimWhere_sublist (p : Char → Bool) (cs : List Char) : (trimWhere p cs).Sublist cs := by
  obtain ⟨before, after, hcs, -, -⟩ := exists_eq_trimWhere p cs
  have hinfix : trimWhere p cs <:+: cs := ⟨before, after, hcs.symm⟩
  exact hinfix.sublist

/-! ## 4. Joined texts and written lists -/

/-- A joined text holds what its parts and the separator hold. -/
theorem mem_intercalate {sep : String} {parts : List String} {c : Char}
    (h : c ∈ (String.intercalate sep parts).toList) :
    c ∈ sep.toList ∨ ∃ part ∈ parts, c ∈ part.toList := by
  induction parts with
  | nil => simp at h
  | cons part parts ih =>
    cases parts with
    | nil =>
      rw [String.intercalate_singleton] at h
      exact Or.inr ⟨part, List.mem_cons_self, h⟩
    | cons next parts =>
      simp only [String.intercalate_cons_cons, String.toList_append, List.mem_append] at h
      rcases h with (h | h) | h
      · exact Or.inr ⟨part, List.mem_cons_self, h⟩
      · exact Or.inl h
      · rcases ih h with hsep | ⟨p, hp, hc⟩
        · exact Or.inl hsep
        · exact Or.inr ⟨p, List.mem_cons_of_mem _ hp, hc⟩

/-- What is read back item by item is read back as a list. -/
theorem mapM_map_eq_some {α β : Type} {write : α → β} {read : β → Option α} {items : List α}
    (h : ∀ a ∈ items, read (write a) = some a) : (items.map write).mapM read = some items := by
  induction items with
  | nil => rfl
  | cons a items ih =>
    have hrest := ih fun b hb => h b (List.mem_cons_of_mem _ hb)
    rw [List.map_cons, List.mapM_cons, h a List.mem_cons_self, hrest]
    rfl

end DocSearch.Text
