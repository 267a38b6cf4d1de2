/-
# Instants read back from their text

The written form of an instant is read as the same instant without its part of a second, if the
year has four digits, and by no form at all if it has a sign.  A leap second stays one: it is
written as second 60, and that is read as a leap second again.  A leap second behind any other
second than the last of a minute has no text of its own: it is written as the next second, and read
as that (`writtenSecond`).

The reader tries five forms, so two things have to be shown.  The strict form reads what is written
(`strict_spelled`), and the other four refuse it.  For the latter the final `Z` is enough: none of
the steps of those forms takes a `Z`, whatever else it skips or takes (`LeavesZ`), and each form
has to use up the whole text.

Main statements: `strict_spelled`, `ofTrimmed_of_mem_z`, `ofText_text`.
-/
import DocSearch.Document.Instant.Reader
import DocSearch.Proofs.Document.Calendar
import DocSearch.Proofs.Text.Decimal
import DocSearch.Proofs.Text.Split

namespace DocSearch
namespace Instant

/-! ## 1. What is kept of an instant -/

/-- An instant without the part of its second. -/
def wholeSecond (i : Instant) : Instant where
  seconds := i.seconds
  nanos := if i.nanos < 1000000000 then 0 else 1000000000
  nanos_lt := by split <;> decide

/-- What is kept of an instant that is written and read: its whole second, if its year has four
digits. -/
def kept? (i : Instant) : Option Instant :=
  if 0 ≤ i.date.year ∧ i.date.year ≤ 9999 then some i.wholeSecond else none

/-- Only the last second of a minute has a leap second behind it. -/
def HasLeapLast (i : Instant) : Prop := 1000000000 ≤ i.nanos → i.seconds % 60 = 59

/-- The whole second that is written.  Where a second other than the last of a minute is a leap
second, this is the next one. -/
def writtenSecond (i : Instant) : Instant :=
  if i.nanos < 1000000000 ∨ i.seconds % 60 = 59 then i.wholeSecond
  else { epoch with seconds := i.seconds + 1 }

/-- What is found of an instant that is written and read. -/
def found? (i : Instant) : Option Instant :=
  if 0 ≤ i.date.year ∧ i.date.year ≤ 9999 then some i.writtenSecond else none

theorem writtenSecond_eq_wholeSecond {i : Instant} (h : i.HasLeapLast) :
    i.writtenSecond = i.wholeSecond :=
  if_pos ((Nat.lt_or_ge i.nanos 1000000000).imp_right h)

theorem found?_eq_kept? {i : Instant} (h : i.HasLeapLast) : i.found? = i.kept? := by
  rw [found?, kept?, writtenSecond_eq_wholeSecond h]

/-- Half a second into a leap second behind second 7. -/
example : found? ⟨7, 1500000000, by decide⟩ = some ⟨8, 0, by decide⟩ := by decide

/-- A year of four digits is in the range of the years that are read. -/
theorem isYearInRange_of_four {y : Int} (h : 0 ≤ y ∧ y ≤ 9999) : isYearInRange y = true := by
  rw [isYearInRange, leastYear, greatestYear, decide_eq_true_eq]
  omega

/-! ## 2. The strict form -/

theorem number_of_isDigit {row : List Char} (h : ∀ c ∈ row, c.isDigit = true) :
    number row = Nat.ofDigitChars 10 row 0 := by
  have htake := Text.takeWhile_append_stop h (Text.stopsAt_nil Char.isDigit)
  rw [List.append_nil] at htake
  rw [number, Text.takeDigits, htake, Text.ofDigits_eq_ofDigitChars]

/-- Zeros in front do not matter to a number. -/
theorem number_padded (width n : Nat) : number (Decimal.padded width n) = n := by
  rw [number_of_isDigit fun c hc => Decimal.isDigit_of_mem_padded hc, Decimal.ofDigitChars_padded]

/-- A number of fixed width is read back. -/
theorem fixed_padded {width n : Nat} (h : (Nat.toDigits 10 n).length ≤ width)
    (rest : List Char) : fixed width (Decimal.padded width n ++ rest) = some (n, rest) := by
  have hlength := Decimal.length_padded h
  have hdigits : ∀ c ∈ Decimal.padded width n, c.isDigit = true :=
    fun c hc => Decimal.isDigit_of_mem_padded hc
  have htake : (Decimal.padded width n ++ rest).take width = Decimal.padded width n :=
    List.take_left' hlength
  have hdrop : (Decimal.padded width n ++ rest).drop width = rest := List.drop_left' hlength
  simp only [fixed, htake, hdrop, number_padded]
  rw [if_pos ⟨hlength, List.all_eq_true.mpr hdigits⟩]

theorem fixed_four {n : Nat} (h : n < 10000) (rest : List Char) :
    fixed 4 (Decimal.padded 4 n ++ rest) = some (n, rest) :=
  fixed_padded ((Nat.length_toDigits_le_iff (by decide) (by decide)).mpr h) rest

theorem fixed_two {n : Nat} (h : n < 100) (rest : List Char) :
    fixed 2 (Decimal.padded 2 n ++ rest) = some (n, rest) :=
  fixed_padded ((Nat.length_toDigits_le_iff (by decide) (by decide)).mpr h) rest

/-- What follows a step that succeeds. -/
theorem bind_read {α β : Type} {x : Option α} {a : α} (h : x = some a) (next : α → Option β) :
    (x >>= next) = next a := by
  rw [h]
  rfl

/-- **The strict form reads a date and a time of day** where they were written, with any of its
three signs between them; what becomes of them is up to the offset. -/
theorem strict_eq {date : Date} {time : TimeOfDay} {sep : Char} {zone : List Char}
    (hyear : 0 ≤ date.year ∧ date.year ≤ 9999) (hdate : date.isValid = true)
    (htime : time.hour ≤ 23 ∧ time.minute ≤ 59 ∧ time.second ≤ 60)
    (hsep : sep ∈ ['T', 't', ' ']) (hfraction : fraction zone = some (0, zone)) :
    strict (dateText date ++ sep :: time.text ++ zone) = (offset zone).bind fun found =>
      if found.2.isEmpty then ofDateTime? date time 0 found.1 else none := by
  obtain ⟨hlow, hhigh⟩ := hyear
  obtain ⟨hhour, hminute, hsecond⟩ := htime
  obtain ⟨hmonth, hday⟩ := Date.le_of_isValid hdate
  have hyearText : yearText date.year = Decimal.padded 4 date.year.toNat := if_pos ⟨hlow, hhigh⟩
  have hyearRead : ((date.year.toNat : Nat) : Int) = date.year := Int.toNat_of_nonneg hlow
  have hdash : ∀ rest, sign ['-'] ('-' :: rest) = some ((), rest) := fun _ => rfl
  have hcolon : ∀ rest, sign [':'] (':' :: rest) = some ((), rest) := fun _ => rfl
  have hbetween : ∀ rest, sign ['T', 't', ' '] (sep :: rest) = some ((), rest) :=
    fun _ => if_pos hsep
  simp only [strict, dateText, TimeOfDay.text, hyearText, List.append_assoc, List.cons_append]
  -- every number has the width at which it is read, and its sign follows
  refine (bind_read (fixed_four (by omega) _) _).trans ?_
  refine (bind_read (hdash _) _).trans ?_
  refine (bind_read (fixed_two (by omega) _) _).trans ?_
  refine (bind_read (hdash _) _).trans ?_
  refine (bind_read (fixed_two (by omega) _) _).trans ?_
  refine (bind_read (hbetween _) _).trans ?_
  refine (bind_read (fixed_two (by omega) _) _).trans ?_
  refine (bind_read (hcolon _) _).trans ?_
  refine (bind_read (fixed_two (by omega) _) _).trans ?_
  refine (bind_read (hcolon _) _).trans ?_
  refine (bind_read (fixed_two (by omega) _) _).trans ?_
  refine (bind_read hfraction _).trans ?_
  simp only [hyearRead]
  rfl

/-- **...and an offset behind them.** -/
theorem strict_spelled {date : Date} {time : TimeOfDay} {sep : Char} {zone : List Char}
    {minutes : Int} (hyear : 0 ≤ date.year ∧ date.year ≤ 9999) (hdate : date.isValid = true)
    (htime : time.hour ≤ 23 ∧ time.minute ≤ 59 ∧ time.second ≤ 60)
    (hsep : sep ∈ ['T', 't', ' ']) (hfraction : fraction zone = some (0, zone))
    (hzone : offset zone = some (minutes, [])) :
    strict (dateText date ++ sep :: time.text ++ zone) = ofDateTime? date time 0 minutes := by
  rw [strict_eq hyear hdate htime hsep hfraction, hzone]
  rfl

theorem timeOfDay_le (i : Instant) :
    i.timeOfDay.hour ≤ 23 ∧ i.timeOfDay.minute ≤ 59 ∧ i.timeOfDay.second ≤ 60 := by
  have hnanos := i.nanos_lt
  simp only [timeOfDay]
  omega

/-- The written second is 60 within a leap second at the end of a minute, and only there. -/
theorem timeOfDay_second_eq_sixty_iff (i : Instant) :
    i.timeOfDay.second = 60 ↔ 1000000000 ≤ i.nanos ∧ i.seconds % 60 = 59 := by
  have hnanos := i.nanos_lt
  simp only [timeOfDay]
  omega

/-- **The date and the time of day of an instant give the second that is written.** -/
theorem ofDateTime?_date_timeOfDay {i : Instant} (h : isYearInRange i.date.year = true) :
    ofDateTime? i.date i.timeOfDay 0 0 = some i.writtenSecond := by
  have hvalid : i.date.isValid = true := Date.isValid_ofDayNumber _
  have hday : i.date.dayNumber = i.seconds / 86400 := Date.dayNumber_ofDayNumber _
  obtain ⟨hhour, hminute, hsecond⟩ := timeOfDay_le i
  have hsixty := i.timeOfDay_second_eq_sixty_iff
  have hnanos := i.nanos_lt
  unfold ofDateTime? writtenSecond wholeSecond
  rw [if_pos ⟨hvalid, h, hhour, hminute⟩]
  by_cases hleap : i.timeOfDay.second = 60
  · obtain ⟨hlong, hlast⟩ := hsixty.mp hleap
    rw [dif_neg (by omega), dif_pos ⟨hleap, by decide⟩, if_pos (.inr hlast)]
    simp only [Option.some.injEq, Instant.mk.injEq, if_neg (Nat.not_lt.mpr hlong), and_true, hday,
      timeOfDay]
    omega
  · rw [dif_pos ⟨by omega, by decide⟩]
    by_cases hshort : i.nanos < 1000000000
    · rw [if_pos (.inl hshort)]
      simp only [Option.some.injEq, Instant.mk.injEq, if_pos hshort, and_true, hday, timeOfDay]
      omega
    · have hnot : ¬ (i.nanos < 1000000000 ∨ i.seconds % 60 = 59) := by omega
      rw [if_neg hnot]
      simp only [Option.some.injEq, Instant.mk.injEq, and_true, hday, timeOfDay, epoch]
      omega

/-! ## 3. The other forms leave the final letter -/

/-- A step that takes no `Z`: one that was there is there still. -/
def LeavesZ {α : Type} (step : Step α) : Prop :=
  ∀ {cs rest : List Char} {a : α}, step cs = some (a, rest) → 'Z' ∈ cs → 'Z' ∈ rest

/-- Characters of a kind without `Z` can be skipped. -/
theorem mem_dropWhile {p : Char → Bool} (hp : p 'Z' = false) {cs : List Char} (h : 'Z' ∈ cs) :
    'Z' ∈ cs.dropWhile p := by
  rw [← List.takeWhile_append_dropWhile (p := p) (l := cs), List.mem_append] at h
  rcases h with h | h
  · have hz := List.all_eq_true.mp List.all_takeWhile 'Z' h
    rw [hp] at hz
    cases hz
  · exact h

theorem leavesZ_sign {allowed : List Char} (hallowed : 'Z' ∉ allowed) :
    LeavesZ (sign allowed) := by
  intro cs rest _ h hz
  cases cs with
  | nil => cases hz
  | cons c cs =>
    rw [sign] at h
    split at h
    · rename_i hc
      cases h
      rcases List.mem_cons.mp hz with rfl | hz
      · exact absurd hc hallowed
      · exact hz
    · cases h

theorem leavesZ_unlimited : LeavesZ unlimited := by
  intro cs rest _ h hz
  simp only [unlimited] at h
  split at h
  · cases h
  · cases h
    exact mem_dropWhile (by decide) hz

theorem leavesZ_upTo (most : Nat) : LeavesZ (upTo most) := by
  intro cs rest _ h hz
  simp only [upTo] at h
  split at h
  · cases h
  · cases h
    -- what is dropped are the digits that were taken
    have hfront : (cs.take most).takeWhile Char.isDigit <+: cs :=
      (List.takeWhile_prefix _).trans (List.take_prefix _ _)
    have htaken := List.prefix_iff_eq_take.mp hfront
    rw [← List.take_append_drop ((cs.take most).takeWhile Char.isDigit).length cs, ← htaken,
      List.mem_append] at hz
    rcases hz with hz | hz
    · exact absurd (List.all_eq_true.mp List.all_takeWhile 'Z' hz) (by decide)
    · exact hz

theorem leavesZ_short : LeavesZ short :=
  fun h hz => leavesZ_upTo 2 h (mem_dropWhile (by decide) hz)

/-- What is made of the value that was read does not matter. -/
theorem LeavesZ.map {α β : Type} {step : Step α} (hstep : LeavesZ step) {f : α → β}
    {cs rest : List Char} {b : β}
    (h : (step cs).map (fun found => (f found.1, found.2)) = some (b, rest)) (hz : 'Z' ∈ cs) :
    'Z' ∈ rest := by
  obtain ⟨found, hfound, he⟩ := Option.map_eq_some_iff.mp h
  cases he
  exact hstep hfound hz

theorem leavesZ_year : LeavesZ year := by
  intro cs rest y h hz
  have hafter : 'Z' ∈ blanks cs := mem_dropWhile (by decide) hz
  unfold year at h
  split at h
  · rename_i more hsign
    rw [hsign] at hafter
    exact LeavesZ.map (f := fun n : Nat => -(n : Int)) leavesZ_unlimited h
      (List.mem_of_ne_of_mem (by decide) hafter)
  · rename_i more hsign
    rw [hsign] at hafter
    exact LeavesZ.map (f := fun n : Nat => (n : Int)) leavesZ_unlimited h
      (List.mem_of_ne_of_mem (by decide) hafter)
  · exact LeavesZ.map (f := fun n : Nat => (n : Int)) (leavesZ_upTo 4) h hafter

theorem leavesZ_looseDate : LeavesZ looseDate := by
  intro cs rest date h hz
  simp only [looseDate, Option.bind_eq_bind, Option.bind_eq_some_iff, Prod.exists] at h
  obtain ⟨y, cs₁, h₁, _, cs₂, h₂, m, cs₃, h₃, _, cs₄, h₄, d, cs₅, h₅, he⟩ := h
  cases he
  have hz₁ := leavesZ_year h₁ hz
  have hz₂ := leavesZ_sign (by decide) h₂ hz₁
  have hz₃ := leavesZ_short h₃ hz₂
  have hz₄ := leavesZ_sign (by decide) h₄ hz₃
  exact leavesZ_short h₅ hz₄

theorem leavesZ_looseTime : LeavesZ looseTime := by
  intro cs rest time h hz
  simp only [looseTime, Option.bind_eq_bind, Option.bind_eq_some_iff, Prod.exists] at h
  obtain ⟨hh, cs₁, h₁, _, cs₂, h₂, mm, cs₃, h₃, _, cs₄, h₄, ss, cs₅, h₅, he⟩ := h
  cases he
  have hz₁ := leavesZ_short h₁ hz
  have hz₂ := leavesZ_sign (by decide) h₂ hz₁
  have hz₃ := leavesZ_short h₃ hz₂
  have hz₄ := leavesZ_sign (by decide) h₄ hz₃
  exact leavesZ_short h₅ hz₄

/-- A form that has to use up the text does not use up one that still holds a `Z`. -/
theorem not_isEmpty_of_mem {cs : List Char} (h : 'Z' ∈ cs) : ¬ cs.isEmpty = true := by
  rw [List.isEmpty_iff]
  exact List.ne_nil_of_mem h

theorem joined_of_mem_z {cs : List Char} (hz : 'Z' ∈ cs) : joined cs = none := by
  rw [Option.eq_none_iff_forall_ne_some]
  intro i h
  simp only [joined, Option.bind_eq_bind, Option.bind_eq_some_iff, Prod.exists] at h
  obtain ⟨date, cs₁, h₁, _, cs₂, h₂, time, cs₃, h₃, he⟩ := h
  have hz₂ := leavesZ_sign (by decide) h₂ (leavesZ_looseDate h₁ hz)
  rw [if_neg (not_isEmpty_of_mem (leavesZ_looseTime h₃ hz₂))] at he
  cases he

theorem spaced_of_mem_z {cs : List Char} (hz : 'Z' ∈ cs) : spaced cs = none := by
  rw [Option.eq_none_iff_forall_ne_some]
  intro i h
  simp only [spaced, Option.bind_eq_bind, Option.bind_eq_some_iff, Prod.exists] at h
  obtain ⟨date, cs₁, h₁, time, cs₂, h₂, he⟩ := h
  rw [if_neg (not_isEmpty_of_mem (leavesZ_looseTime h₂ (leavesZ_looseDate h₁ hz)))] at he
  cases he

theorem dateOnly_of_mem_z {cs : List Char} (hz : 'Z' ∈ cs) : dateOnly cs = none := by
  rw [Option.eq_none_iff_forall_ne_some]
  intro i h
  simp only [dateOnly, Option.bind_eq_bind, Option.bind_eq_some_iff, Prod.exists] at h
  obtain ⟨date, cs₁, h₁, he⟩ := h
  rw [if_neg (not_isEmpty_of_mem (leavesZ_looseDate h₁ hz))] at he
  cases he

theorem secondsOnly_of_mem_z {cs : List Char} (hz : 'Z' ∈ cs) : secondsOnly cs = none := by
  unfold secondsOnly
  split
  · rename_i n h
    have hdenotes := ((Decimal.readInt_eq_ok_iff (by decide) (by decide)).mp h).1
    exact absurd (hdenotes.isDigit_or_sign 'Z' hz) (by decide)
  · rfl

/-- **A text that holds a `Z` is read by the strict form or not at all.** -/
theorem ofTrimmed_of_mem_z {cs : List Char} (hz : 'Z' ∈ cs) : ofTrimmed cs = strict cs := by
  rw [ofTrimmed, joined_of_mem_z hz, spaced_of_mem_z hz, dateOnly_of_mem_z hz,
    secondsOnly_of_mem_z hz]
  cases strict cs <;> rfl

/-! ## 4. Instants -/

/-- A year with a sign is no year of four digits. -/
theorem strict_of_not_isDigit {c : Char} (hc : c.isDigit = false) (rest : List Char) :
    strict (c :: rest) = none := by
  have hfixed : fixed 4 (c :: rest) = none := by
    refine if_neg fun h => ?_
    have hfirst := List.all_eq_true.mp h.2 c (by simp)
    rw [hc] at hfirst
    cases hfirst
  rw [strict, hfixed]
  rfl

theorem not_isBlank_of_mem_padded {width n : Nat} {c : Char} (h : c ∈ Decimal.padded width n) :
    Text.isBlank c = false :=
  Decimal.not_isBlank_of_isDigit (Decimal.isDigit_of_mem_padded h)

theorem not_isBlank_of_mem_dateText {date : Date} {c : Char} (h : c ∈ dateText date) :
    Text.isBlank c = false := by
  have hyear : ∀ c ∈ yearText date.year, Text.isBlank c = false := by
    intro c hc
    unfold yearText at hc
    split at hc
    · exact not_isBlank_of_mem_padded hc
    · rcases List.mem_cons.mp hc with rfl | hc
      · split <;> decide
      · exact not_isBlank_of_mem_padded hc
  simp only [dateText, List.mem_append, List.mem_cons] at h
  rcases h with (h | rfl | h) | rfl | h
  · exact hyear c h
  · decide
  · exact not_isBlank_of_mem_padded h
  · decide
  · exact not_isBlank_of_mem_padded h

theorem not_isBlank_of_mem_timeText {time : TimeOfDay} {c : Char} (h : c ∈ time.text) :
    Text.isBlank c = false := by
  simp only [TimeOfDay.text, List.mem_append, List.mem_cons] at h
  rcases h with (h | rfl | h) | rfl | h
  · exact not_isBlank_of_mem_padded h
  · decide
  · exact not_isBlank_of_mem_padded h
  · decide
  · exact not_isBlank_of_mem_padded h

theorem not_isBlank_of_mem_text {i : Instant} {c : Char} (h : c ∈ i.text.toList) :
    Text.isBlank c = false := by
  simp only [text, String.toList_ofList, List.mem_append, List.mem_cons, List.not_mem_nil,
    or_false] at h
  rcases h with (h | rfl | h) | rfl
  · exact not_isBlank_of_mem_dateText h
  · decide
  · exact not_isBlank_of_mem_timeText h
  · decide

/-- **The text of an instant is read as the second that is written.** -/
theorem ofText_text (i : Instant) : ofText i.text = i.found? := by
  have htrim : Text.trim i.text = i.text := Text.trim_eq_self fun c hc => not_isBlank_of_mem_text hc
  have htext : i.text.toList = dateText i.date ++ 'T' :: i.timeOfDay.text ++ ['Z'] := by
    rw [text, String.toList_ofList]
  have hz : 'Z' ∈ i.text.toList := by simp [htext]
  rw [ofText, htrim, ofTrimmed_of_mem_z hz, found?, htext]
  split
  · rename_i hyear
    have hrange := isYearInRange_of_four hyear
    have hzone : offset ['Z'] = some (0, []) := rfl
    rw [strict_spelled hyear (Date.isValid_ofDayNumber _) (timeOfDay_le i) List.mem_cons_self rfl
      hzone, ofDateTime?_date_timeOfDay hrange]
  · rename_i hyear
    simp only [dateText, yearText, if_neg hyear, List.cons_append]
    refine strict_of_not_isDigit ?_ _
    split <;> rfl

end Instant
end DocSearch
