/-
# The spellings of an instant

An instant of a whole second can be spelled in many ways: with the date and the time of day of any
place on earth and the offset of that place, without an offset as in Greenwich, as a number of
seconds, and at midnight as a date alone.  The reader tries five forms one after the other, so a
spelling is read as it is meant only if each form before its own refuses it or agrees.

* A spelling with an offset is read by the first form.  The date and the time of day at the place
  are those of the instant moved by the offset (`moved`); an offset is less than a day, so from a
  year between 1 and 9998 it does not lead out of the years of four digits
  (`year_moved`), and reading takes the offset back (`ofDateTime?_moved`).
* The spellings without an offset are all read up to the point where they end or differ: the first
  form misses its offset, the second its `T`, the third its time of day (`strict_eq`,
  `looseDate_dateText`, `looseTime_text`).
* No calendar form takes any of the texts of integers.  Each of them wants a minus sign behind its
  year, and what is left of such a text behind a year is digits (`looseDate_of_denotes`).

Blanks around a spelling are taken away first, and nothing else is, because a spelling neither
begins nor ends with a blank (`isTrimmed_of_spelled`).

Main statement: `spellings_agree`.
-/
import DocSearch.Proofs.Document.InstantText

namespace DocSearch
namespace Instant

/-! ## 1. Date and time of day at another place -/

/-- The instant that has the date and the time of day in Greenwich that `i` has at a place the
given number of minutes east of it. -/
def moved (i : Instant) (minutes : Int) : Instant where
  seconds := i.seconds + minutes * 60
  nanos := i.nanos
  nanos_lt := i.nanos_lt

theorem writtenSecond_eq_self {i : Instant} (h : i.nanos = 0) : i.writtenSecond = i := by
  obtain ⟨seconds, nanos, _⟩ := i
  subst h
  rfl

/-- An offset is taken off the instant that the date and the time of day would be without it. -/
theorem ofDateTime?_offset (date : Date) (time : TimeOfDay) (nanos : Nat) (offset : Int) :
    ofDateTime? date time nanos offset
      = (ofDateTime? date time nanos 0).map fun i => i.moved (-offset) := by
  unfold ofDateTime?
  dsimp only
  split
  · split
    · simp only [Option.map_some, moved, Option.some.injEq, Instant.mk.injEq, and_true]
      omega
    · split
      · simp only [Option.map_some, moved, Option.some.injEq, Instant.mk.injEq, and_true]
        omega
      · rfl
  · rfl

/-- **The date and the time of day at a place, with the offset of the place, give the instant.** -/
theorem ofDateTime?_moved {i : Instant} {minutes : Int} (hwhole : i.nanos = 0)
    (hyear : isYearInRange (i.moved minutes).date.year = true) :
    ofDateTime? (i.moved minutes).date (i.moved minutes).timeOfDay 0 minutes = some i := by
  have hmoved : (i.moved minutes).writtenSecond = i.moved minutes :=
    writtenSecond_eq_self hwhole
  rw [ofDateTime?_offset, ofDateTime?_date_timeOfDay hyear, hmoved, Option.map_some]
  obtain ⟨seconds, nanos, _⟩ := i
  simp only [moved, Option.some.injEq, Instant.mk.injEq, and_true]
  omega

/-- The days of the years 1 to 9998, counted from the first of them. -/
theorem day_of_year {i : Instant} (hyear : 1 ≤ i.date.year ∧ i.date.year ≤ 9998) :
    0 ≤ i.seconds / 86400 + Date.epoch ∧ i.seconds / 86400 + Date.epoch < 3651694 := by
  have hdate : i.date.year = Date.yearOf (i.seconds / 86400 + Date.epoch) := rfl
  have hfirst : Date.daysBeforeYear 1 = 0 := by decide
  have hlast : Date.daysBeforeYear 9999 = 3651694 := by decide
  rw [hdate] at hyear
  constructor
  · have h := Date.le_yearOf_iff.mp hyear.1
    omega
  · refine Int.not_le.mp fun h => ?_
    have hlater := Date.le_yearOf_iff.mpr (hlast ▸ h)
    omega

/-- Offsets of less than a day do not lead from the years 1 to 9998 out of those with four
digits. -/
theorem year_moved {i : Instant} {minutes : Int} (hyear : 1 ≤ i.date.year ∧ i.date.year ≤ 9998)
    (hday : -1440 < minutes ∧ minutes < 1440) :
    0 ≤ (i.moved minutes).date.year ∧ (i.moved minutes).date.year ≤ 9999 := by
  have hdate : (i.moved minutes).date.year
      = Date.yearOf ((i.seconds + minutes * 60) / 86400 + Date.epoch) := rfl
  have hfirst : Date.daysBeforeYear 0 = -366 := by decide
  have hlast : Date.daysBeforeYear 10000 = 3652059 := by decide
  obtain ⟨hlow, hhigh⟩ := day_of_year hyear
  -- the day moves by one at most, and the years 0 and 9999 have more than one
  rw [hdate]
  constructor
  · refine Date.le_yearOf_iff.mpr ?_
    omega
  · refine Int.not_lt.mp fun h => ?_
    have hafter : Date.daysBeforeYear 10000 ≤ _ :=
      Date.le_yearOf_iff.mp (Int.add_one_le_iff.mpr h)
    omega

/-! ## 2. Offsets -/

/-- An offset from Greenwich as `+hh:mm` or `-hh:mm`. -/
def zoneText (west : Bool) (hours minutes : Nat) : List Char :=
  (if west then '-' else '+') :: Decimal.padded 2 hours ++ ':' :: Decimal.padded 2 minutes

/-- The minutes by which a place is east of Greenwich. -/
def zoneMinutes (west : Bool) (hours minutes : Nat) : Int :=
  (if west then -1 else 1) * ((hours : Int) * 60 + minutes)

theorem offset_zoneText (west : Bool) {hours minutes : Nat} (hhours : hours ≤ 23)
    (hminutes : minutes ≤ 59) :
    offset (zoneText west hours minutes) = some (zoneMinutes west hours minutes, []) := by
  have hlast := fixed_two (by omega : minutes < 100) []
  rw [List.append_nil] at hlast
  -- either sign gives its factor, and what follows is read alike
  cases west
  all_goals
    simp only [zoneText, Bool.false_eq_true, if_false, if_true, List.cons_append, offset]
    refine (bind_read rfl _).trans ?_
    refine (bind_read (fixed_two (by omega) _) _).trans ?_
    refine (bind_read rfl _).trans ?_
    refine (bind_read hlast _).trans ?_
    exact if_pos ⟨hhours, hminutes⟩

/-- An offset is less than a day. -/
theorem zoneMinutes_lt (west : Bool) {hours minutes : Nat} (hhours : hours ≤ 23)
    (hminutes : minutes ≤ 59) :
    -1440 < zoneMinutes west hours minutes ∧ zoneMinutes west hours minutes < 1440 := by
  unfold zoneMinutes
  split <;> omega

theorem fraction_zoneText (west : Bool) (hours minutes : Nat) :
    fraction (zoneText west hours minutes) = some (0, zoneText west hours minutes) := by
  cases west <;> rfl

/-! ## 3. The spellings -/

/-- The texts that stand for an instant of a whole second. -/
inductive Spelled (i : Instant) : List Char → Prop where
  /-- The written form. -/
  | written : Spelled i i.text.toList
  /-- Date and time of day at a place, and the offset of the place. -/
  | zoned {sep : Char} (hsep : sep ∈ ['T', 't', ' ']) (west : Bool) {hours minutes : Nat}
      (hhours : hours ≤ 23) (hminutes : minutes ≤ 59) :
      Spelled i (dateText (i.moved (zoneMinutes west hours minutes)).date ++
        sep :: (i.moved (zoneMinutes west hours minutes)).timeOfDay.text ++
        zoneText west hours minutes)
  /-- Date and time of day in Greenwich, and a letter that says so. -/
  | greenwich {sep letter : Char} (hsep : sep ∈ ['T', 't', ' ']) (hletter : letter ∈ ['Z', 'z']) :
      Spelled i (dateText i.date ++ sep :: i.timeOfDay.text ++ [letter])
  /-- Date and time of day joined by `T`. -/
  | joined : Spelled i (dateText i.date ++ 'T' :: i.timeOfDay.text)
  /-- Date and time of day with a space between them. -/
  | spaced : Spelled i (dateText i.date ++ ' ' :: i.timeOfDay.text)
  /-- The number of seconds from 1 January 1970. -/
  | counted : Spelled i (Decimal.ofInt i.seconds).toList
  /-- The date of a midnight. -/
  | dated (h : i.timeOfDay = .midnight) : Spelled i (dateText i.date)

/-! ## 4. The forms without an offset -/

theorem upTo_padded {width n : Nat} (h : (Nat.toDigits 10 n).length ≤ width) (hwidth : 0 < width)
    (rest : List Char) : upTo width (Decimal.padded width n ++ rest) = some (n, rest) := by
  have hlength := Decimal.length_padded h
  have hdigits : ∀ c ∈ Decimal.padded width n, c.isDigit = true :=
    fun c hc => Decimal.isDigit_of_mem_padded hc
  have htake : (Decimal.padded width n ++ rest).take width = Decimal.padded width n :=
    List.take_left' hlength
  have hrow : (Decimal.padded width n).takeWhile Char.isDigit = Decimal.padded width n := by
    have hstop := Text.takeWhile_append_stop hdigits (Text.stopsAt_nil Char.isDigit)
    rwa [List.append_nil] at hstop
  have hne : (Decimal.padded width n).isEmpty = false := by
    rw [← Bool.not_eq_true, List.isEmpty_iff]
    rintro h
    rw [h, List.length_nil] at hlength
    omega
  have hdrop : (Decimal.padded width n ++ rest).drop (Decimal.padded width n).length = rest :=
    List.drop_left
  simp only [upTo, htake, hrow, hne, number_padded, hdrop, Bool.false_eq_true, if_false]

/-- A number begins with a digit. -/
theorem exists_padded_eq_cons (width n : Nat) :
    ∃ c cs, Decimal.padded width n = c :: cs ∧ c.isDigit = true := by
  cases h : Decimal.padded width n with
  | nil => exact absurd (List.append_eq_nil_iff.mp h).2 Nat.toDigits_ne_nil
  | cons c cs => exact ⟨c, cs, rfl, Decimal.isDigit_of_mem_padded (h ▸ List.mem_cons_self)⟩

/-- There is nothing to skip in front of a number. -/
theorem blanks_padded (width n : Nat) (rest : List Char) :
    blanks (Decimal.padded width n ++ rest) = Decimal.padded width n ++ rest := by
  obtain ⟨c, cs, hcs, hc⟩ := exists_padded_eq_cons width n
  have hblank := not_isBlank_of_mem_padded (hcs ▸ List.mem_cons_self : c ∈ Decimal.padded width n)
  rw [hcs, List.cons_append, blanks, List.dropWhile_cons_of_neg (by simp [hblank])]

theorem short_padded {n : Nat} (h : n < 100) (rest : List Char) :
    short (Decimal.padded 2 n ++ rest) = some (n, rest) := by
  rw [short, blanks_padded]
  exact upTo_padded ((Nat.length_toDigits_le_iff (by decide) (by decide)).mpr h) (by decide) rest

/-- A year that begins with a digit has no sign, and four digits at most. -/
theorem year_of_isDigit {c : Char} (hc : c.isDigit = true) (cs : List Char) :
    year (c :: cs) = (upTo 4 (c :: cs)).map fun found => ((found.1 : Int), found.2) := by
  have hblanks : blanks (c :: cs) = c :: cs :=
    List.dropWhile_cons_of_neg (by simp [Decimal.not_isBlank_of_isDigit hc])
  rw [year, hblanks]
  split
  · rename_i h
    exact absurd (List.cons.inj h).1 (Decimal.ne_of_isDigit hc (by decide))
  · rename_i h
    exact absurd (List.cons.inj h).1 (Decimal.ne_of_isDigit hc (by decide))
  · rfl

/-- A year of four digits is read without a sign. -/
theorem year_yearText {y : Int} (h : 0 ≤ y ∧ y ≤ 9999) (rest : List Char) :
    year (yearText y ++ rest) = some (y, rest) := by
  have htext : yearText y = Decimal.padded 4 y.toNat := if_pos h
  have hread : upTo 4 (Decimal.padded 4 y.toNat ++ rest) = some (y.toNat, rest) :=
    upTo_padded ((Nat.length_toDigits_le_iff (by decide) (by decide)).mpr (by omega)) (by decide)
      rest
  obtain ⟨c, cs, hcs, hc⟩ := exists_padded_eq_cons 4 y.toNat
  have hyear : (y.toNat : Int) = y := Int.toNat_of_nonneg h.1
  rw [htext]
  rw [hcs, List.cons_append] at hread ⊢
  rw [year_of_isDigit hc, hread, Option.map_some, hyear]

/-- **A date is read where it was written.** -/
theorem looseDate_dateText {date : Date} (hyear : 0 ≤ date.year ∧ date.year ≤ 9999)
    (hdate : date.isValid = true) (rest : List Char) :
    looseDate (dateText date ++ rest) = some (date, rest) := by
  obtain ⟨hmonth, hday⟩ := Date.le_of_isValid hdate
  simp only [looseDate, dateText, List.append_assoc, List.cons_append]
  refine (bind_read (year_yearText hyear _) _).trans ?_
  refine (bind_read rfl _).trans ?_
  refine (bind_read (short_padded (by omega) _) _).trans ?_
  refine (bind_read rfl _).trans ?_
  exact bind_read (short_padded (by omega) _) _

/-- **So is a time of day.** -/
theorem looseTime_text {time : TimeOfDay}
    (htime : time.hour ≤ 23 ∧ time.minute ≤ 59 ∧ time.second ≤ 60) :
    looseTime time.text = some (time, []) := by
  obtain ⟨hhour, hminute, hsecond⟩ := htime
  have hlast := short_padded (by omega : time.second < 100) []
  rw [List.append_nil] at hlast
  simp only [looseTime, TimeOfDay.text, List.append_assoc, List.cons_append]
  refine (bind_read (short_padded (by omega) _) _).trans ?_
  refine (bind_read rfl _).trans ?_
  refine (bind_read (short_padded (by omega) _) _).trans ?_
  refine (bind_read rfl _).trans ?_
  exact bind_read hlast _

/-- Spaces before a time of day are skipped. -/
theorem looseTime_space (cs : List Char) : looseTime (' ' :: cs) = looseTime cs := rfl

section Greenwich

variable {date : Date} {time : TimeOfDay} (hyear : 0 ≤ date.year ∧ date.year ≤ 9999)
  (hdate : date.isValid = true)
  (htime : time.hour ≤ 23 ∧ time.minute ≤ 59 ∧ time.second ≤ 60)

include hyear hdate

/-- The first form misses its sign behind a date that stands alone. -/
theorem strict_dateText : strict (dateText date) = none := by
  obtain ⟨hlow, hhigh⟩ := hyear
  obtain ⟨hmonth, hday⟩ := Date.le_of_isValid hdate
  have hyearText : yearText date.year = Decimal.padded 4 date.year.toNat := if_pos ⟨hlow, hhigh⟩
  have hlast := fixed_two (by omega : date.day < 100) []
  rw [List.append_nil] at hlast
  simp only [strict, dateText, hyearText, List.append_assoc, List.cons_append]
  refine (bind_read (fixed_four (by omega) _) _).trans ?_
  refine (bind_read rfl _).trans ?_
  refine (bind_read (fixed_two (by omega) _) _).trans ?_
  refine (bind_read rfl _).trans ?_
  exact bind_read hlast _

include htime in
/-- The first form misses an offset behind the time of day. -/
theorem strict_of_no_offset {sep : Char} (hsep : sep ∈ ['T', 't', ' ']) :
    strict (dateText date ++ sep :: time.text) = none := by
  have hstrict := strict_eq hyear hdate htime hsep (rfl : fraction [] = some (0, []))
  rw [List.append_nil] at hstrict
  rw [hstrict]
  rfl

include htime in
theorem joined_text :
    joined (dateText date ++ 'T' :: time.text) = ofDateTime? date time 0 0 := by
  refine (bind_read (looseDate_dateText hyear hdate _) _).trans ?_
  refine (bind_read rfl _).trans ?_
  exact bind_read (looseTime_text htime) _

include htime in
theorem spaced_text :
    spaced (dateText date ++ ' ' :: time.text) = ofDateTime? date time 0 0 := by
  refine (bind_read (looseDate_dateText hyear hdate _) _).trans ?_
  exact bind_read ((looseTime_space _).trans (looseTime_text htime)) _

/-- The second form misses the `T` behind the date... -/
theorem joined_of_space {rest : List Char} : joined (dateText date ++ ' ' :: rest) = none :=
  bind_read (looseDate_dateText hyear hdate _) _

theorem looseDate_alone : looseDate (dateText date) = some (date, []) := by
  have hread := looseDate_dateText hyear hdate []
  rwa [List.append_nil] at hread

/-- ...also when nothing stands there. -/
theorem joined_dateText : joined (dateText date) = none :=
  bind_read (looseDate_alone hyear hdate) _

/-- The third form misses a time of day behind the date. -/
theorem spaced_dateText : spaced (dateText date) = none :=
  bind_read (looseDate_alone hyear hdate) _

theorem dateOnly_dateText : dateOnly (dateText date) = ofDateTime? date .midnight 0 0 :=
  bind_read (looseDate_alone hyear hdate) _

end Greenwich

/-! ## 5. The texts of integers -/

/-- Behind its first character, the text of an integer has digits only. -/
theorem exists_eq_cons_of_denotes {cs : List Char} {n : Int} (h : Decimal.Denotes cs n) :
    ∃ c row, cs = c :: row ∧ (c.isDigit = true ∨ c = '-' ∨ c = '+') ∧
      ∀ d ∈ row, d.isDigit = true := by
  cases h with
  | plain h =>
    obtain ⟨hne, hdigits⟩ := h
    obtain ⟨c, row, rfl⟩ := List.exists_cons_of_ne_nil hne
    exact ⟨c, row, rfl, Or.inl (hdigits c List.mem_cons_self),
      fun d hd => hdigits d (List.mem_cons_of_mem _ hd)⟩
  | plus h => exact ⟨'+', _, rfl, Or.inr (Or.inr rfl), h.2⟩
  | minus h => exact ⟨'-', _, rfl, Or.inr (Or.inl rfl), h.2⟩

/-- Where there are digits only, there is no minus sign. -/
theorem sign_of_isDigit {cs : List Char} (h : ∀ c ∈ cs, c.isDigit = true) :
    sign ['-'] cs = none := by
  cases cs with
  | nil => rfl
  | cons c cs =>
    have hc := Decimal.ne_of_isDigit (h c List.mem_cons_self) (by decide : '-'.isDigit = false)
    exact if_neg (by simpa using hc)

theorem isDigit_of_unlimited {cs rest : List Char} {n : Nat} (hcs : ∀ c ∈ cs, c.isDigit = true)
    (h : unlimited cs = some (n, rest)) : ∀ c ∈ rest, c.isDigit = true := by
  simp only [unlimited] at h
  split at h
  · cases h
  · cases h
    exact fun c hc => hcs c ((List.dropWhile_suffix _).subset hc)

/-- A number takes a character at least, so the first one is not left. -/
theorem isDigit_of_upTo {most : Nat} {c : Char} {row rest : List Char} {n : Nat}
    (hrow : ∀ d ∈ row, d.isDigit = true) (h : upTo most (c :: row) = some (n, rest)) :
    ∀ d ∈ rest, d.isDigit = true := by
  simp only [upTo] at h
  split at h
  · cases h
  · rename_i hne
    cases h
    obtain ⟨first, more, hdigits⟩ :=
      List.exists_cons_of_ne_nil fun hnil => hne (List.isEmpty_iff.mpr hnil)
    rw [hdigits, List.length_cons, List.drop_succ_cons]
    exact fun d hd => hrow d (List.mem_of_mem_drop hd)

/-- **Behind the year that begins the text of an integer there are digits only.** -/
theorem isDigit_of_year {c : Char} {row rest : List Char} {y : Int}
    (hc : c.isDigit = true ∨ c = '-' ∨ c = '+') (hrow : ∀ d ∈ row, d.isDigit = true)
    (h : year (c :: row) = some (y, rest)) : ∀ d ∈ rest, d.isDigit = true := by
  rcases hc with hc | rfl | rfl
  · rw [year_of_isDigit hc] at h
    obtain ⟨found, hfound, he⟩ := Option.map_eq_some_iff.mp h
    cases he
    exact isDigit_of_upTo hrow hfound
  · obtain ⟨found, hfound, he⟩ := Option.map_eq_some_iff.mp h
    cases he
    exact isDigit_of_unlimited hrow hfound
  · obtain ⟨found, hfound, he⟩ := Option.map_eq_some_iff.mp h
    cases he
    exact isDigit_of_unlimited hrow hfound

/-- No date begins the text of an integer... -/
theorem looseDate_of_denotes {cs : List Char} {n : Int} (h : Decimal.Denotes cs n) :
    looseDate cs = none := by
  obtain ⟨c, row, rfl, hc, hrow⟩ := exists_eq_cons_of_denotes h
  cases hyear : year (c :: row) with
  | none =>
    rw [looseDate, hyear]
    rfl
  | some found =>
    refine (bind_read hyear _).trans ?_
    change (sign ['-'] found.2 >>= _) = none
    rw [sign_of_isDigit (isDigit_of_year hc hrow hyear)]
    rfl

/-- ...not in the strict form either. -/
theorem strict_of_denotes {cs : List Char} {n : Int} (h : Decimal.Denotes cs n) :
    strict cs = none := by
  obtain ⟨c, row, rfl, -, hrow⟩ := exists_eq_cons_of_denotes h
  cases hyear : fixed 4 (c :: row) with
  | none =>
    rw [strict, hyear]
    rfl
  | some found =>
    have hrest : found.2 = row.drop 3 := by
      simp only [fixed] at hyear
      split at hyear
      · cases hyear
        rfl
      · cases hyear
    refine (bind_read hyear _).trans ?_
    change (sign ['-'] found.2 >>= _) = none
    rw [hrest, sign_of_isDigit fun d hd => hrow d (List.mem_of_mem_drop hd)]
    rfl

/-- **No calendar form takes the text of an integer.** -/
theorem calendar_of_denotes {cs : List Char} {n : Int} (h : Decimal.Denotes cs n) :
    strict cs = none ∧ joined cs = none ∧ spaced cs = none ∧ dateOnly cs = none := by
  have hdate := looseDate_of_denotes h
  refine ⟨strict_of_denotes h, ?_, ?_, ?_⟩
  · rw [joined, hdate]
    rfl
  · rw [spaced, hdate]
    rfl
  · rw [dateOnly, hdate]
    rfl

/-- The seconds of an instant are read back, if its year is in range. -/
theorem secondsOnly_ofInt {i : Instant} (hwhole : i.nanos = 0)
    (hyear : 1 ≤ i.date.year ∧ i.date.year ≤ 9998) :
    secondsOnly (Decimal.ofInt i.seconds).toList = some i := by
  obtain ⟨hlow, hhigh⟩ := day_of_year hyear
  have hrange : isYearInRange i.date.year = true := isYearInRange_of_four (by omega)
  -- the seconds of these years are far from the ends of the 64-bit integers
  have hleast : Int64.minValue.toInt = -9223372036854775808 := by decide
  have hgreatest : Int64.maxValue.toInt = 9223372036854775807 := by decide
  have hepoch : Date.epoch = 719162 := rfl
  have hread : Decimal.readInt Int64.minValue.toInt Int64.maxValue.toInt
      (Decimal.ofInt i.seconds).toList = .ok i.seconds :=
    Decimal.readInt_ofInt (by omega) (by omega)
  rw [secondsOnly, hread]
  refine (if_pos hrange).trans ?_
  obtain ⟨seconds, nanos, _⟩ := i
  subst hwhole
  rfl

/-! ## 6. All spellings -/

/-- **Each spelling is read as its instant**, when there are no blanks around it. -/
theorem ofTrimmed_of_spelled {i : Instant} (hwhole : i.nanos = 0)
    (hyear : 1 ≤ i.date.year ∧ i.date.year ≤ 9998) {t : List Char} (h : Spelled i t) :
    ofTrimmed t = some i := by
  have hfour : 0 ≤ i.date.year ∧ i.date.year ≤ 9999 := by omega
  have hdate : i.date.isValid = true := Date.isValid_ofDayNumber _
  have htime := timeOfDay_le i
  have hgiven : ofDateTime? i.date i.timeOfDay 0 0 = some i := by
    rw [ofDateTime?_date_timeOfDay (isYearInRange_of_four hfour), writtenSecond_eq_self hwhole]
  -- what the first form reads is not tried by the others
  have hfirst : ∀ {cs : List Char}, strict cs = some i → ofTrimmed cs = some i := by
    intro cs hcs
    rw [ofTrimmed, hcs]
    rfl
  cases h with
  | written =>
    refine hfirst ?_
    rw [text, String.toList_ofList, strict_spelled hfour hdate htime List.mem_cons_self rfl rfl,
      hgiven]
  | zoned hsep west hhours hminutes =>
    have hmoved := year_moved hyear (zoneMinutes_lt west hhours hminutes)
    refine hfirst ?_
    rw [strict_spelled hmoved (Date.isValid_ofDayNumber _) (timeOfDay_le _) hsep
      (fraction_zoneText _ _ _) (offset_zoneText west hhours hminutes)]
    exact ofDateTime?_moved hwhole (isYearInRange_of_four hmoved)
  | @greenwich sep letter hsep hletter =>
    have hzone : fraction [letter] = some (0, [letter]) ∧ offset [letter] = some (0, []) := by
      simp only [List.mem_cons, List.not_mem_nil, or_false] at hletter
      rcases hletter with rfl | rfl
      · exact ⟨rfl, rfl⟩
      · exact ⟨rfl, rfl⟩
    refine hfirst ?_
    rw [strict_spelled hfour hdate htime hsep hzone.1 hzone.2, hgiven]
  | joined =>
    -- from here on the forms before the right one have to refuse the text
    rw [ofTrimmed, strict_of_no_offset hfour hdate htime List.mem_cons_self,
      joined_text hfour hdate htime, hgiven]
    rfl
  | spaced =>
    rw [ofTrimmed, strict_of_no_offset hfour hdate htime (by simp),
      joined_of_space hfour hdate, spaced_text hfour hdate htime, hgiven]
    rfl
  | counted =>
    obtain ⟨hstrict, hjoined, hspaced, hdateOnly⟩ :=
      calendar_of_denotes (Decimal.denotes_ofInt i.seconds)
    rw [ofTrimmed, hstrict, hjoined, hspaced, hdateOnly, secondsOnly_ofInt hwhole hyear]
    rfl
  | dated hmidnight =>
    rw [ofTrimmed, strict_dateText hfour hdate, joined_dateText hfour hdate,
      spaced_dateText hfour hdate, dateOnly_dateText hfour hdate, ← hmidnight, hgiven]
    rfl

theorem ne_nil_dateText (date : Date) : dateText date ≠ [] := by
  simp [dateText]

theorem ne_nil_timeText (time : TimeOfDay) : time.text ≠ [] := by
  simp [TimeOfDay.text]

theorem not_isBlank_of_mem_zoneText {west : Bool} {hours minutes : Nat} {c : Char}
    (h : c ∈ zoneText west hours minutes) : Text.isBlank c = false := by
  simp only [zoneText, List.cons_append, List.mem_cons, List.mem_append] at h
  rcases h with rfl | h | rfl | h
  · cases west <;> decide
  · exact not_isBlank_of_mem_padded h
  · decide
  · exact not_isBlank_of_mem_padded h

/-- A spelling neither begins nor ends with a blank. -/
theorem isTrimmed_of_spelled {i : Instant} {t : List Char} (h : Spelled i t) :
    Text.IsTrimmed Text.isBlank t := by
  have hdate : ∀ date, ∀ c ∈ dateText date, Text.isBlank c = false :=
    fun _ _ hc => not_isBlank_of_mem_dateText hc
  have htime : ∀ time : TimeOfDay, ∀ c ∈ time.text, Text.isBlank c = false :=
    fun _ _ hc => not_isBlank_of_mem_timeText hc
  have hends : ∀ date sep (time : TimeOfDay),
      Text.IsTrimmed Text.isBlank (dateText date ++ sep :: time.text) := by
    intro date sep time
    have hthree := Text.IsTrimmed.of_ends (ne_nil_dateText date) (ne_nil_timeText time)
      (hdate date) (htime time) [sep]
    rwa [List.append_assoc, List.singleton_append] at hthree
  cases h with
  | written =>
    exact .of_forall (by simp [text]) fun c hc => not_isBlank_of_mem_text hc
  | zoned hsep west hhours hminutes =>
    exact .of_ends (ne_nil_dateText _) (by simp [zoneText]) (hdate _)
      (fun c hc => not_isBlank_of_mem_zoneText hc) _
  | @greenwich sep letter hsep hletter =>
    have hblank : ∀ c ∈ [letter], Text.isBlank c = false := by
      intro c hc
      obtain rfl := List.mem_singleton.mp hc
      simp only [List.mem_cons, List.not_mem_nil, or_false] at hletter
      rcases hletter with rfl | rfl <;> decide
    exact .of_ends (ne_nil_dateText _) (by simp) (hdate _) hblank _
  | joined => exact hends _ _ _
  | spaced => exact hends _ _ _
  | counted =>
    exact .of_forall (Decimal.ofInt_ne_nil _) fun c hc =>
      Decimal.not_isBlank_of_isNumeric (Decimal.mem_ofInt hc)
  | dated hmidnight => exact .of_forall (ne_nil_dateText _) (hdate _)

/-- **All spellings of an instant are read as that instant**, if it is a whole second of the years
1 to 9998, whatever blanks stand around them; and no form of a date takes the text of an integer,
so every such text is a number of seconds. -/
theorem spellings_agree :
    (∀ i : Instant, i.nanos = 0 → 1 ≤ i.date.year ∧ i.date.year ≤ 9998 →
      ∀ t, Spelled i t → ∀ before after, (∀ c ∈ before, Text.isBlank c = true) →
        (∀ c ∈ after, Text.isBlank c = true) →
        ofText (String.ofList (before ++ t ++ after)) = some i) ∧
      ∀ cs n, Decimal.Denotes cs n →
        strict cs = none ∧ joined cs = none ∧ spaced cs = none ∧ dateOnly cs = none := by
  constructor
  · intro i hwhole hyear t ht before after hbefore hafter
    rw [ofText, Text.toList_trim, String.toList_ofList,
      Text.trimWhere_surrounded (isTrimmed_of_spelled ht) hbefore hafter]
    exact ofTrimmed_of_spelled hwhole hyear ht
  · intro cs n h
    exact calendar_of_denotes h

/-- The midnight that begins a leap day, at a place where the day before is not over yet. -/
theorem spellings_agree_leapDay :
    let i : Instant := ⟨951782400, 0, by decide⟩
    i.nanos = 0 ∧ (1 ≤ i.date.year ∧ i.date.year ≤ 9998) ∧
      Spelled i "2000-02-28t18:30:00-05:30".toList ∧
      ofText " 2000-02-28t18:30:00-05:30\n" = some i ∧
      Decimal.Denotes "-0951".toList (-951) ∧ strict "-0951".toList = none := by
  intro i
  have hyear : 1 ≤ i.date.year ∧ i.date.year ≤ 9998 := by decide
  have hthere : i.moved (zoneMinutes true 5 30) = ⟨951762600, 0, by decide⟩ := rfl
  have htext : dateText (i.moved (zoneMinutes true 5 30)).date ++
      't' :: (i.moved (zoneMinutes true 5 30)).timeOfDay.text ++ zoneText true 5 30
      = "2000-02-28t18:30:00-05:30".toList := by
    rw [hthere]
    decide
  have hspelled : Spelled i "2000-02-28t18:30:00-05:30".toList := by
    rw [← htext]
    exact .zoned (by decide) true (by decide) (by decide)
  have hrow : Decimal.IsRow "0951".toList := ⟨by decide, List.all_eq_true.mp (by decide)⟩
  have hinteger : Decimal.Denotes "-0951".toList (-951) := .minus hrow
  refine ⟨rfl, hyear, hspelled, ?_, hinteger, (spellings_agree.2 _ _ hinteger).1⟩
  exact spellings_agree.1 i rfl hyear _ hspelled [' '] ['\n']
    (List.forall_mem_singleton.mpr (by decide)) (List.forall_mem_singleton.mpr (by decide))

end Instant
end DocSearch
