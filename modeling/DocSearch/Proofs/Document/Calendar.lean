/-
# Days found again from their numbers

Every number of days, before or after 1970, is the number of exactly the day that `ofDayNumber`
gives, and that day exists.

The year is the only place with an argument in it.  It is guessed from the mean length of a year,
and because leap years are spread evenly, the guess misses by one year at most; so one comparison
on each side makes it exact (`daysBeforeYear_yearOf`).  The month is then the last one that does
not begin after the day (`holds_monthOf`).

Main statements: `isValid_ofDayNumber`, `dayNumber_ofDayNumber`.
-/
import DocSearch.Document.Calendar

namespace DocSearch
namespace Date

/-! ## 1. Years -/

/-- **The year of a day begins no later than the day, and the next year begins after it.** -/
theorem daysBeforeYear_yearOf (days : Int) :
    daysBeforeYear (yearOf days) ≤ days ∧ days < daysBeforeYear (yearOf days + 1) := by
  unfold yearOf
  dsimp only
  split
  · unfold daysBeforeYear at *
    omega
  split
  · unfold daysBeforeYear at *
    omega
  · omega

theorem daysBeforeYear_le {year later : Int} (h : year ≤ later) :
    daysBeforeYear year ≤ daysBeforeYear later := by
  unfold daysBeforeYear
  omega

/-- A day lies in a year or after it exactly when it does not lie before the first day of the
year. -/
theorem le_yearOf_iff {year days : Int} : year ≤ yearOf days ↔ daysBeforeYear year ≤ days := by
  obtain ⟨hbegun, hbefore⟩ := daysBeforeYear_yearOf days
  constructor
  · intro h
    exact Int.le_trans (daysBeforeYear_le h) hbegun
  · intro h
    refine Int.not_lt.mp fun hearlier => ?_
    have hnext := daysBeforeYear_le (by omega : yearOf days + 1 ≤ year)
    omega

/-- A year is as long as its twelve months. -/
theorem daysInYear_eq (year : Int) : daysInYear year = daysBeforeMonth (isLeap year) 13 := by
  unfold daysInYear
  cases isLeap year <;> rfl

/-! ## 2. Months -/

section Months

variable (leap : Bool) (dayOfYear : Nat)

theorem one_le_monthOf (last : Nat) : 1 ≤ monthOf leap dayOfYear last := by
  induction last with
  | zero => exact Nat.le_refl 1
  | succ last ih =>
    rw [monthOf]
    split
    · exact Nat.succ_pos last
    · exact ih

theorem monthOf_le (last : Nat) : monthOf leap dayOfYear (last + 1) ≤ last + 1 := by
  induction last with
  | zero =>
    rw [monthOf]
    split
    · exact Nat.le_refl 1
    · exact Nat.le_refl 1
  | succ last ih =>
    rw [monthOf]
    split
    · exact Nat.le_refl _
    · exact Nat.le_succ_of_le ih

/-- The month of a day does not begin after it. -/
theorem daysBeforeMonth_monthOf (last : Nat) :
    daysBeforeMonth leap (monthOf leap dayOfYear last) ≤ dayOfYear := by
  induction last with
  | zero => exact Nat.zero_le dayOfYear
  | succ last ih =>
    rw [monthOf]
    split
    · assumption
    · exact ih

variable {leap dayOfYear}

/-- Later months do. -/
theorem lt_daysBeforeMonth {month last : Nat} (hlater : monthOf leap dayOfYear last < month)
    (hlast : month ≤ last) : dayOfYear < daysBeforeMonth leap month := by
  induction last with
  | zero =>
    have hone := one_le_monthOf leap dayOfYear 0
    omega
  | succ last ih =>
    rw [monthOf] at hlater
    split at hlater
    · omega
    · rename_i hbegins
      rcases Nat.lt_or_ge last month with hlt | hle
      · obtain rfl : month = last + 1 := by omega
        exact Nat.lt_of_not_le hbegins
      · exact ih hlater hle

/-- **The month of a day holds it**, if the day lies in the year at all. -/
theorem holds_monthOf {month : Nat} (h : dayOfYear < daysBeforeMonth leap 13)
    (hmonth : month = monthOf leap dayOfYear 12) :
    daysBeforeMonth leap month ≤ dayOfYear ∧
      dayOfYear < daysBeforeMonth leap month + daysInMonth leap month := by
  subst hmonth
  refine ⟨daysBeforeMonth_monthOf leap dayOfYear 12, ?_⟩
  have hone := one_le_monthOf leap dayOfYear 12
  have hnext : dayOfYear < daysBeforeMonth leap (monthOf leap dayOfYear 12 + 1) := by
    rcases Nat.lt_or_eq_of_le (monthOf_le leap dayOfYear 11) with hlt | hlast
    · exact lt_daysBeforeMonth (Nat.lt_succ_self _) hlt
    · rw [hlast]
      exact h
  obtain ⟨before, hbefore⟩ := Nat.exists_eq_add_of_le' hone
  rw [hbefore] at hnext ⊢
  exact hnext

end Months

/-! ## 3. Days -/

/-- The day of the year, as `ofDayNumber` computes it, lies in the year. -/
theorem dayOfYear_spec {n year : Int} {dayOfYear : Nat} (hyear : year = yearOf (n + epoch))
    (hday : dayOfYear = (n + epoch - daysBeforeYear year).toNat) :
    n + epoch = daysBeforeYear year + dayOfYear ∧
      dayOfYear < daysBeforeMonth (isLeap year) 13 := by
  obtain ⟨hbegun, hbefore⟩ := daysBeforeYear_yearOf (n + epoch)
  rw [← hyear, daysBeforeYear_succ, daysInYear_eq] at hbefore
  rw [← hyear] at hbegun
  omega

/-- A day that exists has a month and a day of two digits. -/
theorem le_of_isValid {d : Date} (h : d.isValid = true) : d.month ≤ 12 ∧ d.day ≤ 31 := by
  rw [isValid, decide_eq_true_eq] at h
  have hmonth : daysInMonth (isLeap d.year) d.month ≤ 31 := by
    unfold daysInMonth
    split <;> (try split) <;> decide
  omega

/-- **The day with any number exists.** -/
theorem isValid_ofDayNumber (n : Int) : (ofDayNumber n).isValid = true := by
  obtain ⟨-, hin⟩ := dayOfYear_spec (n := n) rfl rfl
  obtain ⟨hbegins, hends⟩ := holds_monthOf hin rfl
  rw [isValid, decide_eq_true_eq]
  refine ⟨one_le_monthOf _ _ 12, monthOf_le _ _ 11, Nat.succ_pos _, ?_⟩
  dsimp only [ofDayNumber]
  omega

/-- **...and has that number.** -/
theorem dayNumber_ofDayNumber (n : Int) : (ofDayNumber n).dayNumber = n := by
  obtain ⟨hsum, hin⟩ := dayOfYear_spec (n := n) rfl rfl
  obtain ⟨hbegins, -⟩ := holds_monthOf hin rfl
  dsimp only [dayNumber, ofDayNumber]
  omega

end Date
end DocSearch
