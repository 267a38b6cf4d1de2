/-
# The calendar

Days of the Gregorian calendar, extended to years before the first and beyond the ten-thousandth,
and their numbers counted from 1 January 1970.  The year of a day is guessed from the mean length
of a year and corrected by one at most.  Main statement: `daysBeforeYear_succ` (a year has
its length).
-/

namespace DocSearch

/-- A day of the calendar; months and days count from one. -/
structure Date where
  year : Int
  month : Nat
  day : Nat
deriving DecidableEq, Repr

namespace Date

/-! ## 1. Years and months -/

/-- Whether a year has a 29 February. -/
def isLeap (year : Int) : Bool :=
  year % 4 = 0 ∧ (year % 100 ≠ 0 ∨ year % 400 = 0)

/-- The days from 1 January of year 1 to 1 January of the given year. -/
def daysBeforeYear (year : Int) : Int :=
  365 * (year - 1) + (year - 1) / 4 - (year - 1) / 100 + (year - 1) / 400

/-- The days of a year. -/
def daysInYear (year : Int) : Int := if isLeap year then 366 else 365

/-- The days of a month, which counts from one. -/
def daysInMonth (leap : Bool) : Nat → Nat
  | 2 => if leap then 29 else 28
  | 4 => 30
  | 6 => 30
  | 9 => 30
  | 11 => 30
  | _ => 31

/-- The days of a year before the given month. -/
def daysBeforeMonth (leap : Bool) : Nat → Nat
  | 0 => 0
  | 1 => 0
  | month + 2 => daysBeforeMonth leap (month + 1) + daysInMonth leap (month + 1)

/-- Whether the day exists. -/
def isValid (d : Date) : Bool :=
  1 ≤ d.month ∧ d.month ≤ 12 ∧ 1 ≤ d.day ∧ d.day ≤ daysInMonth (isLeap d.year) d.month

/-- A year is as long as its last day says. -/
theorem daysBeforeYear_succ (year : Int) :
    daysBeforeYear (year + 1) = daysBeforeYear year + daysInYear year := by
  unfold daysBeforeYear daysInYear isLeap
  split <;> simp_all <;> omega

/-! ## 2. Numbers of days -/

/-- The number of 1 January 1970, counted from 1 January of year 1. -/
def epoch : Int := 719162

/-- The days from 1 January 1970 to a day. -/
def dayNumber (d : Date) : Int :=
  daysBeforeYear d.year + daysBeforeMonth (isLeap d.year) d.month + (d.day - 1 : Int) - epoch

/-- The year of the day with the given number, counted from 1 January of year 1.  400 years have
146097 days. -/
def yearOf (days : Int) : Int :=
  let guess := 400 * days / 146097 + 1
  if days < daysBeforeYear guess then guess - 1
  else if daysBeforeYear (guess + 1) ≤ days then guess + 1
  else guess

/-- The last month, up to the given one, that does not begin after the given day of the year. -/
def monthOf (leap : Bool) (dayOfYear : Nat) : (last : Nat) → Nat
  | 0 => 1
  | last + 1 =>
    if daysBeforeMonth leap (last + 1) ≤ dayOfYear then last + 1 else monthOf leap dayOfYear last

/-- The day with the given number, counted from 1 January 1970. -/
def ofDayNumber (n : Int) : Date :=
  let days := n + epoch
  let year := yearOf days
  let dayOfYear := (days - daysBeforeYear year).toNat
  let month := monthOf (isLeap year) dayOfYear 12
  ⟨year, month, dayOfYear - daysBeforeMonth (isLeap year) month + 1⟩

end Date
end DocSearch
