/-
# Instants

An instant is a number of seconds from 1 January 1970 and of nanoseconds within the second.  A
leap second is the second `:59` with a further thousand million nanoseconds, and is written
`:60`.  Any other second may have them too, and is written as the next one.  The written form leaves
the part of a second out; a year outside 0 to 9999 has a sign.
-/
import DocSearch.Text.Decimal
import DocSearch.Document.Calendar

namespace DocSearch

/-- A point in time. -/
structure Instant where
  /-- Whole seconds from 1 January 1970, 00:00:00. -/
  seconds : Int
  /-- Nanoseconds within the second; a thousand million and more within a leap second. -/
  nanos : Nat
  nanos_lt : nanos < 2000000000 := by omega
deriving DecidableEq, Repr

namespace Instant

/-! ## 1. Dates and times of day -/

/-- 1 January 1970, 00:00:00. -/
def epoch : Instant := ⟨0, 0, by decide⟩

instance : Inhabited Instant := ⟨epoch⟩

/-- A time of day as it is written: the second is 60 within a leap second. -/
structure TimeOfDay where
  hour : Nat
  minute : Nat
  second : Nat
deriving DecidableEq, Repr

/-- Midnight. -/
def TimeOfDay.midnight : TimeOfDay := ⟨0, 0, 0⟩

/-- The least year of an instant that is read. -/
def leastYear : Int := -262143

/-- The greatest year of an instant that is read. -/
def greatestYear : Int := 262142

/-- Whether instants of the year are read. -/
def isYearInRange (year : Int) : Bool := leastYear ≤ year ∧ year ≤ greatestYear

/-- The instant of a date and a time of day, `offset` minutes east of Greenwich, if there is one.
A second 60 is the last of a minute with a thousand million nanoseconds more. -/
def ofDateTime? (date : Date) (time : TimeOfDay) (nanos : Nat) (offset : Int) : Option Instant :=
  let day := date.dayNumber * 86400 + ((time.hour : Int) * 60 + time.minute - offset) * 60
  if date.isValid ∧ isYearInRange date.year ∧ time.hour ≤ 23 ∧ time.minute ≤ 59 then
    if h : time.second ≤ 59 ∧ nanos < 1000000000 then
      some ⟨day + time.second, nanos, by omega⟩
    else if h : time.second = 60 ∧ nanos < 1000000000 then
      some ⟨day + 59, nanos + 1000000000, by omega⟩
    else none
  else none

/-- The instant a number of seconds from 1 January 1970, if its year is in range. -/
def ofSeconds? (seconds : Int) : Option Instant :=
  if isYearInRange (Date.ofDayNumber (seconds / 86400)).year then
    some ⟨seconds, 0, by decide⟩
  else none

/-! ## 2. The written form -/

/-- A year: four digits from 0 to 9999, and otherwise a sign and at least four digits. -/
def yearText (year : Int) : List Char :=
  if 0 ≤ year ∧ year ≤ 9999 then Decimal.padded 4 year.toNat
  else (if year < 0 then '-' else '+') :: Decimal.padded 4 year.natAbs

/-- The date of an instant in Greenwich. -/
def date (i : Instant) : Date := Date.ofDayNumber (i.seconds / 86400)

/-- The time of day of an instant in Greenwich. -/
def timeOfDay (i : Instant) : TimeOfDay :=
  let second := (i.seconds % 86400).toNat
  ⟨second / 3600, second / 60 % 60, second % 60 + i.nanos / 1000000000⟩

/-- A date as `YYYY-MM-DD`. -/
def dateText (date : Date) : List Char :=
  yearText date.year ++ '-' :: Decimal.padded 2 date.month ++ '-' :: Decimal.padded 2 date.day

/-- A time of day as `HH:MM:SS`. -/
def TimeOfDay.text (time : TimeOfDay) : List Char :=
  Decimal.padded 2 time.hour ++ ':' :: Decimal.padded 2 time.minute ++
    ':' :: Decimal.padded 2 time.second

/-- The instant as `YYYY-MM-DDTHH:MM:SSZ`. -/
def text (i : Instant) : String :=
  String.ofList (dateText i.date ++ 'T' :: i.timeOfDay.text ++ ['Z'])

end Instant
end DocSearch
