/-
# Reading instants

An instant may be spelled in five ways, and the first that fits the whole text counts: the strict
form with `T` and an offset, a date and a time joined by `T` or by blanks, a date alone, and a
number of seconds.  The three forms without an offset are read as Greenwich time; they allow
blanks before each number, one digit where two are usual, and years of any length behind a sign.
`ofText` is the reader, `ofTrimmed` the choice between the forms.
-/
import DocSearch.Text.Blank
import DocSearch.Text.Digits
import DocSearch.Document.Instant

namespace DocSearch.Instant

/-! ## 1. Numbers and signs -/

/-- A step of reading: a value and what is left of the text. -/
abbrev Step (α : Type) := List Char → Option (α × List Char)

/-- The number that a row of digits denotes. -/
def number (digits : List Char) : Nat := Text.ofDigits 10 (Text.takeDigits digits).1

/-- Reads exactly `count` digits. -/
def fixed (count : Nat) : Step Nat := fun cs =>
  let digits := cs.take count
  if digits.length = count ∧ digits.all Char.isDigit then some (number digits, cs.drop count)
  else none

/-- Reads one digit or more, `most` at most. -/
def upTo (most : Nat) : Step Nat := fun cs =>
  let digits := (cs.take most).takeWhile Char.isDigit
  if digits.isEmpty then none else some (number digits, cs.drop digits.length)

/-- Reads one digit or more. -/
def unlimited : Step Nat := fun cs =>
  let digits := cs.takeWhile Char.isDigit
  if digits.isEmpty then none else some (number digits, cs.dropWhile Char.isDigit)

/-- Reads one of the given characters. -/
def sign (allowed : List Char) : Step Unit
  | [] => none
  | c :: cs => if c ∈ allowed then some ((), cs) else none

/-- Skips blanks. -/
def blanks (cs : List Char) : List Char := cs.dropWhile Text.isBlank

/-! ## 2. The strict form -/

/-- Reads the fraction of a second, if there is one: nine digits count and further ones do not. -/
def fraction : Step Nat
  | '.' :: cs =>
    let digits := cs.takeWhile Char.isDigit
    if digits.isEmpty then none
    else
      some (number ((digits ++ List.replicate 8 '0').take 9), cs.dropWhile Char.isDigit)
  | cs => some (0, cs)

/-- Reads an offset from Greenwich in minutes. -/
def offset : Step Int
  | 'Z' :: cs => some (0, cs)
  | 'z' :: cs => some (0, cs)
  | c :: cs => do
    let factor : Int ←
      if c = '+' then some 1 else if c = '-' ∨ c = '\u2212' then some (-1) else none
    let (hours, cs) ← fixed 2 cs
    let ((), cs) ← sign [':'] cs
    let (minutes, cs) ← fixed 2 cs
    if hours ≤ 23 ∧ minutes ≤ 59 then some (factor * ((hours : Int) * 60 + minutes), cs) else none
  | [] => none

/-- Reads a date, a time and an offset. -/
def strict (cs : List Char) : Option Instant := do
  let (year, cs) ← fixed 4 cs
  let ((), cs) ← sign ['-'] cs
  let (month, cs) ← fixed 2 cs
  let ((), cs) ← sign ['-'] cs
  let (day, cs) ← fixed 2 cs
  let ((), cs) ← sign ['T', 't', ' '] cs
  let (hour, cs) ← fixed 2 cs
  let ((), cs) ← sign [':'] cs
  let (minute, cs) ← fixed 2 cs
  let ((), cs) ← sign [':'] cs
  let (second, cs) ← fixed 2 cs
  let (nanos, cs) ← fraction cs
  let (offset, cs) ← offset cs
  if cs.isEmpty then ofDateTime? ⟨year, month, day⟩ ⟨hour, minute, second⟩ nanos offset else none

/-! ## 3. The forms without an offset -/

/-- Reads a year: up to four digits, or a sign and any number of digits. -/
def year : Step Int := fun cs =>
  match blanks cs with
  | '-' :: cs => (unlimited cs).map fun found => (-(found.1 : Int), found.2)
  | '+' :: cs => (unlimited cs).map fun found => ((found.1 : Int), found.2)
  | cs => (upTo 4 cs).map fun found => ((found.1 : Int), found.2)

/-- Reads a number of one or two digits after blanks. -/
def short : Step Nat := fun cs => upTo 2 (blanks cs)

/-- Reads a date. -/
def looseDate : Step Date := fun cs => do
  let (year, cs) ← year cs
  let ((), cs) ← sign ['-'] cs
  let (month, cs) ← short cs
  let ((), cs) ← sign ['-'] cs
  let (day, cs) ← short cs
  some (⟨year, month, day⟩, cs)

/-- Reads a time of day. -/
def looseTime : Step TimeOfDay := fun cs => do
  let (hour, cs) ← short cs
  let ((), cs) ← sign [':'] cs
  let (minute, cs) ← short cs
  let ((), cs) ← sign [':'] cs
  let (second, cs) ← short cs
  some (⟨hour, minute, second⟩, cs)

/-- Reads a date and a time joined by `T`. -/
def joined (cs : List Char) : Option Instant := do
  let (date, cs) ← looseDate cs
  let ((), cs) ← sign ['T'] cs
  let (time, cs) ← looseTime cs
  if cs.isEmpty then ofDateTime? date time 0 0 else none

/-- Reads a date and a time with any number of blanks between them. -/
def spaced (cs : List Char) : Option Instant := do
  let (date, cs) ← looseDate cs
  let (time, cs) ← looseTime cs
  if cs.isEmpty then ofDateTime? date time 0 0 else none

/-- Reads a date, which stands for its midnight. -/
def dateOnly (cs : List Char) : Option Instant := do
  let (date, cs) ← looseDate cs
  if cs.isEmpty then ofDateTime? date .midnight 0 0 else none

/-- Reads a number of seconds. -/
def secondsOnly (cs : List Char) : Option Instant :=
  match Decimal.readInt Int64.minValue.toInt Int64.maxValue.toInt cs with
  | .ok seconds => ofSeconds? seconds
  | .error _ => none

/-! ## 4. All forms -/

/-- Reads an instant in the first form that fits a text without blanks at its ends. -/
def ofTrimmed (cs : List Char) : Option Instant :=
  strict cs <|> joined cs <|> spaced cs <|> dateOnly cs <|> secondsOnly cs

/-- Reads an instant in any of the five forms. -/
def ofText (s : String) : Option Instant := ofTrimmed (Text.trim s).toList

end DocSearch.Instant
