/-
# Dates and times in TOML

A date, a time of day, or both, and with both an offset from Greenwich.  All numbers have a fixed
width; between date and time stands a `T` of either case or a space.  What is read is kept as
parts and written in one form only: `T` between date and time, `Z` for either case of it, no zeros
at the end of a fraction.
-/
import DocSearch.Document.Instant.Reader

namespace DocSearch.Toml

open Instant (Step fixed sign)

/-! ## 1. Parts -/

/-- A distance from Greenwich. -/
inductive Offset where
  /-- The sign for Greenwich itself. -/
  | greenwich
  /-- Minutes east. -/
  | minutes (n : Int)
deriving DecidableEq, Repr

/-- A time of day with its nanoseconds. -/
structure Clock where
  time : Instant.TimeOfDay
  nanos : Nat
deriving DecidableEq, Repr

/-- What a date or time says. -/
inductive DateTime where
  | date (d : Date)
  | clock (c : Clock)
  | both (d : Date) (c : Clock) (offset : Option Offset)
deriving DecidableEq, Repr

/-! ## 2. Reading -/

/-- Reads a day that exists. -/
def takeDate : Step Date := fun cs => do
  let (year, cs) ← fixed 4 cs
  let ((), cs) ← sign ['-'] cs
  let (month, cs) ← fixed 2 cs
  let ((), cs) ← sign ['-'] cs
  let (day, cs) ← fixed 2 cs
  if (Date.mk year month day).isValid then some (⟨year, month, day⟩, cs) else none

/-- Reads hours and minutes. -/
def takeMinutes : Step (Nat × Nat) := fun cs => do
  let (hour, cs) ← fixed 2 cs
  let ((), cs) ← sign [':'] cs
  let (minute, cs) ← fixed 2 cs
  if hour ≤ 23 ∧ minute ≤ 59 then some ((hour, minute), cs) else none

/-- Reads a time of day; of its fraction nine digits count. -/
def takeClock : Step Clock := fun cs => do
  let ((hour, minute), cs) ← takeMinutes cs
  let ((), cs) ← sign [':'] cs
  let (second, cs) ← fixed 2 cs
  let (nanos, cs) ← Instant.fraction cs
  if second ≤ 60 then some (⟨⟨hour, minute, second⟩, nanos⟩, cs) else none

/-- Reads a whole text as an offset; the empty text is none. -/
def readOffset? : List Char → Option (Option Offset)
  | [] => some none
  | ['Z'] => some (some .greenwich)
  | ['z'] => some (some .greenwich)
  | c :: cs => do
    let factor : Int ← if c = '+' then some 1 else if c = '-' then some (-1) else none
    let ((hours, minutes), cs) ← takeMinutes cs
    if cs.isEmpty then some (some (.minutes (factor * ((hours : Int) * 60 + minutes)))) else none

namespace DateTime

/-- Reads a whole text as a date, a time of day, or both. -/
def ofText? (cs : List Char) : Option DateTime :=
  match takeDate cs with
  | some (d, []) => some (.date d)
  | some (d, cs) => do
    let ((), cs) ← sign ['T', 't', ' '] cs
    let (c, cs) ← takeClock cs
    let offset ← readOffset? cs
    some (.both d c offset)
  | none => do
    let (c, cs) ← takeClock cs
    if cs.isEmpty then some (.clock c) else none

end DateTime

/-! ## 3. The written form -/

/-- A number of nanoseconds behind a point, without zeros at its end. -/
def fractionText (nanos : Nat) : List Char :=
  if nanos = 0 then [] else '.' :: Text.dropEndWhile (· = '0') (Decimal.padded 9 nanos)

/-- A time of day as `HH:MM:SS` with its fraction. -/
def Clock.text (c : Clock) : List Char := c.time.text ++ fractionText c.nanos

/-- An offset as `Z`, or with its sign as `+HH:MM`. -/
def Offset.text : Offset → List Char
  | .greenwich => ['Z']
  | .minutes n =>
    (if n < 0 then '-' else '+') ::
      (Decimal.padded 2 (n.natAbs / 60) ++ ':' :: Decimal.padded 2 (n.natAbs % 60))

/-- A date or time in its one written form. -/
def DateTime.text : DateTime → List Char
  | .date d => Instant.dateText d
  | .clock c => c.text
  | .both d c offset =>
    Instant.dateText d ++ 'T' :: c.text ++ (offset.map Offset.text).getD []

end DocSearch.Toml
