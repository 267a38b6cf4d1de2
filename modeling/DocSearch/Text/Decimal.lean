/-
# Decimal integers

Writing an integer in decimal, and reading one under a limit.  Reading goes from left to right
and stops at the first character that decides: a character that is no ASCII digit, or a digit
that takes the value past the limit.  Main statements: `toList_ofNat` and `ofInt_negSucc` (the
two halves of the written form).
-/

namespace DocSearch.Decimal

/-! ## 1. Writing -/

/-- The decimal digits of a natural number. -/
def ofNat (n : Nat) : String := Nat.repr n

/-- The decimal digits of an integer, after a minus sign when it is negative. -/
def ofInt : Int → String
  | .ofNat n => ofNat n
  | .negSucc n => "-" ++ ofNat (n + 1)

@[simp] theorem toList_ofNat (n : Nat) : (ofNat n).toList = Nat.toDigits 10 n := by
  simp [ofNat]

theorem ofInt_negSucc (n : Nat) : (ofInt (.negSucc n)).toList = '-' :: Nat.toDigits 10 (n + 1) := by
  simp [ofInt]

/-- The decimal digits of a number, with zeros in front up to the given width. -/
def padded (width n : Nat) : List Char :=
  let digits := Nat.toDigits 10 n
  List.replicate (width - digits.length) '0' ++ digits

/-! ## 2. Reading -/

/-- Why a text is not an integer of the wanted range. -/
inductive Fault where
  | empty
  | invalidDigit
  | tooLarge
  | tooSmall
deriving DecidableEq, Repr

/-- The wording of a fault. -/
def Fault.message : Fault → String
  | .empty => "cannot parse integer from empty string"
  | .invalidDigit => "invalid digit found in string"
  | .tooLarge => "number too large to fit in target type"
  | .tooSmall => "number too small to fit in target type"

/-- The value of an ASCII digit. -/
def digit? (c : Char) : Option Nat :=
  if '0' ≤ c ∧ c ≤ '9' then some (c.toNat - '0'.toNat) else none

/-- The value of a row of digits that continues `value`, as long as it stays within `limit`. -/
def readDigits (limit : Nat) (beyond : Fault) : (value : Nat) → List Char → Except Fault Nat
  | value, [] => .ok value
  | value, c :: cs =>
    match digit? c with
    | none => .error .invalidDigit
    | some d =>
      if value * 10 + d ≤ limit then readDigits limit beyond (value * 10 + d) cs else .error beyond

/-- Reads a row of at least one digit. -/
def readMagnitude (limit : Nat) (beyond : Fault) : List Char → Except Fault Nat
  | [] => .error .invalidDigit
  | c :: cs => readDigits limit beyond 0 (c :: cs)

/-- Reads an integer from `least` to `greatest` with an optional sign. -/
def readInt (least greatest : Int) : List Char → Except Fault Int
  | [] => .error .empty
  | '-' :: cs => (readMagnitude least.natAbs .tooSmall cs).map fun n => -(n : Int)
  | '+' :: cs => (readMagnitude greatest.toNat .tooLarge cs).map fun n => (n : Int)
  | c :: cs => (readMagnitude greatest.toNat .tooLarge (c :: cs)).map fun n => (n : Int)

/-- Reads a natural number up to `greatest` with an optional plus sign. -/
def readNat (greatest : Nat) : List Char → Except Fault Nat
  | [] => .error .empty
  | '+' :: cs => readMagnitude greatest .tooLarge cs
  | c :: cs => readMagnitude greatest .tooLarge (c :: cs)

/-- Reads a 64-bit signed integer. -/
def readInt64 (s : String) : Except Fault Int64 :=
  (readInt Int64.minValue.toInt Int64.maxValue.toInt s.toList).map Int64.ofInt

/-- Reads a 32-bit signed integer. -/
def readInt32 (s : String) : Except Fault Int32 :=
  (readInt Int32.minValue.toInt Int32.maxValue.toInt s.toList).map Int32.ofInt

/-- Reads a 32-bit unsigned integer. -/
def readUInt32 (s : String) : Except Fault UInt32 :=
  (readNat (UInt32.size - 1) s.toList).map UInt32.ofNat

end DocSearch.Decimal
