/-
# Double-precision numbers

A double is `m · 2^q` with a significand of at most 53 bits, or an infinity, or no number.
Everything is exact arithmetic on natural numbers: a ratio is rounded to the nearest double
(a half goes to the even neighbour), and a double is written with the fewest decimal digits that
round back to it.  Where the decimal point goes, and which of two equally near decimals is taken,
is a `Layout`, one per output format.
-/
import DocSearch.Text.Decimal

namespace DocSearch

/-- A binary floating-point number of 64 bits. -/
inductive Double where
  /-- The value `± significand · 2 ^ exponent`. -/
  | finite (negative : Bool) (significand : Nat) (exponent : Int)
  | infinite (negative : Bool)
  | nan
deriving DecidableEq, Repr, Inhabited

namespace Double

/-! ## 1. Rounding -/

/-- A power of ten. -/
def tenTo (k : Nat) : Nat := Nat.pow 10 k

/-- Which of two equally near numbers is taken. -/
inductive Tie where
  /-- The even one. -/
  | even
  /-- The greater one. -/
  | up
deriving DecidableEq, Repr

/-- Whether a tie goes to the smaller of two neighbours. -/
def Tie.isDown (tie : Tie) (smaller : Nat) : Bool :=
  match tie with
  | .even => smaller % 2 = 0
  | .up => false

/-- The natural number nearest to `num / den`. -/
def nearest (tie : Tie) (num den : Nat) : Nat :=
  let quotient := num / den
  let twice := 2 * (num % den)
  if twice < den ∨ (twice = den ∧ tie.isDown quotient) then quotient else quotient + 1

/-- The least exponent of a double, that of the subnormal numbers. -/
def leastExponent : Int := -1074

/-- The greatest exponent of a double with a 53-bit significand. -/
def greatestExponent : Int := 971

/-- The greatest `e` with `2 ^ e ≤ num / den`, for positive arguments. -/
def ratioLog2 (num den : Nat) : Int :=
  let e : Int := (Nat.log2 num : Int) - Nat.log2 den
  if den <<< e.toNat ≤ num <<< (-e).toNat then e else e - 1

/-- The double nearest to `num / den`, for a positive denominator. -/
def ofRatio (negative : Bool) (num den : Nat) : Double :=
  if num = 0 then .finite negative 0 leastExponent
  else
    let q := max (ratioLog2 num den - 52) leastExponent
    let m := nearest .even (num <<< (-q).toNat) (den <<< q.toNat)
    let (m, q) := if m = 1 <<< 53 then (1 <<< 52, q + 1) else (m, q)
    if q > greatestExponent then .infinite negative else .finite negative m q

/-- The double nearest to a natural number, with the given sign. -/
def ofNat (negative : Bool) (n : Nat) : Double := ofRatio negative n 1

/-- Whether a double is a zero of either sign. -/
def isZero : Double → Bool
  | .finite _ 0 _ => true
  | _ => false

/-- Whether a double is an ordinary number. -/
def isFinite : Double → Bool
  | .finite .. => true
  | _ => false

/-- The same number with the opposite sign. -/
def negate : Double → Double
  | .finite s m q => .finite (!s) m q
  | .infinite s => .infinite (!s)
  | .nan => .nan

/-- The double nearest to the product of a finite double and a power of ten that is itself
rounded to a double first. -/
def timesPowerOfTen (x : Double) (k : Nat) : Double :=
  match x, ofNat false (tenTo k) with
  | .finite s m q, .finite _ n r =>
    ofRatio s ((m * n) <<< (q + r).toNat) (1 <<< (-(q + r)).toNat)
  | .finite s _ _, _ => .infinite s
  | x, _ => x

/-- The double nearest to the quotient of a finite double by a power of ten that is itself
rounded to a double first. -/
def overPowerOfTen (x : Double) (k : Nat) : Double :=
  match x, ofNat false (tenTo k) with
  | .finite s m q, .finite _ n r =>
    ofRatio s (m <<< (q - r).toNat) (n <<< (r - q).toNat)
  | .finite s _ _, _ => .finite s 0 leastExponent
  | x, _ => x

/-- The double nearest to `digits · 10 ^ exponent`.  Exponents that no double reaches are cut
short, so that the powers stay small. -/
def ofDecimal (negative : Bool) (digits : Nat) (exponent : Int) : Double :=
  if digits = 0 then .finite negative 0 leastExponent
  else if exponent > 400 then .infinite negative
  else if exponent + (Nat.log2 digits : Int) < -1200 then .finite negative 0 leastExponent
  else ofRatio negative (digits * tenTo exponent.toNat) (tenTo (-exponent).toNat)

/-! ## 2. The fewest digits -/

/-- Digits and exponent of the value `digits · 10 ^ exponent`. -/
structure Decimal where
  digits : Nat
  exponent : Int
deriving DecidableEq, Repr, Inhabited

/-- The multiple of `10 ^ k` next to `m · 2 ^ q` that rounds to it, the nearer one of two.  In units
of `2 ^ (q - 2)` the value is `4 m`, and what rounds to it lies from `4 m - 2` to `4 m + 2`; just
above a power of two the doubles below are twice as dense, and the lower end is `4 m - 1`. -/
def neighbour? (tie : Tie) (m : Nat) (q k : Int) : Option Nat :=
  let scale := tenTo (-k).toNat <<< (q - 2).toNat
  let unit := tenTo k.toNat <<< (2 - q).toNat
  let low := if m = 1 <<< 52 ∧ q > leastExponent then 4 * m - 1 else 4 * m - 2
  let inside := fun c : Nat =>
    if m % 2 = 0 then decide (low * scale ≤ c * unit ∧ c * unit ≤ (4 * m + 2) * scale)
    else decide (low * scale < c * unit ∧ c * unit < (4 * m + 2) * scale)
  let below := 4 * m * scale / unit
  let first := nearest tie (4 * m * scale) unit
  let second := if first = below then below + 1 else below
  if inside first then some first else if inside second then some second else none

/-- Tries coarser grids first. -/
def shortestFrom (tie : Tie) (m : Nat) (q : Int) : (fuel : Nat) → (k : Int) → Decimal
  | 0, k => ⟨0, k⟩
  | fuel + 1, k =>
    match neighbour? tie m q k with
    | some c => ⟨c, k⟩
    | none => shortestFrom tie m q fuel (k - 1)

/-- The decimal with the fewest digits that rounds to `m · 2 ^ q`, the nearest of several.  The
first grid tried is coarser than the value, and seventeen digits always suffice. -/
def shortest (tie : Tie) (m : Nat) (q : Int) : Decimal :=
  shortestFrom tie m q 25 (((Nat.log2 m : Int) + q + 1) * 30103 / 100000 + 1)

/-! ## 3. Layout -/

/-- Which digits are taken, where the decimal point goes and how an exponent is written. -/
structure Layout where
  /-- Which of two equally near decimals is taken. -/
  tie : Tie
  /-- Least decimal exponent written positionally. -/
  leastPlain : Int
  /-- Least decimal exponent too large to be written positionally. -/
  leastLarge : Int
  /-- Sign written before an exponent that is not negative. -/
  positiveSign : List Char
  infinity : List Char
  nan : List Char

/-- A decimal without an exponent; a whole number ends in `.0`. -/
def positional (d : Decimal) : List Char :=
  let digits := Nat.toDigits 10 d.digits
  let point : Int := (digits.length : Int) + d.exponent
  if d.exponent ≥ 0 then digits ++ List.replicate d.exponent.toNat '0' ++ ['.', '0']
  else if point > 0 then digits.take point.toNat ++ '.' :: digits.drop point.toNat
  else ['0', '.'] ++ List.replicate (-point).toNat '0' ++ digits

/-- A decimal with one digit before the point and an exponent. -/
def scientific (layout : Layout) (d : Decimal) : List Char :=
  let digits := Nat.toDigits 10 d.digits
  let e : Int := (digits.length : Int) - 1 + d.exponent
  let tail := digits.drop 1
  let sign := if e < 0 then ['-'] else layout.positiveSign
  digits.take 1 ++ (if tail.isEmpty then [] else '.' :: tail) ++
    'e' :: sign ++ Nat.toDigits 10 e.natAbs

/-- The text of a double in the given layout. -/
def text (layout : Layout) : Double → List Char
  | .nan => layout.nan
  | .infinite s => (if s then ['-'] else []) ++ layout.infinity
  | .finite s m q =>
    (if s then ['-'] else []) ++
      (if m = 0 then ['0', '.', '0']
       else
        let d := shortest layout.tie m q
        let e : Int := ((Nat.toDigits 10 d.digits).length : Int) - 1 + d.exponent
        if layout.leastPlain ≤ e ∧ e < layout.leastLarge then positional d
        else scientific layout d)

end Double
end DocSearch
