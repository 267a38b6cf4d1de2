/-
# Reading JSON text

The reader is strict: no leading zero, no trailing comma, no raw control character in a string,
no blank but space, tab, carriage return and line feed, nothing after the value.  It works on
what is left of the text and gives back what it did not use.  Values that the text spells but
that nothing can hold (see `Json.unreadable`) do not make it fail; `settle` refuses them where a
value is wanted.

A number without fraction and exponent is an integer when it fits 64 bits, signed or unsigned,
and is not `-0`; every other number is a double.  The double is computed from the leading digits
that fit 64 bits and one rounded multiplication or division by a power of ten.
-/
import DocSearch.Text.Digits
import DocSearch.Json.Basic
import DocSearch.Json.Fault

namespace DocSearch.Json

/-- What a reader makes of the front of a text, and the rest. -/
abbrev Scan (α : Type) := Except Fault (α × List Char)

/-! ## 1. Numbers -/

/-- The parts of a number as the text spells it. -/
structure Numeral where
  negative : Bool
  /-- Digits before the point. -/
  whole : List Nat
  /-- Digits after the point, if there is a point. -/
  fraction : Option (List Nat)
  /-- The decimal exponent, if there is one. -/
  exponent : Option Int
deriving DecidableEq, Repr

/-- The digits before the point: one or more, and a zero only alone. -/
def scanWhole (cs : List Char) : Scan (List Nat) :=
  match Text.takeDigits cs with
  | ([], []) => .error (.before .endsBeforeValue [])
  | ([], rest) => .error (.upon .badNumber rest)
  | (0 :: _ :: _, _) => .error (.upon .badNumber (cs.drop 1))
  | found => .ok found

/-- One or more digits after a point or in an exponent. -/
def scanDigits (cs : List Char) : Scan (List Nat) :=
  match Text.takeDigits cs with
  | ([], []) => .error (.before .endsBeforeValue [])
  | ([], rest) => .error (.upon .badNumber rest)
  | found => .ok found

/-- The digits after a point, if a point follows. -/
def scanFraction : List Char → Scan (Option (List Nat))
  | '.' :: cs => (scanDigits cs).map fun found => (some found.1, found.2)
  | cs => .ok (none, cs)

/-- The exponent, if one follows. -/
def scanExponent : List Char → Scan (Option Int)
  | [] => .ok (none, [])
  | c :: cs =>
    if c = 'e' ∨ c = 'E' then
      let (negative, cs) := Text.takeSign cs
      (scanDigits cs).map fun found =>
        let size : Int := Text.ofDigits 10 found.1
        (some (if negative then -size else size), found.2)
    else .ok (none, c :: cs)

/-- The number at the front of a text, after its sign. -/
def scanUnsigned (negative : Bool) (cs : List Char) : Scan Numeral :=
  (scanWhole cs).bind fun (whole, cs) =>
  (scanFraction cs).bind fun (fraction, cs) =>
  (scanExponent cs).map fun (exponent, cs) => (⟨negative, whole, fraction, exponent⟩, cs)

/-- The number at the front of a text. -/
def scanNumeral : List Char → Scan Numeral
  | '-' :: cs => scanUnsigned true cs
  | cs => scanUnsigned false cs

/-- Extends a significand by the digits that keep it within 64 bits, up to the first that does
not; what is left are the digits from there on. -/
def fitDigits : (significand : Nat) → List Nat → Nat × List Nat
  | significand, [] => (significand, [])
  | significand, d :: digits =>
    if significand * 10 + d < UInt64.size then fitDigits (significand * 10 + d) digits
    else (significand, d :: digits)

/-- Scales a double by a power of ten: one rounded step within the range of the table of powers,
steps of 308 below it.  Nothing when the result is too large. -/
def scale : (fuel : Nat) → Double → Int → Option Double
  | 0, x, _ => some x
  | fuel + 1, x, e =>
    if 0 ≤ e ∧ e ≤ 308 then
      match x.timesPowerOfTen e.toNat with
      | .infinite _ => none
      | y => some y
    else if -308 ≤ e ∧ e < 0 then some (x.overPowerOfTen (-e).toNat)
    else if x.isZero then some x
    else if 0 ≤ e then none
    else scale fuel (x.overPowerOfTen 308) (e + 308)

/-- The double that a number denotes, or nothing when it is too large. -/
def Numeral.double (n : Numeral) : Option Double :=
  let (significand, dropped) := fitDigits 0 n.whole
  let fraction := n.fraction.getD []
  let (significand, beyond) := fitDigits significand fraction
  let e : Int := (dropped.length : Int) - ((fraction.length : Int) - beyond.length)
    + n.exponent.getD 0
  (scale 4 (Double.ofNat false significand) e).map fun x => if n.negative then x.negate else x

/-- The value of a number. -/
def Numeral.value (n : Numeral) : Json :=
  let size := Text.ofDigits 10 n.whole
  let float := match n.double with
    | some x => Json.float x
    | none => .unreadable
  if n.fraction.isSome ∨ n.exponent.isSome ∨ UInt64.size ≤ size then float
  else if !n.negative then .int size
  else if size = 0 ∨ 1 <<< 63 < size then .float (Double.ofNat true size)
  else .int (-size)

/-! ## 2. Strings -/

/-- A character of a string, or the 16-bit unit of a numeric escape. -/
inductive Piece where
  | char (c : Char)
  | unit (n : Nat)
deriving DecidableEq, Repr

/-- The value of four hexadecimal digits. -/
def hexUnit? (a b c d : Char) : Option Nat := Text.number? 16 [a, b, c, d]

/-- What the character after a backslash stands for. -/
def escaped? : Char → Option Char
  | '"' => some '"'
  | '\\' => some '\\'
  | '/' => some '/'
  | 'b' => some '\x08'
  | 'f' => some '\x0c'
  | 'n' => some '\n'
  | 'r' => some '\r'
  | 't' => some '\t'
  | _ => none

/-- The pieces of a string up to its closing quote, after those already `seen` (last first). -/
def scanPieces : List Char → (seen : List Piece) → Scan (List Piece)
  | [], _ => .error (.before .endsInString [])
  | '"' :: cs, seen => .ok (seen.reverse, cs)
  | '\\' :: 'u' :: a :: b :: c :: d :: cs, seen =>
    match hexUnit? a b c d with
    | some n => scanPieces cs (.unit n :: seen)
    | none => .error (.before .badEscape cs)
  | '\\' :: 'u' :: _, _ => .error (.before .endsInString [])
  | '\\' :: e :: cs, seen =>
    match escaped? e with
    | some c => scanPieces cs (.char c :: seen)
    | none => .error (.upon .badEscape (e :: cs))
  | c :: cs, seen =>
    if c = '\\' then .error (.before .endsInString [])
    else if c.toNat < 0x20 then .error (.upon .controlCharacter (c :: cs))
    else scanPieces cs (.char c :: seen)

/-- Whether a unit is the first half of a surrogate pair. -/
def isLead (n : Nat) : Bool := 0xD800 ≤ n && n ≤ 0xDBFF

/-- Whether a unit is the second half of a surrogate pair. -/
def isTrail (n : Nat) : Bool := 0xDC00 ≤ n && n ≤ 0xDFFF

/-- The character that two halves of a surrogate pair denote. -/
def pairChar (lead trail : Nat) : Char :=
  Char.ofNat (0x10000 + (lead - 0xD800) * 0x400 + (trail - 0xDC00))

/-- The characters of a row of pieces, after those already `made` (last first); nothing when a
half of a surrogate pair stands alone. -/
def joinPieces : List Piece → (made : List Char) → Option (List Char)
  | [], made => some made.reverse
  | .char c :: pieces, made => joinPieces pieces (c :: made)
  | .unit n :: pieces, made =>
    if isLead n then
      match pieces with
      | .unit m :: pieces =>
        if isTrail m then joinPieces pieces (pairChar n m :: made) else none
      | _ => none
    else if isTrail n then none
    else joinPieces pieces (Char.ofNat n :: made)

/-- The string after an opening quote; its text is missing when it is unreadable. -/
def scanString (cs : List Char) : Scan (Option String) :=
  (scanPieces cs []).map fun found => ((joinPieces found.1 []).map String.ofList, found.2)

/-! ## 3. Values -/

/-- Whether a character may stand between the tokens of a JSON text. -/
def isGap (c : Char) : Bool := c = ' ' || c = '\t' || c = '\n' || c = '\r'

/-- What is left of a text after the blanks at its front. -/
def skipGap (cs : List Char) : List Char := cs.dropWhile isGap

/-- The object with the given members; unreadable when a key is. -/
def ofMembers (members : List (Option String × Json)) : Json :=
  if members.all fun m => m.1.isSome then
    .obj (members.map fun m => (m.1.getD "", m.2))
  else .unreadable

/-- The rest of a word whose first letter has been read. -/
def scanWord : (letters cs : List Char) → Except Fault (List Char)
  | [], cs => .ok cs
  | _ :: _, [] => .error (.before .endsBeforeValue [])
  | a :: letters, c :: cs =>
    if a = c then scanWord letters cs else .error (.upon .wordExpected (c :: cs))

/-- The key at the front of a text, and what follows its colon. -/
def scanKey : List Char → Scan (Option String)
  | [] => .error (.before .endsBeforeValue [])
  | '"' :: cs =>
    (scanString cs).bind fun (key, cs) =>
      match skipGap cs with
      | ':' :: cs => .ok (key, skipGap cs)
      | [] => .error (.before .endsInObject [])
      | cs => .error (.upon .colonExpected cs)
  | cs => .error (.upon .keyExpected cs)

/-- Refuses a closing bracket right after a comma. -/
def afterComma (closing : Char) (cs : List Char) : Except Fault (List Char) :=
  if cs.head? = some closing then .error (.upon .trailingComma cs) else .ok cs

mutual

/-- The value at the front of a text that starts with no blank.  `depth` is how many more levels
of nesting can be held; a container beyond them is read over and unreadable. -/
def readValue : (fuel depth : Nat) → List Char → Scan Json
  | 0, _, cs => .error (.before .valueExpected cs)
  | fuel + 1, depth, cs =>
    match cs with
    | [] => .error (.before .endsBeforeValue [])
    | '"' :: cs =>
      (scanString cs).map fun found => ((found.1.map Json.str).getD .unreadable, found.2)
    | '[' :: cs =>
      match skipGap cs with
      | [] => .error (.before .endsInList [])
      | ']' :: cs => .ok (if depth = 0 then .unreadable else .arr [], cs)
      | cs =>
        (readItems fuel (depth - 1) cs).map fun found =>
          (if depth = 0 then .unreadable else .arr found.1, found.2)
    | '\x7b' :: cs =>
      match skipGap cs with
      | [] => .error (.before .endsInObject [])
      | '\x7d' :: cs => .ok (if depth = 0 then .unreadable else .obj [], cs)
      | cs =>
        (readMembers fuel (depth - 1) cs).map fun found =>
          (if depth = 0 then .unreadable else ofMembers found.1, found.2)
    | 't' :: cs => (scanWord ['r', 'u', 'e'] cs).map fun cs => (.bool true, cs)
    | 'f' :: cs => (scanWord ['a', 'l', 's', 'e'] cs).map fun cs => (.bool false, cs)
    | 'n' :: cs => (scanWord ['u', 'l', 'l'] cs).map fun cs => (.null, cs)
    | c :: cs =>
      if c = '-' ∨ c.isDigit then
        (scanNumeral (c :: cs)).map fun found => (found.1.value, found.2)
      else .error (.upon .valueExpected (c :: cs))

/-- The items of a list up to its closing bracket; the text starts with the first item. -/
def readItems : (fuel depth : Nat) → List Char → Scan (List Json)
  | 0, _, cs => .error (.before .valueExpected cs)
  | fuel + 1, depth, cs =>
    match readValue fuel depth cs with
    | .error fault => .error fault
    | .ok (item, cs) =>
      match skipGap cs with
      | [] => .error (.before .endsInList [])
      | ']' :: cs => .ok ([item], cs)
      | ',' :: cs =>
        match afterComma ']' (skipGap cs) with
        | .error fault => .error fault
        | .ok cs => (readItems fuel depth cs).map fun found => (item :: found.1, found.2)
      | cs => .error (.upon .listCommaExpected cs)

/-- The members of an object up to its closing brace; the text starts with the first key. -/
def readMembers : (fuel depth : Nat) → List Char → Scan (List (Option String × Json))
  | 0, _, cs => .error (.before .valueExpected cs)
  | fuel + 1, depth, cs =>
    match scanKey cs with
    | .error fault => .error fault
    | .ok (key, cs) =>
      match readValue fuel depth cs with
      | .error fault => .error fault
      | .ok (value, cs) =>
        match skipGap cs with
        | [] => .error (.before .endsInObject [])
        | '\x7d' :: cs => .ok ([(key, value)], cs)
        | ',' :: cs =>
          match afterComma '\x7d' (skipGap cs) with
          | .error fault => .error fault
          | .ok cs =>
            (readMembers fuel depth cs).map fun found => ((key, value) :: found.1, found.2)
        | cs => .error (.upon .objectCommaExpected cs)

end

/-- How many levels of nesting a text may have. -/
def nestingLimit : Nat := 127

/-- The tree of a JSON text with the given limit on its nesting. -/
def readWithin (depth : Nat) (text : String) : Except Fault Json :=
  let cs := text.toList
  match readValue (2 * cs.length + 2) depth (skipGap cs) with
  | .error fault => .error fault
  | .ok (j, rest) =>
    match skipGap rest with
    | [] => .ok j
    | rest => .error (.upon .trailingText rest)

/-- The tree of a JSON text. -/
def read (text : String) : Except Fault Json := readWithin nestingLimit text

/-- The value of a JSON text. -/
def parse (text : String) : Option Json := (read text).toOption.bind settle

end DocSearch.Json
