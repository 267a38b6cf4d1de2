/-
# Reading TOML scalars

Strings in their four forms, and the words that are truth values, numbers, dates and times.  A
string is read in two steps: its raw text up to the closing quotes, then its escapes.  A word is
everything up to the next blank, comma, bracket or comment, and is judged as a whole.
-/
import DocSearch.Json.Basic
import DocSearch.Text.Blank
import DocSearch.Text.Digits
import DocSearch.Toml.DateTime

namespace DocSearch.Toml

/-- Why a text is not TOML. -/
inductive Fault where
  | badString
  | badEscape
  /-- A word that is no value. -/
  | badWord (word : String)
  | badKey
  | valueExpected
  | equalsExpected
  | closingExpected
  | lineEndExpected
  | tooDeep
  /-- The key or table has been given before. -/
  | duplicate (name : String)
  /-- A path leads through something that is no table. -/
  | notTable (name : String)
  /-- The document is not the record that was expected. -/
  | unexpected
deriving DecidableEq, Repr

/-- The wording of a fault. -/
def Fault.message : Fault → String
  | .badString => "invalid string"
  | .badEscape => "invalid escape sequence"
  | .badWord word => "invalid value '" ++ word ++ "'"
  | .badKey => "invalid key"
  | .valueExpected => "expected a value"
  | .equalsExpected => "expected an equals sign"
  | .closingExpected => "expected a comma or a closing bracket"
  | .lineEndExpected => "expected the end of the line"
  | .tooDeep => "recursion limit exceeded"
  | .duplicate name => "duplicate key " ++ name
  | .notTable name => name ++ " is not a table"
  | .unexpected => "unexpected value"

/-- What a reader makes of the front of a text, and the rest. -/
abbrev Scan (α : Type) := Except Fault (α × List Char)

/-! ## 1. Characters -/

/-- Whether a character may stand between the tokens of a line. -/
def isGap (c : Char) : Bool := c = ' ' || c = '\t'

/-- What is left of a text after the blanks at its front. -/
def skipGap (cs : List Char) : List Char := cs.dropWhile isGap

/-- Whether a character may stand in a comment or in a string of one line. -/
def isLineChar (c : Char) : Bool := c = '\t' || (0x20 ≤ c.toNat && c != '\x7f')

/-- What is left of a text after a line break at its front, if there is one. -/
def dropBreak? : List Char → Option (List Char)
  | '\n' :: cs => some cs
  | '\r' :: '\n' :: cs => some cs
  | _ => none

/-! ## 2. Escapes -/

/-- The character whose number is given in `digits` hexadecimal digits at the front of a text. -/
def numberedChar (digits : Nat) (cs : List Char) : Scan Char :=
  match if digits ≤ cs.length then Text.number? 16 (cs.take digits) else none with
  | some n => if n.isValidChar then .ok (Char.ofNat n, cs.drop digits) else .error .badEscape
  | none => .error .badEscape

/-- What follows a backslash. -/
def escaped : List Char → Scan Char
  | 'b' :: cs => .ok ('\x08', cs)
  | 't' :: cs => .ok ('\t', cs)
  | 'n' :: cs => .ok ('\n', cs)
  | 'f' :: cs => .ok ('\x0c', cs)
  | 'r' :: cs => .ok ('\r', cs)
  | '"' :: cs => .ok ('"', cs)
  | '\\' :: cs => .ok ('\\', cs)
  | 'u' :: cs => numberedChar 4 cs
  | 'U' :: cs => numberedChar 8 cs
  | _ => .error .badEscape

/-- The text that a raw text with escapes stands for.  A backslash at the end of a line takes
away the break and all blanks and breaks after it. -/
def unescape : (fuel : Nat) → List Char → Except Fault (List Char)
  | 0, _ => .ok []
  | _, [] => .ok []
  | fuel + 1, '\\' :: cs =>
    if (skipGap cs).head? = some '\n' then
      unescape fuel (cs.dropWhile fun c => isGap c || c = '\n')
    else
      match escaped cs with
      | .error fault => .error fault
      | .ok (c, rest) => (unescape fuel rest).map (c :: ·)
  | fuel + 1, c :: cs => (unescape fuel cs).map (c :: ·)

/-! ## 3. Strings -/

/-- The raw text up to a quote; in a basic string a backslash keeps the character after it from
ending the string. -/
def takeUntil (quote : Char) (basic : Bool) : List Char → Scan (List Char)
  | [] => .error .badString
  | c :: cs =>
    if c = quote then .ok ([], cs)
    else if !isLineChar c then .error .badString
    else if c = '\\' && basic then
      match cs with
      | [] => .error .badString
      | e :: cs =>
        if isLineChar e then
          (takeUntil quote basic cs).map fun found => (c :: e :: found.1, found.2)
        else .error .badString
    else (takeUntil quote basic cs).map fun found => (c :: found.1, found.2)

/-- The raw text of several lines up to three quotes, with line feeds as breaks.  Of more quotes
in a row the last three end the text. -/
def takeLines (quote : Char) (basic : Bool) : List Char → Scan (List Char)
  | a :: b :: c :: cs =>
    if a = quote && b = quote && c = quote then
      match cs with
      | d :: e :: rest =>
        if d = quote && e = quote then .ok ([quote, quote], rest)
        else if d = quote then .ok ([quote], e :: rest)
        else .ok ([], cs)
      | [d] => if d = quote then .ok ([quote], []) else .ok ([], [d])
      | [] => .ok ([], [])
    else if a = '\\' && basic then
      if b = '\r' && c = '\n' then
        (takeLines quote basic cs).map fun found => (a :: '\n' :: found.1, found.2)
      else if isLineChar b || b = '\n' then
        (takeLines quote basic (c :: cs)).map fun found => (a :: b :: found.1, found.2)
      else .error .badString
    else if a = '\r' && b = '\n' then
      (takeLines quote basic (c :: cs)).map fun found => ('\n' :: found.1, found.2)
    else if isLineChar a || a = '\n' then
      (takeLines quote basic (b :: c :: cs)).map fun found => (a :: found.1, found.2)
    else .error .badString
  | _ => .error .badString

/-- Undoes the escapes of a basic string. -/
def finish (basic : Bool) (found : List Char × List Char) : Scan String :=
  if basic then
    (unescape found.1.length found.1).map fun text => (String.ofList text, found.2)
  else .ok (String.ofList found.1, found.2)

/-- The string of one line after its opening quote. -/
def shortString (quote : Char) (cs : List Char) : Scan String :=
  (takeUntil quote (quote = '"') cs).bind (finish (quote = '"'))

/-- The string of several lines after its opening quotes; a break right there is no part of it. -/
def longString (quote : Char) (cs : List Char) : Scan String :=
  (takeLines quote (quote = '"') ((dropBreak? cs).getD cs)).bind (finish (quote = '"'))

/-- The string after its first quote. -/
def string (quote : Char) : List Char → Scan String
  | a :: b :: cs =>
    if a = quote && b = quote then longString quote cs else shortString quote (a :: b :: cs)
  | cs => shortString quote cs

/-! ## 4. Numbers -/

/-- The digits of a number without the underscores between them. -/
def withoutUnderscores : (afterDigit : Bool) → List Char → Option (List Char)
  | afterDigit, [] => if afterDigit then some [] else none
  | afterDigit, c :: cs =>
    if c = '_' then (if afterDigit then withoutUnderscores false cs else none)
    else (withoutUnderscores true cs).map (c :: ·)

/-- The value of a row of digits with underscores between them. -/
def digits? (base : Nat) (cs : List Char) : Option Nat :=
  (withoutUnderscores false cs).bind (Text.number? base)

/-- The value of a row of decimal digits that starts with a zero only alone. -/
def whole? (cs : List Char) : Option Nat :=
  if cs.head? = some '0' && 1 < cs.length then none else digits? 10 cs

/-- An integer that fits 64 bits. -/
def fitting (n : Int) : Option Json :=
  if Int64.minValue.toInt ≤ n ∧ n ≤ Int64.maxValue.toInt then some (.int n) else none

/-- The integer that a word denotes. -/
def integer? (word : List Char) : Option Json :=
  match word with
  | '0' :: 'x' :: cs => (digits? 16 cs).bind fun n => fitting n
  | '0' :: 'o' :: cs => (digits? 8 cs).bind fun n => fitting n
  | '0' :: 'b' :: cs => (digits? 2 cs).bind fun n => fitting n
  | word =>
    let (negative, cs) := Text.takeSign word
    (whole? cs).bind fun n => fitting (if negative then -(n : Int) else n)

/-- The exponent after its letter. -/
def exponent? (cs : List Char) : Option Int :=
  let (negative, cs) := Text.takeSign cs
  (digits? 10 cs).map fun n => if negative then -(n : Int) else n

/-- The parts of a float before and after its point, without underscores. -/
def mantissa? (cs : List Char) : Option (List Char × List Char) :=
  match Text.splitOnce ['.'] cs with
  | none => (whole? cs).bind fun _ => (withoutUnderscores false cs).map fun ds => (ds, [])
  | some (before, after) => do
    let _ ← whole? before
    let _ ← digits? 10 after
    let whole ← withoutUnderscores false before
    let fraction ← withoutUnderscores false after
    some (whole, fraction)

/-- The float that a word denotes.  A number without a point and without an exponent is none, and
an infinity is only what is spelled so. -/
def float? (word : List Char) : Option Json :=
  let (negative, cs) := Text.takeSign word
  let isMark := fun c => c = 'e' || c = 'E'
  if cs = ['i', 'n', 'f'] then some (.float (.infinite negative))
  else if cs = ['n', 'a', 'n'] then some (.float .nan)
  else if !cs.any fun c => c = '.' || isMark c then none
  else
    let mantissa := cs.takeWhile fun c => !isMark c
    let exponent := match cs.dropWhile fun c => !isMark c with
      | [] => some 0
      | _ :: cs => exponent? cs
    match mantissa? mantissa, exponent with
    | some (whole, fraction), some e =>
      (Text.number? 10 (whole ++ fraction)).bind fun n =>
        match Double.ofDecimal negative n (e - fraction.length) with
        | .infinite false => none
        | x => some (.float x)
    | _, _ => none

/-! ## 5. Words -/

/-- Whether a character belongs to a word. -/
def isWordChar (c : Char) : Bool :=
  c.isAlphanum || c = '_' || c = '+' || c = '-' || c = '.' || c = ':'

/-- The word at the front of a text.  A date is one word with a time after one space. -/
def takeWord (cs : List Char) : List Char × List Char :=
  let word := cs.takeWhile isWordChar
  match cs.dropWhile isWordChar with
  | ' ' :: a :: b :: rest =>
    if (takeDate word).any (fun found => found.2.isEmpty) && a.isDigit && b.isDigit then
      let time := a :: b :: rest
      (word ++ ' ' :: time.takeWhile isWordChar, time.dropWhile isWordChar)
    else (word, ' ' :: a :: b :: rest)
  | rest => (word, rest)

/-- The key of the table that stands for a date or time. -/
def dateTimeKey : String := "$__toml_private_datetime"

/-- A date or time as a table with its text. -/
def DateTime.toJson (t : DateTime) : Json := .obj [(dateTimeKey, .str (String.ofList t.text))]

/-- The value that a word denotes. -/
def wordValue? (word : List Char) : Option Json :=
  if word = "true".toList then some (.bool true)
  else if word = "false".toList then some (.bool false)
  else ((DateTime.ofText? word).map DateTime.toJson).or ((integer? word).or (float? word))

end DocSearch.Toml
