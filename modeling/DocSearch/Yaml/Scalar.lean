/-
# Scalars in YAML

A string is written plainly when the plain text reads back as that string.  It does not when the
text is empty or spells a null, a truth value or a number (`readsOtherwise`), or when its
characters mean something to YAML where they stand (`isPlainAllowed`).  The next choice is single
quotes, and double quotes with escapes hold everything.  A text with a line feed is a block.
-/
import DocSearch.Number.Double
import DocSearch.Text.Digits

namespace DocSearch.Yaml

/-! ## 1. Texts that read as something else -/

/-- The words that are null or truth values. -/
def reservedWords : List String :=
  ["null", "Null", "NULL", "~", "true", "True", "TRUE", "false", "False", "FALSE"]

/-- The spellings of infinity and of no number, without sign. -/
def specialNumbers : List String := [".inf", ".Inf", ".INF", ".nan", ".NaN", ".NAN"]

/-- Whether a text begins with a sign. -/
def startsWithSign : List Char → Bool
  | '-' :: _ => true
  | '+' :: _ => true
  | _ => false

/-- The value of a text that begins with a mark of its base. -/
def basedNumber? : List Char → Option Nat
  | '0' :: 'x' :: cs => Text.number? 16 cs
  | '0' :: 'o' :: cs => Text.number? 8 cs
  | '0' :: 'b' :: cs => Text.number? 2 cs
  | _ => none

/-- Whether a text is an integer of 128 bits with a mark of its base. -/
def isBasedInteger (cs : List Char) : Bool :=
  match cs with
  | '-' :: cs => (basedNumber? cs).any (· ≤ 1 <<< 127)
  | '+' :: cs => (basedNumber? cs).any (· < 1 <<< 128)
  | cs => (basedNumber? cs).any (· < 1 <<< 128)

/-- Whether a text is more than one digit, the first a zero, after an optional sign. -/
def isZeroLed (cs : List Char) : Bool :=
  let digits := if startsWithSign cs then cs.drop 1 else cs
  digits.head? == some '0' && 1 < digits.length && digits.all Char.isDigit

/-- The value of the exponent that ends a number; nothing when the text is no exponent. -/
def exponent? : List Char → Option Int
  | [] => some 0
  | c :: cs =>
    let (negative, digits) := Text.takeSign cs
    if c = 'e' ∨ c = 'E' then
      (Text.number? 10 digits).map fun n => if negative then -(n : Int) else n
    else none

/-- The number that a text without sign denotes. -/
def decimal? (cs : List Char) : Option Double :=
  let (whole, rest) := Text.takeDigits cs
  let (fraction, rest) := match rest with
    | '.' :: rest => Text.takeDigits rest
    | rest => ([], rest)
  if whole.isEmpty && fraction.isEmpty then none
  else
    (exponent? rest).map fun e =>
      Double.ofDecimal false (Text.ofDigits 10 (whole ++ fraction)) (e - fraction.length)

/-- Whether a text is a decimal number within the range of doubles. -/
def isDecimal (cs : List Char) : Bool :=
  let unsigned := if startsWithSign cs then cs.drop 1 else cs
  (decimal? unsigned).any Double.isFinite

/-- Whether a text is one of the special numbers, an infinity possibly with a sign. -/
def isSpecialNumber (cs : List Char) : Bool :=
  specialNumbers.contains (String.ofList cs) ||
    (startsWithSign cs && (specialNumbers.take 3).contains (String.ofList (cs.drop 1)))

/-- Whether a plain text reads as something other than itself. -/
def readsOtherwise (cs : List Char) : Bool :=
  cs.isEmpty || reservedWords.contains (String.ofList cs) || isBasedInteger cs || isZeroLed cs ||
    isDecimal cs || isSpecialNumber cs

/-! ## 2. Characters with a meaning -/

/-- Whether a character ends a line. -/
def isBreak (c : Char) : Bool :=
  c = '\n' || c = '\r' || c = '\u0085' || c = '\u2028' || c = '\u2029'

/-- Whether a character separates tokens. -/
def isSeparator (c : Char) : Bool := c = ' ' || c = '\t' || isBreak c

/-- Whether a character may stand unescaped: all but controls other than the line feed, the byte
order mark and the last two code points of the basic plane. -/
def isPrintable (c : Char) : Bool :=
  c = '\n' || (0x20 ≤ c.toNat && c.toNat ≤ 0x7E) ||
    (0xA0 ≤ c.toNat && c.toNat != 0xFEFF && c.toNat != 0xFFFE && c.toNat != 0xFFFF)

/-- Characters that open something other than a plain text. -/
def openers : List Char :=
  ['#', ',', '[', ']', '\x7b', '\x7d', '&', '*', '!', '|', '>', '\'', '"', '%', '@', '\x60']

/-- Whether a text is at its end or goes on with a separator. -/
def endsToken (cs : List Char) : Bool := (cs.head?).all isSeparator

/-- Whether the start of a text has a meaning of its own. -/
def startsWithMark (cs : List Char) : Bool :=
  ['-', '-', '-'].isPrefixOf cs || ['.', '.', '.'].isPrefixOf cs ||
    match cs with
    | [] => false
    | c :: rest =>
      openers.contains c || ((c = '?' || c = ':' || c = '-') && endsToken rest)

/-- Whether a colon ends a token, or a number sign starts one, in a text that follows `before`. -/
def holdsMark (before : Char) : List Char → Bool
  | [] => false
  | c :: cs =>
    (c = ':' && endsToken cs) || (c = '#' && isSeparator before) || holdsMark c cs

/-- Whether `p` holds of two neighbours in a text. -/
def hasNeighbours (p : Char → Char → Bool) : List Char → Bool
  | a :: b :: cs => p a b || hasNeighbours p (b :: cs)
  | _ => false

/-- Whether a text has a space right before a break. -/
def hasSpaceBreak (cs : List Char) : Bool := hasNeighbours (fun a b => a = ' ' && isBreak b) cs

/-- Whether a text has a space right after a break. -/
def hasBreakSpace (cs : List Char) : Bool := hasNeighbours (fun a b => isBreak a && b = ' ') cs

/-- Whether every character may stand unescaped, and lines end where they seem to. -/
def isShowable (cs : List Char) : Bool := cs.all isPrintable && !hasSpaceBreak cs

/-- Whether a text may stand between single quotes. -/
def isSingleAllowed (cs : List Char) : Bool := isShowable cs && !hasBreakSpace cs

/-- Whether a text may stand without quotes. -/
def isPlainAllowed (cs : List Char) : Bool :=
  isSingleAllowed cs && !cs.any isBreak && cs.head? != some ' ' && cs.getLast? != some ' ' &&
    !startsWithMark cs && !holdsMark (cs.headD ' ') (cs.drop 1)

/-- Whether a text may stand as a block of lines. -/
def isBlockAllowed (cs : List Char) : Bool := isShowable cs && cs.getLast? != some ' '

/-! ## 3. Styles -/

/-- The ways to write a string. -/
inductive Style where
  | plain
  | single
  | double
  | block
deriving DecidableEq, Repr

/-- How a string is written. -/
def style (cs : List Char) : Style :=
  if cs.contains '\n' then
    if isBlockAllowed cs then .block else .double
  else if !readsOtherwise cs && isPlainAllowed cs then .plain
  else if isSingleAllowed cs then .single
  else .double

/-! ## 4. Quotes and blocks -/

/-- A number in upper-case hexadecimal digits, with zeros up to the given width. -/
def hexText : (width n : Nat) → List Char
  | 0, _ => []
  | width + 1, n => hexText width (n / 16) ++ [Text.upperHex (n % 16)]

/-- Characters with an escape of their own. -/
def shortEscapes : List (Char × Char) :=
  [('\x00', '0'), ('\x07', 'a'), ('\x08', 'b'), ('\t', 't'), ('\n', 'n'), ('\x0b', 'v'),
   ('\x0c', 'f'), ('\r', 'r'), ('\x1b', 'e'), ('"', '"'), ('\\', '\\'), ('\u0085', 'N'),
   ('\u00a0', '_'), ('\u2028', 'L'), ('\u2029', 'P')]

/-- The escaped form of a character between double quotes. -/
def escape (c : Char) : List Char :=
  if isPrintable c && !isBreak c && c != '"' && c != '\\' then [c]
  else
    match shortEscapes.lookup c with
    | some e => ['\\', e]
    | none =>
      if c.toNat ≤ 0xFF then '\\' :: 'x' :: hexText 2 c.toNat
      else '\\' :: 'u' :: hexText 4 c.toNat

/-- A character between single quotes: the quote stands twice. -/
def doubled (c : Char) : List Char := if c = '\'' then ['\'', '\''] else [c]

/-- A text cut behind each of its breaks; of the breaks only a line feed is dropped. -/
def rows (cs : List Char) : List (List Char) :=
  cs.foldr
    (fun c rows =>
      if c = '\n' then [] :: rows
      else if isBreak c then [c] :: rows
      else match rows with
        | [] => [[c]]
        | row :: rows => (c :: row) :: rows)
    [[]]

/-- The rows of a text without an empty one at its end. -/
def linesOf (cs : List Char) : List (List Char) :=
  let lines := rows cs
  if lines.getLast? = some [] then lines.dropLast else lines

/-- A line two columns further in; a line without a character stays as it is. -/
def indent (line : List Char) : List Char :=
  if line.all isBreak then line else ' ' :: ' ' :: line

/-- The lines after the first, two columns further in. -/
def hang : List (List Char) → List (List Char)
  | [] => []
  | line :: lines => line :: lines.map indent

/-- What a block says of its first and last line: the indentation when the text starts with a
blank, and how many breaks end it when it is not exactly one. -/
def blockHints (cs : List Char) : List Char :=
  let first := if cs.head?.any fun c => c = ' ' || isBreak c then ['2'] else []
  let last := match cs.reverse with
    | [] => ['-']
    | c :: before =>
      if !isBreak c then ['-']
      else if (before.head?).all isBreak then ['+']
      else []
  first ++ last

/-- The lines of a string; those after the first belong two columns further in than what holds
the string. -/
def scalar (s : String) : List (List Char) :=
  let cs := s.toList
  match style cs with
  | .plain => [cs]
  | .single => hang (rows ('\'' :: cs.flatMap doubled ++ ['\'']))
  | .double => ['"' :: cs.flatMap escape ++ ['"']]
  | .block => hang (('|' :: blockHints cs) :: linesOf cs)

/-- Whether a text can stand as a key on the line of its value: it has no break and at most 128
bytes. -/
def isShortKey (s : String) : Bool := !s.toList.any isBreak && s.utf8ByteSize ≤ 128

/-! ## 5. Laws -/

end DocSearch.Yaml
