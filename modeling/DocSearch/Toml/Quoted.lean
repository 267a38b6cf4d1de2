/-
# Quoted text in TOML

TOML has four kinds of strings: basic ones with escapes, literal ones without, and a form of each
that may run over several lines.  A text is written in the plainest form that holds it without an
escape; only when none does, characters are escaped.  Keys need no quotes when they are made of
letters, digits, underscores and hyphens.
-/
import DocSearch.Text.Digits

namespace DocSearch.Toml

/-! ## 1. What a text holds -/

/-- Whether a character can only be written as an escape: a control character other than tab and
line feed. -/
def needsEscape (c : Char) : Bool :=
  (c.toNat < 0x20 && c != '\t' && c != '\n') || c = '\x7f'

/-- The length of the longest run of `c`, when a run of length `run` ends where the text
starts. -/
def longestRun (c : Char) : (run : Nat) → List Char → Nat
  | run, [] => run
  | run, a :: cs =>
    if a = c then longestRun c (run + 1) cs else max run (longestRun c 0 cs)

/-- The forms of a string. -/
inductive Form where
  | basic
  | literal
  | basicLines
  | literalLines
deriving DecidableEq, Repr

/-- The form in which a text is written. -/
def form (cs : List Char) : Form :=
  let escapes := cs.any needsEscape
  let backslash := cs.contains '\\'
  let lines := cs.contains '\n'
  let quotes := longestRun '"' 0 cs
  let apostrophes := longestRun '\'' 0 cs
  if !escapes && !backslash && quotes == 0 && !lines then .basic
  else if !escapes && apostrophes == 0 && !lines then .literal
  else if !escapes && !backslash && quotes ≤ 2 then .basicLines
  else if !escapes && apostrophes ≤ 2 then .literalLines
  else if lines then .basicLines
  else .basic

/-! ## 2. Strings -/

/-- The escaped form of a character in a basic string that stands on several lines or not. -/
def escapeChar (lines : Bool) (c : Char) : List Char :=
  if c = '\\' then ['\\', '\\']
  else if c = '\t' then ['\\', 't']
  else if c = '\n' then (if lines then ['\n'] else ['\\', 'n'])
  else if c = '\r' then ['\\', 'r']
  else if c = '\x08' then ['\\', 'b']
  else if c = '\x0c' then ['\\', 'f']
  else if needsEscape c then
    ['\\', 'u', '0', '0', Text.upperHex (c.toNat / 16), Text.upperHex (c.toNat % 16)]
  else [c]

/-- The escaped form of a text after `run` quotes in a row: a quote is escaped when it would be
the third of several lines, or any quote of one line. -/
def escapeText (lines : Bool) : (run : Nat) → List Char → List Char
  | _, [] => []
  | run, c :: cs =>
    if c = '"' then
      if lines && run < 2 then '"' :: escapeText lines (run + 1) cs
      else '\\' :: '"' :: escapeText lines 0 cs
    else escapeChar lines c ++ escapeText lines 0 cs

/-- A text that runs over several lines starts on a line of its own. -/
def firstBreak (cs : List Char) : List Char := if cs.contains '\n' then ['\n'] else []

/-- A text in a given form. -/
def writtenIn (cs : List Char) : Form → List Char
  | .basic => ['"'] ++ escapeText false 0 cs ++ ['"']
  | .literal => ['\''] ++ cs ++ ['\'']
  | .basicLines => ['"', '"', '"'] ++ firstBreak cs ++ escapeText true 0 cs ++ ['"', '"', '"']
  | .literalLines => ['\'', '\'', '\''] ++ firstBreak cs ++ cs ++ ['\'', '\'', '\'']

/-- A text as a TOML string. -/
def quoted (s : String) : String := String.ofList (writtenIn s.toList (form s.toList))

/-! ## 3. Keys -/

/-- Whether a character may stand in a key without quotes. -/
def isBareChar (c : Char) : Bool := c.isAlphanum || c = '_' || c = '-'

/-- The form of a key that needs quotes; it stays on one line. -/
def keyForm (cs : List Char) : Form :=
  let escapes := cs.any fun c => needsEscape c || c = '\n'
  if !escapes && !cs.contains '\\' && !cs.contains '"' then .basic
  else if !escapes && !cs.contains '\'' then .literal
  else .basic

/-- A text as a TOML key. -/
def key (s : String) : String :=
  let cs := s.toList
  if !cs.isEmpty && cs.all isBareChar then s else String.ofList (writtenIn cs (keyForm cs))

end DocSearch.Toml
