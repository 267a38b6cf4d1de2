/-
# Faults of JSON text

Why a text is not JSON, and where a reader of it stopped.  A reader holds only what is left of
the text, so the place is given as the number of bytes left; `place` turns it into a line and a
column of the whole text, both counted in bytes.
-/
import DocSearch.Text.Decimal

namespace DocSearch.Json

/-! ## 1. Causes -/

/-- Why a text is not JSON. -/
inductive Cause where
  /-- The text ends where a value has to be. -/
  | endsBeforeValue
  | endsInString
  | endsInList
  | endsInObject
  | valueExpected
  /-- A word other than `true`, `false` and `null`. -/
  | wordExpected
  | colonExpected
  | listCommaExpected
  | objectCommaExpected
  | keyExpected
  | trailingComma
  | trailingText
  | badNumber
  | badEscape
  | controlCharacter
deriving DecidableEq, Repr

/-- The wording of a cause. -/
def Cause.wording : Cause → String
  | .endsBeforeValue => "EOF while parsing a value"
  | .endsInString => "EOF while parsing a string"
  | .endsInList => "EOF while parsing a list"
  | .endsInObject => "EOF while parsing an object"
  | .valueExpected => "expected value"
  | .wordExpected => "expected ident"
  | .colonExpected => "expected `:`"
  | .listCommaExpected => "expected `,` or `]`"
  | .objectCommaExpected => "expected `,` or `\x7d`"
  | .keyExpected => "key must be a string"
  | .trailingComma => "trailing comma"
  | .trailingText => "trailing characters"
  | .badNumber => "invalid number"
  | .badEscape => "invalid escape"
  | .controlCharacter => "control character (\\u0000-\\u001F) found while parsing a string"

/-! ## 2. Places -/

/-- The number of bytes of a text. -/
def byteCount (cs : List Char) : Nat := (String.ofList cs).utf8ByteSize

/-- Where a reader stopped, and why. -/
structure Fault where
  cause : Cause
  /-- How many bytes of the text were left. -/
  left : Nat
deriving DecidableEq, Repr

/-- A fault found when all of `rest` was left. -/
def Fault.before (cause : Cause) (rest : List Char) : Fault := ⟨cause, byteCount rest⟩

/-- A fault found on the first byte of `rest`, if there is one. -/
def Fault.upon (cause : Cause) (rest : List Char) : Fault := ⟨cause, byteCount rest - 1⟩

/-- The line and column after `size` bytes of a text, when `line` lines and `column` bytes of
the current one came before it. -/
def place (line column : Nat) : (size : Nat) → List Char → Nat × Nat
  | 0, _ => (line, column)
  | size, [] => (line, column + size)
  | size, c :: cs =>
    if size < c.utf8Size then (line, column + size)
    else if c = '\n' then place (line + 1) 0 (size - c.utf8Size) cs
    else place line (column + c.utf8Size) (size - c.utf8Size) cs

/-- The wording of a fault in a text. -/
def Fault.message (text : String) (fault : Fault) : String :=
  let cs := text.toList
  let (line, column) := place 1 0 (byteCount cs - fault.left) cs
  fault.cause.wording ++ " at line " ++ Decimal.ofNat line ++ " column " ++ Decimal.ofNat column

end DocSearch.Json
