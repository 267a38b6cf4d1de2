/-
# Percent encoding

Every UTF-8 byte of a text outside the unreserved set (letters, digits, `-`, `_`, `.`, `~`) is
written as `%` and two upper-case hexadecimal digits.  Separators of the query grammar are all
reserved, so an escaped text can hold none of them.  Main statement: `escape_append`.
-/
import DocSearch.Text.Digits

namespace DocSearch.Text

/-- Whether a character stands for itself in a URL. -/
def isUnreserved (c : Char) : Bool :=
  c.isAlphanum || c = '-' || c = '_' || c = '.' || c = '~'

/-- A byte as `%` and two hexadecimal digits. -/
def escapeByte (b : UInt8) : List Char :=
  ['%', upperHex (b.toNat / 16), upperHex (b.toNat % 16)]

/-- The escaped form of one character. -/
def escapeChar (c : Char) : List Char :=
  if isUnreserved c then [c] else (String.utf8EncodeChar c).flatMap escapeByte

/-- A text with everything outside the unreserved set percent-encoded. -/
def escape (s : String) : String :=
  String.ofList (s.toList.flatMap escapeChar)

@[simp] theorem toList_escape (s : String) : (escape s).toList = s.toList.flatMap escapeChar := by
  simp [escape]

/-- Escaping works character by character. -/
theorem escape_append (s t : String) : escape (s ++ t) = escape s ++ escape t := by
  simp [escape, ← String.ofList_append]

end DocSearch.Text
