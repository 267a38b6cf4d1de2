/-
# Percent decoding

The reading of percent-encoded text, and the two facts about `Text.escape` that everything built
on it needs: decoding gives the text back, and an escaped text holds nothing but unreserved
characters and percent signs.  So no separator of the filter or query grammar can come out of an
escaped text, whatever the text was.

Decoding goes through bytes: `%` and two hexadecimal digits are one byte, any other character is
its UTF-8 bytes, and the bytes together have to be UTF-8.  It fails on a percent sign that two
hexadecimal digits do not follow.

Main statements: `unescape_escape`, `mem_escape`.
-/
import DocSearch.Text.Percent

namespace DocSearch.Text

/-! ## 1. Decoding -/

/-- The bytes that a percent-encoded text stands for. -/
def unescapeBytes : List Char → Option (List UInt8)
  | [] => some []
  | '%' :: hi :: lo :: cs =>
    match hexDigit? hi, hexDigit? lo, unescapeBytes cs with
    | some a, some b, some bytes => some (UInt8.ofNat (16 * a + b) :: bytes)
    | _, _, _ => none
  | c :: cs =>
    if c = '%' then none else (unescapeBytes cs).map fun bytes => String.utf8EncodeChar c ++ bytes

/-- The text that a percent-encoded text stands for. -/
def unescape (cs : List Char) : Option String :=
  (unescapeBytes cs).bind fun bytes => String.fromUTF8? bytes.toByteArray

theorem hexDigit?_upperHex {n : Nat} (h : n < 16) : hexDigit? (upperHex n) = some n := by
  have hall : ∀ k < 16, hexDigit? (upperHex k) = some k := by decide
  exact hall n h

/-- One encoded byte is one byte. -/
theorem unescapeBytes_escapeByte (b : UInt8) (cs : List Char) :
    unescapeBytes (escapeByte b ++ cs) = (unescapeBytes cs).map (b :: ·) := by
  have hb : b.toNat < 256 := b.toNat_lt
  have hhi := hexDigit?_upperHex (n := b.toNat / 16) (by omega)
  have hlo := hexDigit?_upperHex (n := b.toNat % 16) (by omega)
  have hjoin : UInt8.ofNat (16 * (b.toNat / 16) + b.toNat % 16) = b := by
    rw [Nat.div_add_mod]; exact UInt8.ofNat_toNat
  simp only [escapeByte, List.cons_append, List.nil_append, unescapeBytes, hhi, hlo]
  cases unescapeBytes cs with
  | none => rfl
  | some bytes => simp [hjoin]

theorem unescapeBytes_escapeBytes (bytes : List UInt8) (cs : List Char) :
    unescapeBytes (bytes.flatMap escapeByte ++ cs) = (unescapeBytes cs).map (bytes ++ ·) := by
  induction bytes with
  | nil => simp
  | cons b bytes ih =>
    rw [List.flatMap_cons, List.append_assoc, unescapeBytes_escapeByte, ih, Option.map_map]
    rfl

theorem ne_percent_of_isUnreserved {c : Char} (h : isUnreserved c = true) : c ≠ '%' := by
  rintro rfl
  exact absurd h (by decide)

/-- An unreserved character stands for itself. -/
theorem unescapeBytes_cons_of_ne {c : Char} (h : c ≠ '%') (cs : List Char) :
    unescapeBytes (c :: cs) = (unescapeBytes cs).map (String.utf8EncodeChar c ++ ·) := by
  rw [unescapeBytes]
  · rw [if_neg h]
  · rintro _ _ _ rfl
    exact absurd rfl h

/-- **One encoded character is its UTF-8 bytes**, in front of any text. -/
theorem unescapeBytes_escapeChar (c : Char) (cs : List Char) :
    unescapeBytes (escapeChar c ++ cs) =
      (unescapeBytes cs).map (String.utf8EncodeChar c ++ ·) := by
  unfold escapeChar
  split
  · rename_i h
    exact unescapeBytes_cons_of_ne (ne_percent_of_isUnreserved h) cs
  · exact unescapeBytes_escapeBytes _ cs

theorem unescapeBytes_flatMap_escapeChar (cs : List Char) :
    unescapeBytes (cs.flatMap escapeChar) = some (cs.flatMap String.utf8EncodeChar) := by
  induction cs with
  | nil => rfl
  | cons c cs ih => rw [List.flatMap_cons, unescapeBytes_escapeChar, ih]; rfl

/-- The UTF-8 bytes of a text are read as the text. -/
theorem fromUTF8?_utf8 (s : String) :
    String.fromUTF8? (s.toList.flatMap String.utf8EncodeChar).toByteArray = some s := by
  have hbytes : (s.toList.flatMap String.utf8EncodeChar).toByteArray = s.toByteArray := by
    rw [← List.utf8Encode, String.utf8Encode_toList]
  rw [hbytes, String.fromUTF8?, dif_pos s.isValidUTF8]
  rfl

/-- **Decoding an encoded text gives the text back.** -/
theorem unescape_escape (s : String) : unescape (escape s).toList = some s := by
  rw [unescape, toList_escape, unescapeBytes_flatMap_escapeChar]
  exact fromUTF8?_utf8 s

/-- Different texts are encoded differently. -/
theorem escape_injective {s t : String} (h : escape s = escape t) : s = t := by
  have hs := unescape_escape s
  rw [h, unescape_escape] at hs
  exact (Option.some.inj hs).symm

/-- Encoding works part by part, also under a separator. -/
theorem escape_intercalate (sep : String) (parts : List String) :
    escape (String.intercalate sep parts) =
      String.intercalate (escape sep) (parts.map escape) := by
  induction parts with
  | nil => rfl
  | cons part parts ih =>
    cases parts with
    | nil => simp
    | cons next parts =>
      rw [String.intercalate_cons_cons, escape_append, escape_append, ih]
      simp [String.intercalate_cons_cons]

/-! ## 2. What an encoded text holds -/

/-- The characters of encoded texts. -/
def isEscaped (c : Char) : Bool := isUnreserved c || c = '%'

theorem isUnreserved_upperHex {n : Nat} (h : n < 16) : isUnreserved (upperHex n) = true := by
  have hall : ∀ k < 16, isUnreserved (upperHex k) = true := by decide
  exact hall n h

theorem mem_escapeByte {b : UInt8} {c : Char} (h : c ∈ escapeByte b) : isEscaped c = true := by
  have hb : b.toNat < 256 := b.toNat_lt
  simp only [escapeByte, List.mem_cons, List.not_mem_nil, or_false] at h
  rcases h with rfl | rfl | rfl
  · rfl
  · simp [isEscaped, isUnreserved_upperHex (n := b.toNat / 16) (by omega)]
  · simp [isEscaped, isUnreserved_upperHex (n := b.toNat % 16) (by omega)]

/-- **An encoded text holds unreserved characters and percent signs only.** -/
theorem mem_escape {s : String} {c : Char} (h : c ∈ (escape s).toList) : isEscaped c = true := by
  rw [toList_escape] at h
  obtain ⟨d, -, hd⟩ := List.mem_flatMap.mp h
  unfold escapeChar at hd
  split at hd
  · rename_i hu
    rw [List.mem_singleton] at hd
    simp [isEscaped, hd, hu]
  · obtain ⟨b, -, hb⟩ := List.mem_flatMap.mp hd
    exact mem_escapeByte hb

end DocSearch.Text
