/-
# JSON numbers and strings read back

The reader of JSON gets back every integer of 64 bits and every string from its text, whatever
follows, as long as nothing that follows can continue a number.

For a number the point is that the digits of a natural number never begin with a zero that others
follow, so the reader's ban on leading zeros does not meet them.  For a string each character is
handled by itself: its escape is read as one piece, and the piece stands for the character.

Main statements: `scanNumeral_ofInt`, `scanString_quoted`.
-/
import DocSearch.Json.Reader
import DocSearch.Json.Writer
import DocSearch.Proofs.Text.Decimal
import DocSearch.Proofs.Text.Split

namespace DocSearch
namespace Json

/-! ## 1. Digits -/

/-- The decimal digits of a number, as numbers. -/
def digitValues (n : Nat) : List Nat := (Nat.toDigits 10 n).map fun c => c.toNat - '0'.toNat

/-- The digits of a number denote that number. -/
theorem ofDigits_digitValues (n : Nat) : Text.ofDigits 10 (digitValues n) = n := by
  rw [digitValues, Text.ofDigits_eq_ofDigitChars, Nat.ofDigitChars_ten_toDigits]

/-- The digits of a number are taken as a whole. -/
theorem takeDigits_toDigits (n : Nat) {rest : List Char} (h : Text.StopsAt Char.isDigit rest) :
    Text.takeDigits (Nat.toDigits 10 n ++ rest) = (digitValues n, rest) := by
  have hdigits : ∀ c ∈ Nat.toDigits 10 n, c.isDigit = true :=
    fun c hc => Decimal.isDigit_of_mem_toDigits hc
  rw [Text.takeDigits, Text.takeWhile_append_stop hdigits h,
    Text.dropWhile_append_stop hdigits h, digitValues]

/-- The digits of a number that is not zero do not begin with a zero. -/
theorem head?_toDigits_ne_zero {n : Nat} (h : 0 < n) :
    (Nat.toDigits 10 n).head? ≠ some '0' := by
  induction n using Nat.strongRecOn with
  | _ n ih =>
    rcases Nat.lt_or_ge n 10 with hn | hn
    · rw [Nat.toDigits_of_lt_base hn]
      simp only [List.head?_cons, ne_eq, Option.some.injEq, Nat.digitChar_eq_zero]
      omega
    · have hprev := ih (n / 10) (by omega) (by omega)
      obtain ⟨c, cs, hcs, -⟩ := Decimal.exists_toDigits_eq_cons (n / 10)
      rw [hcs] at hprev
      rw [Nat.toDigits_of_base_le (by decide) hn, hcs]
      exact hprev

/-- No zero stands in front of further digits. -/
theorem toDigits_ne_zero_cons (n : Nat) (c : Char) (cs : List Char) :
    Nat.toDigits 10 n ≠ '0' :: c :: cs := by
  intro h
  rcases Nat.eq_zero_or_pos n with rfl | hpos
  · rw [Nat.toDigits_zero] at h
    cases h
  · exact head?_toDigits_ne_zero hpos (by rw [h]; rfl)

theorem eq_zero_of_isDigit {c : Char} (hc : c.isDigit = true) (h : c.toNat - '0'.toNat = 0) :
    c = '0' := by
  simp only [Char.isDigit, Bool.and_eq_true, decide_eq_true_eq, ge_iff_le] at hc
  have hlow : '0'.toNat ≤ c.toNat := hc.1
  have hval : c.toNat = '0'.toNat := by omega
  rw [← Char.ofNat_toNat c, hval]
  rfl

/-- The values of the digits have no zero in front of further digits either. -/
theorem digitValues_ne_zero_cons (n d : Nat) (ds : List Nat) : digitValues n ≠ 0 :: d :: ds := by
  intro h
  obtain ⟨c, cs, hcs, hc⟩ := Decimal.exists_toDigits_eq_cons n
  rw [digitValues, hcs, List.map_cons] at h
  obtain ⟨hzero, hmore⟩ := List.cons.inj h
  cases cs with
  | nil => cases hmore
  | cons c' cs' =>
    rw [eq_zero_of_isDigit hc hzero] at hcs
    exact toDigits_ne_zero_cons n c' cs' hcs

/-! ## 2. Integers -/

/-- Whether a character could continue a number. -/
def isNumeralChar (c : Char) : Bool := c.isDigit || c = '.' || c = 'e' || c = 'E'

theorem scanWhole_toDigits (n : Nat) {rest : List Char} (h : Text.StopsAt Char.isDigit rest) :
    scanWhole (Nat.toDigits 10 n ++ rest) = .ok (digitValues n, rest) := by
  have hne : digitValues n ≠ [] := by simp [digitValues]
  unfold scanWhole
  rw [takeDigits_toDigits n h]
  cases hds : digitValues n with
  | nil => exact absurd hds hne
  | cons d ds =>
    have hzero : ∀ d' ds', d :: ds ≠ 0 :: d' :: ds' :=
      fun d' ds' e => digitValues_ne_zero_cons n d' ds' (hds.trans e)
    split <;> simp_all

/-- Nothing that could continue a number follows, so there is no fraction and no exponent. -/
theorem scanFraction_of_stop {rest : List Char} (h : Text.StopsAt isNumeralChar rest) :
    scanFraction rest = .ok (none, rest) := by
  cases rest with
  | nil => rfl
  | cons c cs =>
    have hc := h c rfl
    have hne : c ≠ '.' := by
      rintro rfl
      exact absurd hc (by decide)
    rw [scanFraction]
    exact fun cs' e => hne (List.cons.inj e).1

theorem scanExponent_of_stop {rest : List Char} (h : Text.StopsAt isNumeralChar rest) :
    scanExponent rest = .ok (none, rest) := by
  cases rest with
  | nil => rfl
  | cons c cs =>
    have hc := h c rfl
    simp only [isNumeralChar, Bool.or_eq_false_iff, decide_eq_false_iff_not] at hc
    rw [scanExponent, if_neg (by simp [hc])]

theorem scanUnsigned_toDigits (negative : Bool) (n : Nat) {rest : List Char}
    (h : Text.StopsAt isNumeralChar rest) :
    scanUnsigned negative (Nat.toDigits 10 n ++ rest) =
      .ok (⟨negative, digitValues n, none, none⟩, rest) := by
  have hdigit : Text.StopsAt Char.isDigit rest := by
    intro c hc
    have hcn := h c hc
    simp only [isNumeralChar, Bool.or_eq_false_iff] at hcn
    exact hcn.1.1.1
  rw [scanUnsigned, scanWhole_toDigits n hdigit]
  simp only [Except.bind, scanFraction_of_stop h, scanExponent_of_stop h, Except.map]

theorem value_natural {n : Nat} (h : n < UInt64.size) :
    Numeral.value ⟨false, digitValues n, none, none⟩ = .int n := by
  simp only [Numeral.value, ofDigits_digitValues]
  rw [if_neg (by simp [Nat.not_le.mpr h]), if_pos (by simp)]

theorem value_negative {n : Nat} (hpos : 0 < n) (h : n ≤ 9223372036854775808) :
    Numeral.value ⟨true, digitValues n, none, none⟩ = .int (-n) := by
  have hsize : ¬ UInt64.size ≤ n := by simp only [UInt64.size]; omega
  have hmost : ¬ (n = 0 ∨ 1 <<< 63 < n) := by
    rw [Nat.one_shiftLeft]
    omega
  simp only [Numeral.value, ofDigits_digitValues]
  rw [if_neg (by simp [hsize]), if_neg (by simp), if_neg hmost]

/-- **The text of an integer of 64 bits is read as that integer.** -/
theorem scanNumeral_ofInt {n : Int} (hl : -9223372036854775808 ≤ n)
    (hu : n < 18446744073709551616) {rest : List Char}
    (h : Text.StopsAt isNumeralChar rest) :
    ∃ numeral, scanNumeral ((Decimal.ofInt n).toList ++ rest) = .ok (numeral, rest) ∧
      numeral.value = .int n := by
  cases n with
  | ofNat m =>
    obtain ⟨c, cs, hcs, hc⟩ := Decimal.exists_toDigits_eq_cons m
    have hsign : ∀ cs', Nat.toDigits 10 m ++ rest ≠ '-' :: cs' := by
      intro cs' e
      rw [hcs] at e
      exact Decimal.ne_of_isDigit hc (by decide) (List.cons.inj e).1
    have hsize : m < UInt64.size := by
      simp only [Int.ofNat_eq_natCast] at hu
      simp only [UInt64.size]
      omega
    refine ⟨⟨false, digitValues m, none, none⟩, ?_, value_natural hsize⟩
    rw [Decimal.ofInt, Decimal.toList_ofNat, scanNumeral, scanUnsigned_toDigits false m h]
    exact hsign
  | negSucc m =>
    have hvalue := value_negative (n := m + 1) (by omega) (by omega)
    refine ⟨⟨true, digitValues (m + 1), none, none⟩, ?_, ?_⟩
    · rw [Decimal.ofInt_negSucc, List.cons_append, scanNumeral, scanUnsigned_toDigits true _ h]
    · rw [hvalue]
      exact congrArg Json.int (by omega : -((m + 1 : Nat) : Int) = Int.negSucc m)

/-- The text of an integer begins with a digit or a minus sign. -/
theorem exists_ofInt_eq_cons (n : Int) :
    ∃ c cs, (Decimal.ofInt n).toList = c :: cs ∧ (c = '-' ∨ c.isDigit = true) := by
  cases n with
  | ofNat m =>
    obtain ⟨c, cs, hcs, hc⟩ := Decimal.exists_toDigits_eq_cons m
    exact ⟨c, cs, by rw [Decimal.ofInt, Decimal.toList_ofNat, hcs], Or.inr hc⟩
  | negSucc m => exact ⟨'-', _, Decimal.ofInt_negSucc m, Or.inl rfl⟩

/-! ## 3. Strings -/

/-- The piece that the text of a character is read as. -/
def pieceOf (c : Char) : Piece :=
  if c.toNat < 0x20 ∧ c ≠ '\n' ∧ c ≠ '\r' ∧ c ≠ '\t' ∧ c ≠ '\x08' ∧ c ≠ '\x0c' then
    .unit c.toNat
  else .char c

theorem hexUnit?_lowerHex :
    ∀ n < 0x20, hexUnit? '0' '0' (Text.lowerHex (n / 16)) (Text.lowerHex (n % 16)) = some n := by
  decide

/-- A short escape is read as the character that it stands for. -/
theorem scanPieces_short {e c : Char} (h : escaped? e = some c) (cs : List Char)
    (seen : List Piece) :
    scanPieces ('\\' :: e :: cs) seen = scanPieces cs (.char c :: seen) := by
  have hu : e ≠ 'u' := by
    rintro rfl
    cases h
  rw [scanPieces, h]
  all_goals simp_all

/-- The text of one character is read as one piece. -/
theorem scanPieces_escapeChar (c : Char) (cs : List Char) (seen : List Piece) :
    scanPieces (escapeChar c ++ cs) seen = scanPieces cs (pieceOf c :: seen) := by
  unfold escapeChar
  split
  · subst_vars; exact scanPieces_short rfl cs seen
  split
  · subst_vars; exact scanPieces_short rfl cs seen
  split
  · subst_vars; exact scanPieces_short rfl cs seen
  split
  · subst_vars; exact scanPieces_short rfl cs seen
  split
  · subst_vars; exact scanPieces_short rfl cs seen
  split
  · subst_vars; exact scanPieces_short rfl cs seen
  split
  · subst_vars; exact scanPieces_short rfl cs seen
  split
  · -- a control character without a short escape: four digits, the first two of them zero
    rename_i hlow
    have hunit := hexUnit?_lowerHex c.toNat hlow
    have hpiece : pieceOf c = .unit c.toNat := if_pos ⟨hlow, by simp [*]⟩
    simp only [List.cons_append, List.nil_append]
    rw [hpiece, scanPieces, hunit]
  · -- any other character stands for itself
    rename_i hq hb _ _ _ _ _ hlow
    have hpiece : pieceOf c = .char c := if_neg fun h => hlow h.1
    rw [hpiece, List.cons_append, List.nil_append, scanPieces, if_neg hb, if_neg hlow]
    all_goals simp_all

/-- The text of a row of characters is read as their pieces. -/
theorem scanPieces_escaped (cs rest : List Char) (seen : List Piece) :
    scanPieces (cs.flatMap escapeChar ++ '"' :: rest) seen =
      .ok (seen.reverse ++ cs.map pieceOf, rest) := by
  induction cs generalizing seen with
  | nil => simp [scanPieces]
  | cons c cs ih =>
    rw [List.flatMap_cons, List.append_assoc, scanPieces_escapeChar, ih]
    simp

/-- The piece of a character stands for that character. -/
theorem joinPieces_pieceOf (c : Char) (pieces : List Piece) (made : List Char) :
    joinPieces (pieceOf c :: pieces) made = joinPieces pieces (c :: made) := by
  unfold pieceOf
  split
  · rename_i h
    have hlead : isLead c.toNat = false := by
      simp only [isLead, Bool.and_eq_false_iff, decide_eq_false_iff_not]
      omega
    have htrail : isTrail c.toNat = false := by
      simp only [isTrail, Bool.and_eq_false_iff, decide_eq_false_iff_not]
      omega
    rw [joinPieces.eq_def]
    simp [hlead, htrail]
  · rw [joinPieces]

theorem joinPieces_map_pieceOf (cs made : List Char) :
    joinPieces (cs.map pieceOf) made = some (made.reverse ++ cs) := by
  induction cs generalizing made with
  | nil => simp [joinPieces]
  | cons c cs ih =>
    rw [List.map_cons, joinPieces_pieceOf, ih]
    simp

theorem toList_quoted (s : String) :
    (quoted s).toList = '"' :: (s.toList.flatMap escapeChar ++ ['"']) := by
  simp [quoted]

/-- **A string is read back from its text**, behind the opening quote. -/
theorem scanString_quoted (s : String) (rest : List Char) :
    scanString (s.toList.flatMap escapeChar ++ '"' :: rest) = .ok (some s, rest) := by
  rw [scanString, scanPieces_escaped]
  simp [Except.map, joinPieces_map_pieceOf]

end Json
end DocSearch
