/-
# Decimal integers read back

What is written for an integer is read as the same integer, under any limit that it respects.
The row of digits is handled once, in `readDigits_eq`: a limit that holds at the end of the row
held at each digit before, because a row of digits never denotes less than a front part of it.

Numbers with zeros in front, as dates have them, denote the same numbers, and there are as many
characters as asked for.

More texts are read than are written: a plus sign may stand in front, and any number of zeros.
`Denotes` is the grammar of all of them, and the reader accepts its texts and no others, as far as
their numbers are in range.  `Spells` lets blanks stand around such a text.

Main statements: `readInt_ofInt`, `readInt64_ofInt`, `readUInt32_ofNat`, `length_padded`,
`ofDigitChars_padded`, `readInt_eq_ok_iff`, `readInt64_eq_ok_iff`, `Denotes.unique`, `spells_iff`.
-/
import DocSearch.Proofs.Text.Split
import DocSearch.Text.Decimal
import DocSearch.Text.Digits

namespace DocSearch

/-- The number of a row of digits, whichever way it is added up. -/
theorem Text.ofDigits_eq_ofDigitChars (cs : List Char) :
    ofDigits 10 (cs.map fun c => c.toNat - '0'.toNat) = Nat.ofDigitChars 10 cs 0 := by
  rw [ofDigits, Nat.ofDigitChars_eq_foldl, List.foldl_map]
  congr 1
  funext value c
  omega

namespace Decimal

/-! ## 1. Rows of digits -/

theorem digit?_of_isDigit {c : Char} (h : c.isDigit = true) :
    digit? c = some (c.toNat - '0'.toNat) := by
  simp only [Char.isDigit, Bool.and_eq_true, decide_eq_true_eq, ge_iff_le] at h
  exact if_pos h

theorem isDigit_of_digit? {c : Char} {d : Nat} (h : digit? c = some d) : c.isDigit = true := by
  unfold digit? at h
  split at h
  · rename_i hrange
    simp only [Char.isDigit, Bool.and_eq_true, decide_eq_true_eq, ge_iff_le]
    exact hrange
  · cases h

/-- More digits never make a number smaller. -/
theorem le_ofDigitChars (value : Nat) (cs : List Char) : value ≤ Nat.ofDigitChars 10 cs value := by
  induction cs generalizing value with
  | nil => simp
  | cons c cs ih =>
    rw [Nat.ofDigitChars_cons]
    have hnext := ih (10 * value + (c.toNat - '0'.toNat))
    omega

/-- **A row of digits is read as the number it denotes**, if that is within the limit. -/
theorem readDigits_eq {limit : Nat} {beyond : Fault} {cs : List Char} {value : Nat}
    (hd : ∀ c ∈ cs, c.isDigit = true) (hle : Nat.ofDigitChars 10 cs value ≤ limit) :
    readDigits limit beyond value cs = .ok (Nat.ofDigitChars 10 cs value) := by
  induction cs generalizing value with
  | nil => simp [readDigits]
  | cons c cs ih =>
    rw [Nat.ofDigitChars_cons, Nat.mul_comm] at hle ⊢
    have hstep := Nat.le_trans (le_ofDigitChars _ cs) hle
    rw [readDigits, digit?_of_isDigit (hd c List.mem_cons_self)]
    simp only [hstep, if_true]
    exact ih (fun d hm => hd d (List.mem_cons_of_mem _ hm)) hle

/-- What is read as a row of digits holds nothing else. -/
theorem isDigit_of_readDigits {limit value n : Nat} {beyond : Fault} {cs : List Char}
    (h : readDigits limit beyond value cs = .ok n) : ∀ c ∈ cs, c.isDigit = true := by
  induction cs generalizing value with
  | nil => simp
  | cons c cs ih =>
    rw [readDigits] at h
    split at h
    · cases h
    · rename_i d hd
      split at h
      · intro x hx
        rcases List.mem_cons.mp hx with rfl | hx
        · exact isDigit_of_digit? hd
        · exact ih h x hx
      · cases h

theorem isDigit_of_mem_toDigits {n : Nat} {c : Char} (h : c ∈ Nat.toDigits 10 n) :
    c.isDigit = true :=
  Nat.isDigit_of_mem_toDigits (by decide) (by decide) h

/-- The digits of a number begin with a digit. -/
theorem exists_toDigits_eq_cons (n : Nat) :
    ∃ c cs, Nat.toDigits 10 n = c :: cs ∧ c.isDigit = true := by
  cases h : Nat.toDigits 10 n with
  | nil => exact absurd h Nat.toDigits_ne_nil
  | cons c cs => exact ⟨c, cs, rfl, isDigit_of_mem_toDigits (h ▸ List.mem_cons_self)⟩

theorem readMagnitude_toDigits {limit n : Nat} {beyond : Fault} (h : n ≤ limit) :
    readMagnitude limit beyond (Nat.toDigits 10 n) = .ok n := by
  obtain ⟨c, cs, hcs, -⟩ := exists_toDigits_eq_cons n
  have hvalue : Nat.ofDigitChars 10 (c :: cs) 0 = n := by rw [← hcs]; simp
  have hd : ∀ d ∈ c :: cs, d.isDigit = true := fun d hm => isDigit_of_mem_toDigits (hcs ▸ hm)
  rw [hcs, readMagnitude, readDigits_eq hd (hvalue ▸ h), hvalue]

/-! ## 2. Integers -/

/-- A digit is none of the signs. -/
theorem ne_of_isDigit {c d : Char} (hc : c.isDigit = true) (hd : d.isDigit = false) : c ≠ d := by
  rintro rfl
  exact absurd hc (by simp [hd])

/-- **A written integer is read back** within every range that contains it. -/
theorem readInt_ofInt {least greatest n : Int} (hl : least ≤ n) (hg : n ≤ greatest) :
    readInt least greatest (ofInt n).toList = .ok n := by
  cases n with
  | ofNat m =>
    obtain ⟨c, cs, hcs, hc⟩ := exists_toDigits_eq_cons m
    have hread : readMagnitude greatest.toNat .tooLarge (c :: cs) = .ok m :=
      hcs ▸ readMagnitude_toDigits (by simp only [Int.ofNat_eq_natCast] at hg; omega)
    rw [ofInt, toList_ofNat, hcs, readInt]
    · rw [hread]; rfl
    · exact fun e => ne_of_isDigit hc (by decide) e
    · exact fun e => ne_of_isDigit hc (by decide) e
  | negSucc m =>
    have hread : readMagnitude least.natAbs .tooSmall (Nat.toDigits 10 (m + 1)) = .ok (m + 1) :=
      readMagnitude_toDigits (by omega)
    rw [ofInt_negSucc, readInt, hread]
    exact congrArg Except.ok (by omega : -((m + 1 : Nat) : Int) = Int.negSucc m)

theorem readInt64_ofInt (n : Int64) : readInt64 (ofInt n.toInt) = .ok n := by
  rw [readInt64, readInt_ofInt (Int64.minValue_le_toInt n) (Int64.toInt_le n)]
  exact congrArg Except.ok (Int64.ofInt_toInt n)

theorem readInt32_ofInt (n : Int32) : readInt32 (ofInt n.toInt) = .ok n := by
  rw [readInt32, readInt_ofInt (Int32.minValue_le_toInt n) (Int32.toInt_le n)]
  exact congrArg Except.ok (Int32.ofInt_toInt n)

theorem readUInt32_ofNat (n : UInt32) : readUInt32 (ofNat n.toNat) = .ok n := by
  have hlt : n.toNat ≤ UInt32.size - 1 := by have := n.toNat_lt_size; omega
  obtain ⟨c, cs, hcs, hc⟩ := exists_toDigits_eq_cons n.toNat
  have hread : readMagnitude (UInt32.size - 1) .tooLarge (c :: cs) = .ok n.toNat :=
    hcs ▸ readMagnitude_toDigits hlt
  rw [readUInt32, toList_ofNat, hcs, readNat]
  · rw [hread]
    exact congrArg Except.ok UInt32.ofNat_toNat
  · exact fun e => ne_of_isDigit hc (by decide) e

/-- Different numbers are written differently. -/
theorem ofNat_injective {m n : Nat} (h : ofNat m = ofNat n) : m = n := by
  have hdigits := congrArg String.toList h
  rw [toList_ofNat, toList_ofNat] at hdigits
  have hm := Nat.ofDigitChars_ten_toDigits (n := m)
  rw [hdigits, Nat.ofDigitChars_ten_toDigits] at hm
  exact hm.symm

/-! ## 3. The characters of written integers -/

/-- The characters of written integers. -/
def isNumeric (c : Char) : Bool := c.isDigit || c = '-'

theorem mem_ofNat {n : Nat} {c : Char} (h : c ∈ (ofNat n).toList) : c.isDigit = true := by
  rw [toList_ofNat] at h
  exact isDigit_of_mem_toDigits h

theorem mem_ofInt {n : Int} {c : Char} (h : c ∈ (ofInt n).toList) : isNumeric c = true := by
  cases n with
  | ofNat m => simp [isNumeric, mem_ofNat h]
  | negSucc m =>
    rw [ofInt_negSucc, List.mem_cons] at h
    rcases h with rfl | h
    · rfl
    · simp [isNumeric, isDigit_of_mem_toDigits h]

/-- An integer is never written as nothing. -/
theorem ofInt_ne_nil (n : Int) : (ofInt n).toList ≠ [] := by
  cases n with
  | ofNat m => exact fun h => Nat.toDigits_ne_nil ((toList_ofNat m).symm.trans h)
  | negSucc m => simp [ofInt_negSucc]

theorem not_isBlank_of_isNumeric {c : Char} (h : isNumeric c = true) :
    Text.isBlank c = false := by
  have hrange : c = '-' ∨ (48 ≤ c.toNat ∧ c.toNat ≤ 57) := by
    simp only [isNumeric, Char.isDigit, Bool.or_eq_true, Bool.and_eq_true, decide_eq_true_eq] at h
    rcases h with ⟨h1, h2⟩ | h
    · exact Or.inr ⟨h1, h2⟩
    · exact Or.inl h
  rcases hrange with rfl | ⟨h1, h2⟩
  · decide
  · simp only [Text.isBlank, Text.blankRanges, List.any_cons, List.any_nil, Bool.or_false,
      Bool.or_eq_false_iff, Bool.and_eq_false_iff, decide_eq_false_iff_not]
    omega

theorem not_isBlank_of_isDigit {c : Char} (h : c.isDigit = true) : Text.isBlank c = false :=
  not_isBlank_of_isNumeric (by simp [isNumeric, h])

/-! ## 4. Zeros in front -/

theorem isDigit_of_mem_padded {width n : Nat} {c : Char} (h : c ∈ padded width n) :
    c.isDigit = true := by
  rw [padded, List.mem_append] at h
  rcases h with h | h
  · rw [List.eq_of_mem_replicate h]
    rfl
  · exact isDigit_of_mem_toDigits h

/-- A number that needs no more digits is filled up to the width. -/
theorem length_padded {width n : Nat} (h : (Nat.toDigits 10 n).length ≤ width) :
    (padded width n).length = width := by
  rw [padded, List.length_append, List.length_replicate]
  omega

/-- **Zeros in front leave the number as it is.** -/
theorem ofDigitChars_padded (width n : Nat) : Nat.ofDigitChars 10 (padded width n) 0 = n := by
  rw [padded, Nat.ofDigitChars_append, Nat.ofDigitChars_replicate_zero, Nat.mul_zero,
    Nat.ofDigitChars_ten_toDigits]

/-! ## 5. The grammar of integers -/

/-- One digit or more. -/
def IsRow (cs : List Char) : Prop := cs ≠ [] ∧ ∀ c ∈ cs, c.isDigit = true

/-- A text stands for an integer: it is a row of digits, behind one sign at most. -/
inductive Denotes : List Char → Int → Prop where
  | plain {row : List Char} (h : IsRow row) : Denotes row (Nat.ofDigitChars 10 row 0)
  | plus {row : List Char} (h : IsRow row) : Denotes ('+' :: row) (Nat.ofDigitChars 10 row 0)
  | minus {row : List Char} (h : IsRow row) : Denotes ('-' :: row) (-Nat.ofDigitChars 10 row 0)

/-- No text without a digit is an integer. -/
theorem not_denotes_nil {n : Int} : ¬ Denotes [] n := by
  intro h
  cases h with
  | plain h => exact h.1 rfl

theorem isRow_toDigits (n : Nat) : IsRow (Nat.toDigits 10 n) :=
  ⟨Nat.toDigits_ne_nil, fun _ hc => isDigit_of_mem_toDigits hc⟩

/-- The written form of an integer stands for it. -/
theorem denotes_ofInt (n : Int) : Denotes (ofInt n).toList n := by
  cases n with
  | ofNat m =>
    have h := Denotes.plain (isRow_toDigits m)
    rw [Nat.ofDigitChars_ten_toDigits] at h
    rw [ofInt, toList_ofNat]
    exact h
  | negSucc m =>
    have h := Denotes.minus (isRow_toDigits (m + 1))
    rw [Nat.ofDigitChars_ten_toDigits] at h
    rw [ofInt_negSucc]
    exact h

/-- What is read as a row of digits is the number it denotes, and within the limit. -/
theorem ofDigitChars_of_readDigits {limit value n : Nat} {beyond : Fault} {cs : List Char}
    (hvalue : value ≤ limit) (h : readDigits limit beyond value cs = .ok n) :
    Nat.ofDigitChars 10 cs value = n ∧ n ≤ limit := by
  induction cs generalizing value with
  | nil =>
    obtain rfl := Except.ok.inj h
    exact ⟨by simp, hvalue⟩
  | cons c cs ih =>
    rw [readDigits] at h
    split at h
    · cases h
    · rename_i d hd
      split at h
      · rename_i hle
        rw [digit?_of_isDigit (isDigit_of_digit? hd), Option.some.injEq] at hd
        rw [Nat.ofDigitChars_cons, hd, Nat.mul_comm]
        exact ih hle h
      · cases h

theorem readMagnitude_eq_ok_iff {limit n : Nat} {beyond : Fault} {cs : List Char} :
    readMagnitude limit beyond cs = .ok n ↔
      IsRow cs ∧ Nat.ofDigitChars 10 cs 0 = n ∧ n ≤ limit := by
  cases cs with
  | nil => simp [readMagnitude, IsRow]
  | cons c cs =>
    rw [readMagnitude]
    constructor
    · intro h
      exact ⟨⟨by simp, isDigit_of_readDigits h⟩, ofDigitChars_of_readDigits (Nat.zero_le _) h⟩
    · rintro ⟨⟨-, hdigits⟩, rfl, hle⟩
      exact readDigits_eq hdigits hle

/-- What is made of a magnitude afterwards. -/
theorem map_readMagnitude_eq_ok_iff {limit : Nat} {beyond : Fault} {cs : List Char} {f : Int → Int}
    {m : Int} :
    (do let n ← readMagnitude limit beyond cs; pure (n : Int)).map f = .ok m ↔
      IsRow cs ∧ f (Nat.ofDigitChars 10 cs 0) = m ∧ Nat.ofDigitChars 10 cs 0 ≤ limit := by
  constructor
  · intro h
    cases hread : readMagnitude limit beyond cs with
    | error fault => rw [hread] at h; cases h
    | ok n =>
      rw [hread] at h
      obtain ⟨hrow, rfl, hle⟩ := readMagnitude_eq_ok_iff.mp hread
      exact ⟨hrow, Except.ok.inj h, hle⟩
  · rintro ⟨hrow, rfl, hle⟩
    rw [readMagnitude_eq_ok_iff.mpr ⟨hrow, rfl, hle⟩]
    rfl

/-- **A text is read as an integer exactly when it stands for that integer**, and the integer is in
range. -/
theorem readInt_eq_ok_iff {least greatest n : Int} {cs : List Char} (hleast : least ≤ 0)
    (hgreatest : 0 ≤ greatest) :
    readInt least greatest cs = .ok n ↔ Denotes cs n ∧ least ≤ n ∧ n ≤ greatest := by
  constructor
  · intro h
    -- the reader tells three beginnings of a text apart
    unfold readInt at h
    split at h
    · cases h
    · obtain ⟨hrow, rfl, hle⟩ := map_readMagnitude_eq_ok_iff.mp h
      exact ⟨.minus hrow, by omega, by omega⟩
    · obtain ⟨hrow, rfl, hle⟩ := map_readMagnitude_eq_ok_iff.mp h
      exact ⟨.plus hrow, by omega, by omega⟩
    · obtain ⟨hrow, rfl, hle⟩ := map_readMagnitude_eq_ok_iff.mp h
      exact ⟨.plain hrow, by omega, by omega⟩
  · rintro ⟨hdenotes, hlow, hhigh⟩
    cases hdenotes with
    | @plain row hrow =>
      obtain ⟨c, cs, rfl⟩ := List.exists_cons_of_ne_nil hrow.1
      have hc : c.isDigit = true := hrow.2 c List.mem_cons_self
      rw [readInt]
      · exact map_readMagnitude_eq_ok_iff.mpr ⟨hrow, rfl, by omega⟩
      · exact ne_of_isDigit hc (by decide)
      · exact ne_of_isDigit hc (by decide)
    | plus hrow =>
      rw [readInt]
      exact map_readMagnitude_eq_ok_iff.mpr ⟨hrow, rfl, by omega⟩
    | minus hrow =>
      rw [readInt]
      exact map_readMagnitude_eq_ok_iff.mpr ⟨hrow, rfl, by omega⟩

/-- The same for integers of a width, which are what is left of the range. -/
theorem map_readInt_eq_ok_iff {α : Type} {least greatest : Int} {ofInt : Int → α} {toInt : α → Int}
    (hleast : least ≤ 0) (hgreatest : 0 ≤ greatest)
    (hrange : ∀ a, least ≤ toInt a ∧ toInt a ≤ greatest) (hofInt : ∀ a, ofInt (toInt a) = a)
    (htoInt : ∀ m, least ≤ m → m ≤ greatest → toInt (ofInt m) = m) {cs : List Char} {a : α} :
    (readInt least greatest cs).map ofInt = .ok a ↔ Denotes cs (toInt a) := by
  constructor
  · intro h
    cases hread : readInt least greatest cs with
    | error fault => rw [hread] at h; cases h
    | ok m =>
      obtain ⟨hdenotes, hlow, hhigh⟩ := (readInt_eq_ok_iff hleast hgreatest).mp hread
      rw [hread] at h
      obtain rfl := Except.ok.inj h
      rwa [htoInt m hlow hhigh]
  · intro h
    rw [(readInt_eq_ok_iff hleast hgreatest).mpr ⟨h, hrange a⟩]
    exact congrArg Except.ok (hofInt a)

theorem readInt64_eq_ok_iff {s : String} {n : Int64} :
    readInt64 s = .ok n ↔ Denotes s.toList n.toInt :=
  map_readInt_eq_ok_iff (by decide) (by decide)
    (fun n => ⟨Int64.minValue_le_toInt n, Int64.toInt_le n⟩) Int64.ofInt_toInt
    fun _ hlow hhigh => Int64.toInt_ofInt_of_le hlow (Int.lt_of_le_of_lt hhigh (by decide))

theorem readInt32_eq_ok_iff {s : String} {n : Int32} :
    readInt32 s = .ok n ↔ Denotes s.toList n.toInt :=
  map_readInt_eq_ok_iff (by decide) (by decide)
    (fun n => ⟨Int32.minValue_le_toInt n, Int32.toInt_le n⟩) Int32.ofInt_toInt
    fun _ hlow hhigh => Int32.toInt_ofInt_of_le hlow (Int.lt_of_le_of_lt hhigh (by decide))

/-- A text stands for one integer at most. -/
theorem Denotes.unique {cs : List Char} {m n : Int} (hm : Denotes cs m) (hn : Denotes cs n) :
    m = n := by
  have hread : ∀ k : Int, k = m ∨ k = n → Denotes cs k →
      readInt (-(m.natAbs + n.natAbs : Nat)) (m.natAbs + n.natAbs : Nat) cs = .ok k :=
    fun k hk h => (readInt_eq_ok_iff (by omega) (by omega)).mpr ⟨h, by omega, by omega⟩
  exact Except.ok.inj ((hread m (.inl rfl) hm).symm.trans (hread n (.inr rfl) hn))

/-- An integer has digits and a sign, and no other character. -/
theorem Denotes.isDigit_or_sign {cs : List Char} {n : Int} (h : Denotes cs n) :
    ∀ c ∈ cs, c.isDigit = true ∨ c = '-' ∨ c = '+' := by
  intro c hc
  cases h with
  | plain h => exact .inl (h.2 c hc)
  | plus h =>
    rcases List.mem_cons.mp hc with rfl | hc
    · exact .inr (.inr rfl)
    · exact .inl (h.2 c hc)
  | minus h =>
    rcases List.mem_cons.mp hc with rfl | hc
    · exact .inr (.inl rfl)
    · exact .inl (h.2 c hc)

/-! ## 6. Blanks around integers -/

/-- A text stands for an integer, with blanks around it and none inside. -/
def Spells (s : String) (n : Int) : Prop :=
  ∃ before row after, s.toList = before ++ row ++ after ∧
    (∀ c ∈ before, Text.isBlank c = true) ∧ (∀ c ∈ after, Text.isBlank c = true) ∧ Denotes row n

/-- No character of an integer is blank. -/
theorem Denotes.isTrimmed {cs : List Char} {n : Int} (h : Denotes cs n) :
    Text.IsTrimmed Text.isBlank cs := by
  have hrow : ∀ {row : List Char}, IsRow row → ∀ c ∈ row, Text.isBlank c = false :=
    fun hrow c hc => not_isBlank_of_isDigit (hrow.2 c hc)
  have hsigned : ∀ {sign : Char} {row : List Char}, Text.isBlank sign = false → IsRow row →
      Text.IsTrimmed Text.isBlank (sign :: row) := by
    intro sign row hsign h
    refine .of_forall (by simp) fun c hc => ?_
    rcases List.mem_cons.mp hc with rfl | hc
    · exact hsign
    · exact hrow h c hc
  cases h with
  | plain h => exact .of_forall h.1 (hrow h)
  | plus h => exact hsigned (by decide) h
  | minus h => exact hsigned (by decide) h

/-- **Trimming leaves the integer.** -/
theorem spells_iff {s : String} {n : Int} :
    Spells s n ↔ Denotes (Text.trimWhere Text.isBlank s.toList) n := by
  constructor
  · rintro ⟨before, row, after, hs, hbefore, hafter, hrow⟩
    rwa [hs, Text.trimWhere_surrounded hrow.isTrimmed hbefore hafter]
  · intro h
    obtain ⟨before, after, hs, hbefore, hafter⟩ :=
      Text.exists_eq_trimWhere Text.isBlank s.toList
    exact ⟨before, _, after, hs, hbefore, hafter, h⟩

/-- The written form of an integer stands for it alone. -/
theorem spells_ofInt_iff {m n : Int} : Spells (ofInt m) n ↔ m = n := by
  have htrim : Text.trimWhere Text.isBlank (ofInt m).toList = (ofInt m).toList :=
    Text.trimWhere_eq_self fun _ hc => not_isBlank_of_isNumeric (mem_ofInt hc)
  rw [spells_iff, htrim]
  constructor
  · exact (denotes_ofInt m).unique
  · rintro rfl
    exact denotes_ofInt m

/-- Whether a character stands neither in an integer nor around one. -/
def isForeign (c : Char) : Bool := !(Text.isBlank c || c.isDigit || c = '-' || c = '+')

/-- A text with a foreign character stands for no integer. -/
theorem not_spells_of_mem {s : String} {c : Char} (hc : c ∈ s.toList) (h : isForeign c = true)
    (n : Int) : ¬ Spells s n := by
  rintro ⟨before, row, after, hs, hbefore, hafter, hrow⟩
  rw [hs, List.mem_append, List.mem_append] at hc
  rcases hc with (hc | hc) | hc
  · simp [isForeign, hbefore c hc] at h
  · rcases hrow.isDigit_or_sign c hc with hdigit | rfl | rfl
    · simp [isForeign, hdigit] at h
    · cases h
    · cases h
  · simp [isForeign, hafter c hc] at h

end Decimal
end DocSearch
