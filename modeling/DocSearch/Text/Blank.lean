/-
# Blank characters, trimming and splitting

`isBlank` is the Unicode property White_Space, as a table of its ranges.  Everything that trims
or skips blanks in this library uses it, so a no-break space or an ideographic space counts
wherever a space does.  Main statement: `splitOnce_eq` (a split loses nothing but the separator).
-/

namespace DocSearch.Text

/-! ## 1. The table -/

/-- The inclusive code point ranges of the property White_Space. -/
def blankRanges : List (Nat × Nat) :=
  [(0x09, 0x0D), (0x20, 0x20), (0x85, 0x85), (0xA0, 0xA0), (0x1680, 0x1680), (0x2000, 0x200A),
   (0x2028, 0x2029), (0x202F, 0x202F), (0x205F, 0x205F), (0x3000, 0x3000)]

/-- Whether a character has the property White_Space. -/
def isBlank (c : Char) : Bool :=
  blankRanges.any fun r => r.1 ≤ c.toNat && c.toNat ≤ r.2

/-! ## 2. Trimming -/

/-- What is left of a text when the characters at its end that satisfy `p` are dropped. -/
def dropEndWhile (p : Char → Bool) (cs : List Char) : List Char :=
  (cs.reverse.dropWhile p).reverse

/-- What is left of a text when the characters at both its ends that satisfy `p` are dropped. -/
def trimWhere (p : Char → Bool) (cs : List Char) : List Char :=
  dropEndWhile p (cs.dropWhile p)

/-- A text without the blanks at its two ends. -/
def trim (s : String) : String :=
  String.ofList (trimWhere isBlank s.toList)

@[simp] theorem toList_trim (s : String) : (trim s).toList = trimWhere isBlank s.toList := by
  simp [trim]

/-- Whether a text has no character but blanks. -/
def isBlankText (s : String) : Bool :=
  s.toList.all isBlank

/-! ## 3. Splitting -/

/-- The text after `start`, if the text begins with it. -/
def dropStart? : (start cs : List Char) → Option (List Char)
  | [], cs => some cs
  | _ :: _, [] => none
  | a :: start, c :: cs => if a = c then dropStart? start cs else none

/-- The two sides of the first place where `sep` stands. -/
def splitOnce (sep : List Char) : List Char → Option (List Char × List Char)
  | [] => (dropStart? sep []).map fun rest => ([], rest)
  | c :: cs =>
    match dropStart? sep (c :: cs) with
    | some rest => some ([], rest)
    | none => (splitOnce sep cs).map fun sides => (c :: sides.1, sides.2)

theorem dropStart?_eq {start cs rest : List Char} (h : dropStart? start cs = some rest) :
    cs = start ++ rest := by
  fun_induction dropStart? start cs with
  | case1 => simpa using h
  | case2 => simp at h
  | case3 start c cs ih => simp [ih h]
  | case4 => simp at h

/-- A split loses nothing but the separator. -/
theorem splitOnce_eq {sep cs before after : List Char}
    (h : splitOnce sep cs = some (before, after)) : cs = before ++ sep ++ after := by
  induction cs generalizing before after with
  | nil =>
    obtain ⟨rest, hr, he⟩ := Option.map_eq_some_iff.1 h
    cases he
    simpa using dropStart?_eq hr
  | cons c cs ih =>
    rw [splitOnce] at h
    split at h
    · next rest hr =>
      cases h
      simpa using dropStart?_eq hr
    · obtain ⟨sides, hs, he⟩ := Option.map_eq_some_iff.1 h
      cases he
      simpa using ih hs

end DocSearch.Text
