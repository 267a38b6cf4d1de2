/-
# The grammar of filter expressions

A filter expression is a row of nodes joined by `+`.  A node is

    an atom                     field%3A'value', 'value', field%3A1977 or field%3A2000..2004
    an operation                (and+node+node..) or (or+node+node..), one operand or more
    a complement                (not+node)

and field names and values are percent-encoded.  This module has the nodes as a type, the text of
a node, and a reader of texts that knows nothing of conditions or filters: it takes words,
parentheses and `+` from the front of a text and decodes the atoms.

The reader gets back every row of nodes from its text (`read_rowText`).  What the argument rests
on is that a word holds unreserved characters, percent signs and quotes only
(`isWordChar_of_mem_spelling`): the text of an atom ends where the writer ended it, the quotes are
where the writer put them, and the last `%3A` before the value is the one that ends the field.
-/
import DocSearch.Filter.Condition
import DocSearch.Proofs.Filter.Range
import DocSearch.Proofs.Text.Percent

namespace DocSearch
namespace Expression

/-! ## 1. Nodes and their text -/

/-- A comparison that an expression is built from. -/
inductive Atom where
  /-- A field has a text; without a field, the text occurs anywhere. -/
  | text (field : Option String) (value : String)
  /-- A field has an integer, or one of a range. -/
  | int (field : String) (value : IntValue)
deriving DecidableEq, Repr

/-- A filter expression without its spelling.  An operation has at least one operand. -/
inductive Node where
  | atom (a : Atom)
  | op (keyword : Conjunction) (first : Node) (more : List Node)
  | not (operand : Node)

/-- The text of an atom. -/
def Atom.spelling : Atom → String
  | .text field value => (field.map Condition.fieldText).getD "" ++ Condition.quoted value
  | .int field value => Condition.fieldText field ++ value.text

mutual

/-- The text of a node. -/
def Node.spelling : Node → String
  | .atom a => a.spelling
  | .op keyword first more =>
    Condition.operation keyword.keyword (first.spelling :: spellings more)
  | .not operand => Condition.operation "not" [operand.spelling]

/-- The text of each node of a row. -/
def spellings : List Node → List String
  | [] => []
  | n :: ns => n.spelling :: spellings ns

end

/-- The text of a row of nodes. -/
def rowText (ns : List Node) : String := String.intercalate "+" (spellings ns)

theorem spellings_eq_map (ns : List Node) : spellings ns = ns.map Node.spelling := by
  induction ns with
  | nil => rfl
  | cons n ns ih => rw [spellings, ih, List.map_cons]

/-! ## 2. The reader -/

/-- Whether a character may stand in a word; parentheses and `+` may not. -/
def isWordChar (c : Char) : Bool := Text.isEscaped c || c = '\''

/-- The two sides of the last `%3A`. -/
def splitField? (cs : List Char) : Option (List Char × List Char) :=
  (Text.splitOnce ['A', '3', '%'] cs.reverse).map fun sides => (sides.2.reverse, sides.1.reverse)

/-- Reads an integer or a range. -/
def readIntValue (cs : List Char) : Option IntValue :=
  match Range.ofText (String.ofList cs) with
  | .ok r => some (.range r)
  | .error _ => (Decimal.readInt64 (String.ofList cs)).toOption.map .exact

/-- Reads the field in front of a quoted text, which may be missing. -/
def readField : List Char → Option (Option String)
  | [] => some none
  | front =>
    match splitField? front with
    | some (field, []) => (Text.unescape field).map some
    | _ => none

/-- Reads a word as an atom: a quoted text when it holds a quote, and else an integer. -/
def readAtom (word : List Char) : Option Atom :=
  match Text.splitOnce ['\''] word with
  | some (front, rest) =>
    match Text.splitOnce ['\''] rest with
    | some (value, []) =>
      (readField front).bind fun field =>
      (Text.unescape value).map fun value => .text field value
    | _ => none
  | none =>
    (splitField? word).bind fun (field, value) =>
    (Text.unescape field).bind fun field =>
    (readIntValue value).map fun value => .int field value

/-- The node with the given word and operands. -/
def ofWord (word : List Char) : List Node → Option Node
  | [] => none
  | n :: ns =>
    if word = ['a', 'n', 'd'] then some (.op .and n ns)
    else if word = ['o', 'r'] then some (.op .or n ns)
    else if word = ['n', 'o', 't'] ∧ ns.isEmpty then some (.not n)
    else none

mutual

/-- The node at the front of a text, and the rest. -/
def readNode : (fuel : Nat) → List Char → Option (Node × List Char)
  | 0, _ => none
  | fuel + 1, '(' :: cs =>
    match cs.dropWhile isWordChar with
    | '+' :: operands =>
      match readRow fuel operands with
      | some (ns, ')' :: rest) =>
        (ofWord (cs.takeWhile isWordChar) ns).map fun n => (n, rest)
      | _ => none
    | _ => none
  | _ + 1, cs =>
    (readAtom (cs.takeWhile isWordChar)).map fun a => (.atom a, cs.dropWhile isWordChar)

/-- The row of nodes at the front of a text, and the rest. -/
def readRow : (fuel : Nat) → List Char → Option (List Node × List Char)
  | 0, _ => none
  | fuel + 1, cs =>
    match readNode fuel cs with
    | some (n, '+' :: rest) => (readRow fuel rest).map fun found => (n :: found.1, found.2)
    | some (n, rest) => some ([n], rest)
    | none => none

end

/-- Reads a whole text as a row of nodes.  A node takes two steps at most for each character. -/
def read (s : String) : Option (List Node) :=
  match readRow (2 * s.toList.length) s.toList with
  | some (ns, []) => some ns
  | _ => none

/-! ## 3. Atoms read back -/

/-- The last `%3A` is found in front of a text that holds no `A`. -/
theorem splitField?_append {value : List Char} (h : 'A' ∉ value) (field : List Char) :
    splitField? (field ++ ['%', '3', 'A'] ++ value) = some (field, value) := by
  have hrev : 'A' ∉ value.reverse := fun hm => h (List.mem_reverse.mp hm)
  have hsplit := Text.splitOnce_append ['3', '%'] hrev field.reverse
  unfold splitField?
  rw [show (field ++ ['%', '3', 'A'] ++ value).reverse
      = value.reverse ++ ['A', '3', '%'] ++ field.reverse by simp, hsplit]
  simp

theorem toList_fieldText (field : String) :
    (Condition.fieldText field).toList = (Text.escape field).toList ++ ['%', '3', 'A'] := by
  simp [Condition.fieldText]

theorem toList_quoted (value : String) :
    (Condition.quoted value).toList = '\'' :: ((Text.escape value).toList ++ ['\'']) := by
  simp [Condition.quoted]

/-- The characters of integers and ranges. -/
theorem mem_intValue_text {value : IntValue} {c : Char} (h : c ∈ value.text.toList) :
    Decimal.isNumeric c = true ∨ c = '.' := by
  cases value with
  | exact n => exact Or.inl (Decimal.mem_ofInt h)
  | range r =>
    simp only [IntValue.text, Range.text, String.toList_append, List.mem_append] at h
    rcases h with (h | h) | h
    · exact Or.inl (Range.mem_boundText h)
    · exact Or.inr (by simpa using h)
    · exact Or.inl (Range.mem_boundText h)

theorem readIntValue_text (value : IntValue) : readIntValue value.text.toList = some value := by
  unfold readIntValue
  rw [String.ofList_toList]
  cases value with
  | exact n => simp [IntValue.text, Range.ofText_ofInt, Decimal.readInt64_ofInt, Except.toOption]
  | range r => simp [IntValue.text, Range.ofText_text]

theorem quote_ne_of_isEscaped {c : Char} (h : Text.isEscaped c = true) : '\'' ≠ c := by
  rintro rfl
  exact absurd h (by decide)

theorem not_mem_quote_escape (s : String) : '\'' ∉ (Text.escape s).toList :=
  fun h => quote_ne_of_isEscaped (Text.mem_escape h) rfl

theorem not_mem_quote_fieldText (field : String) : '\'' ∉ (Condition.fieldText field).toList := by
  rw [toList_fieldText, List.mem_append]
  rintro (h | h)
  · exact not_mem_quote_escape field h
  · exact absurd h (by decide)

/-- The field in front of a quoted text is read back. -/
theorem readField_fieldText (field : Option String) :
    readField ((field.map Condition.fieldText).getD "").toList = some field := by
  cases field with
  | none => rfl
  | some field =>
    have hsplit := splitField?_append (show 'A' ∉ [] by simp) (Text.escape field).toList
    rw [List.append_nil] at hsplit
    simp only [Option.map_some, Option.getD_some]
    rw [toList_fieldText, readField]
    · rw [hsplit]
      simp only [Text.unescape_escape, Option.map_some]
    · simp

/-- **The text of an atom is read as the atom.** -/
theorem readAtom_spelling (a : Atom) : readAtom a.spelling.toList = some a := by
  cases a with
  | text field value =>
    have hfield : '\'' ∉ ((field.map Condition.fieldText).getD "").toList := by
      cases field with
      | none => simp
      | some field => exact not_mem_quote_fieldText field
    have hopen := Text.splitOnce_append [] hfield ((Text.escape value).toList ++ ['\''])
    have hclose := Text.splitOnce_append [] (not_mem_quote_escape value) []
    rw [List.append_nil] at hclose
    have hword : (Atom.text field value).spelling.toList
        = ((field.map Condition.fieldText).getD "").toList ++ ['\'']
          ++ ((Text.escape value).toList ++ ['\'']) := by
      rw [Atom.spelling, String.toList_append, toList_quoted, List.append_assoc,
        List.singleton_append]
    unfold readAtom
    rw [hword, hopen]
    simp only [hclose, readField_fieldText, Text.unescape_escape, Option.bind_some,
      Option.map_some]
  | int field value =>
    have hvalue : ∀ c ∈ value.text.toList, c ≠ '\'' ∧ c ≠ 'A' := by
      intro c hc
      rcases mem_intValue_text hc with h | rfl
      · constructor <;> (rintro rfl; exact absurd h (by decide))
      · decide
    have hquote : '\'' ∉ (Atom.int field value).spelling.toList := by
      rw [Atom.spelling, String.toList_append, List.mem_append]
      rintro (h | h)
      · exact not_mem_quote_fieldText field h
      · exact (hvalue _ h).1 rfl
    unfold readAtom
    rw [Text.splitOnce_eq_none [] hquote]
    simp only [Atom.spelling, String.toList_append, toList_fieldText]
    rw [splitField?_append fun h => (hvalue _ h).2 rfl]
    simp only [Text.unescape_escape, readIntValue_text, Option.bind_some, Option.map_some]

/-! ## 4. Where a word ends -/

theorem isWordChar_of_isEscaped {c : Char} (h : Text.isEscaped c = true) :
    isWordChar c = true := by
  simp [isWordChar, h]

theorem isWordChar_of_isNumeric {c : Char} (h : Decimal.isNumeric c = true) :
    isWordChar c = true := by
  rw [Decimal.isNumeric, Bool.or_eq_true, decide_eq_true_eq] at h
  rcases h with h | rfl
  · simp [isWordChar, Text.isEscaped, Text.isUnreserved, Char.isAlphanum, h]
  · decide

theorem isWordChar_of_mem_fieldText {field : String} {c : Char}
    (h : c ∈ (Condition.fieldText field).toList) : isWordChar c = true := by
  rw [toList_fieldText, List.mem_append] at h
  rcases h with h | h
  · exact isWordChar_of_isEscaped (Text.mem_escape h)
  · simp only [List.mem_cons, List.not_mem_nil, or_false] at h
    rcases h with rfl | rfl | rfl <;> decide

/-- **The text of an atom is a word**: no parenthesis, no `+`, nothing that would end it. -/
theorem isWordChar_of_mem_spelling {a : Atom} {c : Char} (h : c ∈ a.spelling.toList) :
    isWordChar c = true := by
  cases a with
  | text field value =>
    rw [Atom.spelling, String.toList_append, List.mem_append, toList_quoted] at h
    rcases h with h | h
    · cases field with
      | none => simp at h
      | some field => exact isWordChar_of_mem_fieldText h
    · simp only [List.mem_cons, List.mem_append, List.not_mem_nil, or_false] at h
      rcases h with rfl | h | rfl
      · decide
      · exact isWordChar_of_isEscaped (Text.mem_escape h)
      · decide
  | int field value =>
    rw [Atom.spelling, String.toList_append, List.mem_append] at h
    rcases h with h | h
    · exact isWordChar_of_mem_fieldText h
    · rcases mem_intValue_text h with h | rfl
      · exact isWordChar_of_isNumeric h
      · decide

theorem isWordChar_of_mem_keyword {k : Conjunction} {c : Char} (h : c ∈ k.keyword.toList) :
    isWordChar c = true := by
  cases k <;>
    (simp only [Conjunction.keyword, String.reduceToList, List.mem_cons, List.not_mem_nil,
      or_false] at h
     rcases h with rfl | rfl | rfl <;> decide)

theorem isWordChar_of_mem_not {c : Char} (h : c ∈ "not".toList) : isWordChar c = true := by
  simp only [String.reduceToList, List.mem_cons, List.not_mem_nil, or_false] at h
  rcases h with rfl | rfl | rfl <;> decide

theorem atom_spelling_ne_nil (a : Atom) : a.spelling.toList ≠ [] := by
  cases a with
  | text field value => simp [Atom.spelling, Condition.quoted]
  | int field value => simp [Atom.spelling, Condition.fieldText]

theorem toList_operation (word t : String) (ts : List String) :
    (Condition.operation word (t :: ts)).toList
      = '(' :: (word.toList ++ '+' :: ((String.intercalate "+" (t :: ts)).toList ++ [')'])) := by
  simp [Condition.operation, String.intercalate_cons_cons]

theorem spelling_ne_nil (n : Node) : n.spelling.toList ≠ [] := by
  cases n with
  | atom a => exact atom_spelling_ne_nil a
  | op k first more => simp [Node.spelling, toList_operation]
  | not operand => simp [Node.spelling, toList_operation]

/-! ## 5. Nodes read back -/

/-- One step: a word that ends here is an atom. -/
theorem readNode_word {fuel : Nat} {word rest : List Char} {a : Atom} (hne : word ≠ [])
    (hword : ∀ c ∈ word, isWordChar c = true) (hrest : Text.StopsAt isWordChar rest)
    (ha : readAtom word = some a) : readNode (fuel + 1) (word ++ rest) = some (.atom a, rest) := by
  have htake := Text.takeWhile_append_stop hword hrest
  have hdrop := Text.dropWhile_append_stop hword hrest
  rw [readNode]
  · rw [htake, hdrop, ha]; rfl
  · rintro cs hcs
    obtain ⟨c, word', rfl⟩ := List.exists_cons_of_ne_nil hne
    have hc : c = '(' := (List.cons.inj hcs).1
    exact absurd (hword c List.mem_cons_self) (by subst hc; decide)

/-- One step: a parenthesis, a word and a row of operands are an operation or a complement. -/
theorem readNode_operation {fuel : Nat} {word operands rest : List Char} {ns : List Node}
    {n : Node} (hword : ∀ c ∈ word, isWordChar c = true)
    (hrow : readRow fuel (operands ++ ')' :: rest) = some (ns, ')' :: rest))
    (hn : ofWord word ns = some n) :
    readNode (fuel + 1) ('(' :: (word ++ '+' :: (operands ++ [')'])) ++ rest) = some (n, rest) := by
  have hstop : Text.StopsAt isWordChar ('+' :: (operands ++ ')' :: rest)) :=
    Text.stopsAt_cons (by decide)
  have htake := Text.takeWhile_append_stop hword hstop
  have hdrop := Text.dropWhile_append_stop hword hstop
  have hcs : word ++ '+' :: (operands ++ [')']) ++ rest
      = word ++ '+' :: (operands ++ ')' :: rest) := by simp
  rw [List.cons_append, hcs, readNode]
  simp only [hdrop, htake, hrow, hn, Option.map_some]

/-- What may follow a row of nodes: nothing, or the parenthesis that closes it. -/
def Closes (rest : List Char) : Prop := rest = [] ∨ ∃ cs, rest = ')' :: cs

theorem Closes.stopsAt {rest : List Char} (h : Closes rest) : Text.StopsAt isWordChar rest := by
  rcases h with rfl | ⟨cs, rfl⟩
  · exact Text.stopsAt_nil _
  · exact Text.stopsAt_cons (by decide)

theorem rowText_cons_cons (n m : Node) (ns : List Node) :
    (rowText (n :: m :: ns)).toList = n.spelling.toList ++ '+' :: (rowText (m :: ns)).toList := by
  simp [rowText, spellings, String.intercalate_cons_cons]

theorem rowText_singleton (n : Node) : rowText [n] = n.spelling := by
  simp [rowText, spellings]

/-- One step: the last node of a row. -/
theorem readRow_last {fuel : Nat} {cs rest : List Char} {n : Node} (hrest : Closes rest)
    (hn : readNode fuel cs = some (n, rest)) : readRow (fuel + 1) cs = some ([n], rest) := by
  rw [readRow, hn]
  rcases hrest with rfl | ⟨cs, rfl⟩ <;> rfl

/-- **What the reader does with enough fuel**, by induction on the fuel: it takes a node, or a
row of nodes, from the front of a text and leaves the rest.  Reading a row hands the same text to
`readNode`, so a row needs one step more than its first node; that is the whole reason for the
two bounds. -/
theorem readNode_readRow_spelling : ∀ (fuel : Nat),
    (∀ (n : Node) (rest : List Char), 2 * n.spelling.toList.length ≤ fuel + 1 →
      Text.StopsAt isWordChar rest →
      readNode fuel (n.spelling.toList ++ rest) = some (n, rest)) ∧
    (∀ (n : Node) (ns : List Node) (rest : List Char),
      2 * (rowText (n :: ns)).toList.length ≤ fuel → Closes rest →
      readRow fuel ((rowText (n :: ns)).toList ++ rest) = some (n :: ns, rest)) := by
  intro fuel
  induction fuel with
  | zero =>
    refine ⟨?_, ?_⟩
    · intro n rest hlen _
      have hpos := List.length_pos_iff.mpr (spelling_ne_nil n)
      omega
    · intro n ns rest hlen _
      have hpos := List.length_pos_iff.mpr (spelling_ne_nil n)
      cases ns with
      | nil => rw [rowText_singleton] at hlen; omega
      | cons m ns =>
        rw [rowText_cons_cons, List.length_append, List.length_cons] at hlen
        omega
  | succ fuel ih =>
    obtain ⟨ihNode, ihRow⟩ := ih
    refine ⟨?_, ?_⟩
    · intro n rest hlen hrest
      cases n with
      | atom a =>
        exact readNode_word (atom_spelling_ne_nil a) (fun c hc => isWordChar_of_mem_spelling hc)
          hrest (readAtom_spelling a)
      | op k first more =>
        rw [Node.spelling, toList_operation] at hlen ⊢
        change 2 * ('(' :: (_ ++ '+' :: ((rowText (first :: more)).toList ++ [')']))).length ≤ _
          at hlen
        simp only [List.length_cons, List.length_append] at hlen
        refine readNode_operation (fun c hc => isWordChar_of_mem_keyword hc)
          (ihRow first more (')' :: rest) (by omega) (Or.inr ⟨rest, rfl⟩)) ?_
        cases k <;> rfl
      | not operand =>
        rw [Node.spelling, toList_operation, String.intercalate_singleton] at hlen ⊢
        simp only [List.length_cons, List.length_append] at hlen
        have hrow := ihRow operand [] (')' :: rest)
          (by rw [rowText_singleton]; omega) (Or.inr ⟨rest, rfl⟩)
        rw [rowText_singleton] at hrow
        exact readNode_operation (fun c hc => isWordChar_of_mem_not hc) hrow rfl
    · intro n ns rest hlen hrest
      cases ns with
      | nil =>
        rw [rowText_singleton] at hlen ⊢
        exact readRow_last hrest (ihNode n rest (by omega) hrest.stopsAt)
      | cons m ns =>
        rw [rowText_cons_cons] at hlen ⊢
        simp only [List.length_append, List.length_cons] at hlen
        have hn := ihNode n ('+' :: ((rowText (m :: ns)).toList ++ rest)) (by omega)
          (Text.stopsAt_cons (by decide))
        have hrow := ihRow m ns rest (by omega) hrest
        rw [List.append_assoc, List.cons_append, readRow, hn]
        simp only [hrow, Option.map_some]

/-- **A row of nodes is read back from its text.** -/
theorem read_rowText {ns : List Node} (h : ns ≠ []) : read (rowText ns) = some ns := by
  obtain ⟨n, ms, rfl⟩ := List.exists_cons_of_ne_nil h
  have hrow := (readNode_readRow_spelling (2 * (rowText (n :: ms)).toList.length)).2 n ms []
    (Nat.le_refl _) (Or.inl rfl)
  rw [List.append_nil] at hrow
  unfold read
  rw [hrow]

end Expression
end DocSearch
