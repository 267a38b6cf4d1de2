/-
# Reading TOML documents

A document is a row of statements, one to a line: a header opens a table, and a key sets a value
in the table opened last.  A value is a string, a word, a list or a table in braces; lists may run
over lines, tables in braces may not.  The result is a JSON tree, in which a date or time is an
object with its text.
-/
import DocSearch.Toml.Scalar
import DocSearch.Toml.Table

namespace DocSearch.Toml

/-- The fault of a statement that does not fit the document so far. -/
def Fault.ofTable : TableFault → Fault
  | .duplicate name => .duplicate name
  | .notTable name => .notTable name

/-- How many lists and tables may be nested in a value, and how many parts a key may have. -/
def nestingLimit : Nat := 79

/-! ## 1. Keys -/

/-- One part of a key. -/
def keyPart (cs : List Char) : Scan String :=
  let isBare := fun c : Char => c.isAlphanum || c = '_' || c = '-'
  match cs with
  | '"' :: cs => shortString '"' cs
  | '\'' :: cs => shortString '\'' cs
  | cs =>
    let part := cs.takeWhile isBare
    if part.isEmpty then .error .badKey else .ok (String.ofList part, cs.dropWhile isBare)

/-- The parts of a key after those already `seen` (last first), and the blanks after it. -/
def keyParts : (fuel : Nat) → (seen : List String) → List Char → Scan (List String)
  | 0, _, _ => .error .tooDeep
  | fuel + 1, seen, cs =>
    match keyPart (skipGap cs) with
    | .error fault => .error fault
    | .ok (part, cs) =>
      match skipGap cs with
      | '.' :: cs => keyParts fuel (part :: seen) cs
      | cs => .ok ((part :: seen).reverse, cs)

/-- The parts of a key. -/
def scanKey (cs : List Char) : Scan (List String) := keyParts nestingLimit [] cs

/-- Sets the key with the given parts. -/
def assignKey (parts : List String) (j : Json) (members : Members) : Except Fault Members :=
  (assign parts.dropLast (parts.getLastD "") j members).mapError Fault.ofTable

/-! ## 2. Values -/

/-- What is left of a text after blanks, breaks and comments; a comment is under way or not. -/
def skipLines : (inComment : Bool) → List Char → List Char
  | _, [] => []
  | _, '\n' :: cs => skipLines false cs
  | true, c :: cs =>
    if isLineChar c then skipLines true cs
    else if c = '\r' && cs.head? = some '\n' then skipLines false cs
    else c :: cs
  | false, c :: cs =>
    if isGap c then skipLines false cs
    else if c = '#' then skipLines true cs
    else if c = '\r' && cs.head? = some '\n' then skipLines false cs
    else c :: cs

mutual

/-- The value at the front of a text.  `depth` is how many more levels of nesting can be held. -/
def readValue : (fuel depth : Nat) → List Char → Scan Json
  | 0, _, _ => .error .tooDeep
  | fuel + 1, depth, cs =>
    match cs with
    | '"' :: cs => (string '"' cs).map fun found => (.str found.1, found.2)
    | '\'' :: cs => (string '\'' cs).map fun found => (.str found.1, found.2)
    | '[' :: cs =>
      match depth with
      | 0 => .error .tooDeep
      | depth + 1 => (readItems fuel depth cs).map fun found => (.arr found.1, found.2)
    | '\x7b' :: cs =>
      match depth, skipGap cs with
      | 0, _ => .error .tooDeep
      | _ + 1, '\x7d' :: cs => .ok (.obj [], cs)
      | depth + 1, cs =>
        (readMembers fuel depth [] cs).map fun found => (.obj (membersToJson found.1), found.2)
    | cs =>
      let (word, rest) := takeWord cs
      match wordValue? word with
      | some j => .ok (j, rest)
      | none =>
        if word.isEmpty then .error .valueExpected else .error (.badWord (String.ofList word))

/-- The items of a list up to its closing bracket. -/
def readItems : (fuel depth : Nat) → List Char → Scan (List Json)
  | 0, _, _ => .error .tooDeep
  | fuel + 1, depth, cs =>
    match skipLines false cs with
    | ']' :: cs => .ok ([], cs)
    | cs =>
      match readValue fuel depth cs with
      | .error fault => .error fault
      | .ok (item, cs) =>
        match skipLines false cs with
        | ']' :: cs => .ok ([item], cs)
        | ',' :: cs => (readItems fuel depth cs).map fun found => (item :: found.1, found.2)
        | _ => .error .closingExpected

/-- The members of a table in braces up to its closing brace, after those already `made`. -/
def readMembers : (fuel depth : Nat) → (made : Members) → List Char → Scan Members
  | 0, _, _, _ => .error .tooDeep
  | fuel + 1, depth, made, cs =>
    match scanKey cs with
    | .error fault => .error fault
    | .ok (parts, '=' :: cs) =>
      match readValue fuel depth (skipGap cs) with
      | .error fault => .error fault
      | .ok (j, cs) =>
        match assignKey parts j made with
        | .error fault => .error fault
        | .ok made =>
          match skipGap cs with
          | '\x7d' :: cs => .ok (made, cs)
          | ',' :: cs => readMembers fuel depth made cs
          | _ => .error .closingExpected
    | .ok _ => .error .equalsExpected

end

/-! ## 3. Statements -/

/-- A statement of a document. -/
inductive Statement where
  /-- Opens a table, or the next item of a list of tables. -/
  | header (path : List String) (isItem : Bool)
  | pair (parts : List String) (value : Json)

/-- The statement at the front of a text that starts with no blank. -/
def scanStatement (cs : List Char) : Scan Statement :=
  match cs with
  | '[' :: '[' :: cs =>
    match scanKey cs with
    | .ok (path, ']' :: ']' :: cs) => .ok (.header path true, cs)
    | .ok _ => .error .closingExpected
    | .error fault => .error fault
  | '[' :: cs =>
    match scanKey cs with
    | .ok (path, ']' :: cs) => .ok (.header path false, cs)
    | .ok _ => .error .closingExpected
    | .error fault => .error fault
  | cs =>
    match scanKey cs with
    | .ok (parts, '=' :: cs) =>
      (readValue (2 * cs.length + 2) nestingLimit (skipGap cs)).map fun found =>
        (.pair parts found.1, found.2)
    | .ok _ => .error .equalsExpected
    | .error fault => .error fault

/-- What is left of a text after the end of its line, with a comment or without. -/
def lineEnd (cs : List Char) : Except Fault (List Char) :=
  let cs := skipGap cs
  let rest := if cs.head? = some '#' then cs.dropWhile isLineChar else cs
  match dropBreak? rest with
  | some rest => .ok rest
  | none => if rest.isEmpty then .ok [] else .error .lineEndExpected

/-- The statements of a text. -/
def statements : (fuel : Nat) → List Char → Except Fault (List Statement)
  | 0, _ => .ok []
  | fuel + 1, cs =>
    match skipGap cs with
    | [] => .ok []
    | c :: cs =>
      if c = '#' ∨ (dropBreak? (c :: cs)).isSome then
        (lineEnd (c :: cs)).bind (statements fuel)
      else
        match scanStatement (c :: cs) with
        | .error fault => .error fault
        | .ok (statement, cs) =>
          match lineEnd cs with
          | .error fault => .error fault
          | .ok cs => (statements fuel cs).map (statement :: ·)

/-! ## 4. Documents -/

/-- A document under construction: its members, and the path of the table opened last. -/
structure Draft where
  members : Members
  path : List String

/-- The document with one more statement. -/
def Draft.extend (d : Draft) : Statement → Except Fault Draft
  | .header path isItem =>
    let name := path.getLastD ""
    let change := if isItem then openItem name else openTable name
    ((within path.dropLast change d.members).mapError Fault.ofTable).map fun members =>
      ⟨members, path⟩
  | .pair parts j =>
    ((within d.path (assign parts.dropLast (parts.getLastD "") j) d.members).mapError
      Fault.ofTable).map fun members => ⟨members, d.path⟩

/-- The document that the statements make. -/
def Draft.ofStatements (all : List Statement) : Except Fault Draft :=
  all.foldlM Draft.extend ⟨[], []⟩

/-- What is left of a text after a byte order mark at its front. -/
def dropByteOrderMark (cs : List Char) : List Char :=
  if cs.head? = some '\ufeff' then cs.drop 1 else cs

/-- The table of a TOML text. -/
def read (text : String) : Except Fault Json :=
  let cs := dropByteOrderMark text.toList
  ((statements (cs.length + 1) cs).bind Draft.ofStatements).map fun d =>
    .obj (membersToJson d.members)

end DocSearch.Toml
