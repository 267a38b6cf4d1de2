/-
# The arguments of the command line

A command line has two levels: what stands before the name of the command, and what stands after
it.  Options that concern the whole program may stand on either; given on both, the inner one
counts.  Words are read from left to right.  The value of an option that stands in a word of its
own is taken up when the next option or the end of its level comes, so a fault in it is found
then, and after any fault of the level inside.
-/
import DocSearch.Text.Blank
import DocSearch.Text.Decimal

namespace DocSearch.CommandLine

/-! ## 1. What may be given -/

/-- The names of the commands. -/
inductive CommandName where
  | url
  | search
  | delete
  | config
deriving DecidableEq, Repr

/-- The words that name a command. -/
def CommandName.words : List (String × CommandName) :=
  [("url", .url), ("search", .search), ("delete", .delete), ("config", .config)]

/-- The word that asks for help on a command. -/
def helpWord : String := "help"

/-- Options without a value. -/
inductive Switch where
  | json
  | yaml
  | toml
  | quiet
  | verbose
  | help
  | version
deriving DecidableEq, Repr

/-- Options with a value. -/
inductive Parameter where
  | config
  | domain
  | keyword
  | required
  | alternative
  | integer
  | facet
  | field
  | size
  | start
  | rank
  | raw
  | id
deriving DecidableEq, Repr

/-- An option. -/
inductive Choice where
  | switch (s : Switch)
  | parameter (p : Parameter)
deriving DecidableEq, Repr

/-- The options of every level, by name. -/
def commonChoices : List (String × Choice) :=
  [("config", .parameter .config), ("domain", .parameter .domain), ("json", .switch .json),
   ("yaml", .switch .yaml), ("toml", .switch .toml), ("quiet", .switch .quiet),
   ("verbose", .switch .verbose), ("help", .switch .help)]

/-- The options of a search, by name. -/
def searchChoices : List (String × Choice) :=
  [("keyword", .parameter .keyword), ("and", .parameter .required),
   ("or", .parameter .alternative), ("int", .parameter .integer), ("facet", .parameter .facet),
   ("return-field", .parameter .field), ("size", .parameter .size),
   ("start", .parameter .start), ("rank", .parameter .rank), ("raw", .parameter .raw)]

/-- The options of a level of its own, by name; the outer level has no command. -/
def ownChoices : Option CommandName → List (String × Choice)
  | none => [("version", .switch .version)]
  | some .url => searchChoices
  | some .search => searchChoices
  | some .delete => [("id", .parameter .id)]
  | some .config => []

/-- The option that a name denotes on a level. -/
def choice? (command : Option CommandName) (name : String) : Option Choice :=
  (commonChoices ++ ownChoices command).lookup name

/-- The switch that a letter denotes on a level. -/
def letter? (command : Option CommandName) : Char → Option Switch
  | 'q' => some .quiet
  | 'v' => some .verbose
  | 'h' => some .help
  | 'V' => if command.isNone then some .version else none
  | _ => none

namespace Parameter

/-- Whether an option may be given more than once. -/
def isList : Parameter → Bool
  | .required => true
  | .alternative => true
  | .integer => true
  | .facet => true
  | .field => true
  | _ => false

/-- Whether a word with a hyphen in front can be the value of an option. -/
def takesHyphens : Parameter → Bool
  | .rank => true
  | _ => false

end Parameter

/-! ## 2. Faults -/

/-- Why a command line is not carried out. -/
inductive UsageFault where
  /-- Help was asked for. -/
  | helpWanted
  /-- The version was asked for. -/
  | versionWanted
  /-- Nothing was given at all. -/
  | nothingGiven
  /-- No command was named. -/
  | noCommand
  | unknownCommand
  /-- An option that does not exist here, or a word that belongs nowhere. -/
  | unknownArgument
  /-- An option without its value. -/
  | noValue
  /-- A value for a switch. -/
  | unwantedValue
  /-- An option given twice, or two formats. -/
  | conflict
  /-- A value that is no number of the range. -/
  | badNumber
  /-- A command without an option that it needs. -/
  | missingOption
deriving DecidableEq, Repr

/-- The number that the value of an option denotes: an integer of 32 bits without sign. -/
def number? (value : String) : Option UInt32 :=
  match Decimal.readInt64 value with
  | .ok n =>
    if 0 ≤ n.toInt ∧ n.toInt < UInt32.size then some (UInt32.ofNat n.toInt.toNat) else none
  | .error _ => none

/-- Refuses a value that an option cannot have. -/
def Parameter.check (p : Parameter) (value : String) : Except UsageFault Unit :=
  match p with
  | .config => if value.isEmpty then .error .noValue else .ok ()
  | .size => if (number? value).isSome then .ok () else .error .badNumber
  | .start => if (number? value).isSome then .ok () else .error .badNumber
  | _ => .ok ()

/-! ## 3. Levels -/

/-- What has been read of a level. -/
structure Level where
  switches : List Switch
  values : List (Parameter × String)
  /-- The option given last, not yet taken up, with its value if that was given. -/
  pending : Option (Parameter × Option String)
deriving DecidableEq, Repr

namespace Level

/-- The level before anything is read. -/
def empty : Level := ⟨[], [], none⟩

/-- Takes up a value of an option. -/
def take (p : Parameter) (value : String) (level : Level) : Except UsageFault Level :=
  if !p.isList && (level.values.lookup p).isSome then .error .conflict
  else (p.check value).map fun _ => { level with values := level.values ++ [(p, value)] }

/-- Takes up the option given last. -/
def settle (level : Level) : Except UsageFault Level :=
  match level.pending with
  | none => .ok level
  | some (_, none) => .error .noValue
  | some (p, some value) => { level with pending := none }.take p value

/-- Adds a switch; only the one for verbosity may be repeated. -/
def press (s : Switch) (level : Level) : Except UsageFault Level :=
  level.settle.bind fun level =>
    match s with
    | .help => .error .helpWanted
    | .version => .error .versionWanted
    | s =>
      if s ≠ .verbose ∧ s ∈ level.switches then .error .conflict
      else .ok { level with switches := level.switches ++ [s] }

/-- Adds an option whose value, if given, stands in the same word. -/
def give (p : Parameter) (attached : Option String) (level : Level) : Except UsageFault Level :=
  level.settle.bind fun level =>
    match attached with
    | some value => level.take p value
    | none => .ok { level with pending := some (p, none) }

/-- Whether nothing was given. -/
def isEmpty (level : Level) : Bool := level.switches.isEmpty && level.values.isEmpty

/-- The value of an option that is given once. -/
def value? (p : Parameter) (level : Level) : Option String := level.values.lookup p

/-- The values of an option that may be repeated. -/
def list (p : Parameter) (level : Level) : List String :=
  (level.values.filter fun given => given.1 = p).map (·.2)

/-- Whether a switch was given. -/
def has (s : Switch) (level : Level) : Bool := level.switches.contains s

/-- Refuses two formats on one level. -/
def checkFormats (level : Level) : Except UsageFault Unit :=
  if 1 < (level.switches.filter fun s => s = .json ∨ s = .yaml ∨ s = .toml).length then
    .error .conflict
  else .ok ()

end Level

/-! ## 4. Reading words -/

/-- A long option with its attached value. -/
def readLong (command : Option CommandName) (word : List Char) (level : Level) :
    Except UsageFault Level :=
  let (name, attached) := match Text.splitOnce ['='] word with
    | some (name, value) => (name, some (String.ofList value))
    | none => (word, none)
  match choice? command (String.ofList name), attached with
  | none, _ => .error .unknownArgument
  | some (.switch _), some _ => .error .unwantedValue
  | some (.switch s), none => level.press s
  | some (.parameter p), attached => level.give p attached

/-- The switches that stand in one word, each as a letter. -/
def readLetters (command : Option CommandName) (letters : List Char) (level : Level) :
    Except UsageFault Level :=
  letters.foldlM
    (fun level c =>
      match letter? command c with
      | some s => level.press s
      | none => .error .unknownArgument)
    level

/-- What follows the name of a command. -/
abbrev Inner := CommandName × List String

/-- A word that is neither an option nor a value nor the name of a command. -/
def strayWord (command : Option CommandName) (afterDashes : Bool) (word : String) : UsageFault :=
  if command.isSome then .unknownArgument
  else if afterDashes && (word = helpWord || (CommandName.words.lookup word).isSome) then
    .unknownArgument
  else .unknownCommand

/-- The kinds of words. -/
inductive Word where
  /-- Two hyphens alone. -/
  | dashes
  | long (text : List Char)
  | letters (text : List Char)
  | plain
deriving DecidableEq, Repr

/-- The kind of a word. -/
def Word.ofText (word : String) : Word :=
  match word.toList with
  | ['-', '-'] => .dashes
  | '-' :: '-' :: text => .long text
  | ['-'] => .plain
  | '-' :: text => .letters text
  | _ => .plain

/-- What words after the word for help ask for. -/
def readHelp : List String → UsageFault
  | [] => .helpWanted
  | [word] =>
    if word = helpWord || (CommandName.words.lookup word).isSome then .helpWanted
    else .unknownCommand
  | _ => .unknownCommand

/-- Reads the words of a level.  On the outer level that ends with the name of a command. -/
def readLevel (command : Option CommandName) :
    List String → Level → Except UsageFault (Level × Option Inner)
  | [], level => .ok (level, none)
  | word :: words, level =>
    let awaiting := match level.pending with
      | some (p, none) => some p
      | _ => none
    let named := if awaiting.isNone && command.isNone then CommandName.words.lookup word else none
    if awaiting.any Parameter.takesHyphens then
      readLevel command words { level with pending := awaiting.map fun p => (p, some word) }
    else if awaiting.isNone && command.isNone && word = helpWord then .error (readHelp words)
    else
      match named, Word.ofText word, awaiting with
      | some name, _, _ => .ok (level, some (name, words))
      | none, .dashes, _ =>
        match words with
        | [] => .ok (level, none)
        | stray :: _ => .error (strayWord command true stray)
      | none, .long text, _ =>
        match readLong command text level with
        | .error fault => .error fault
        | .ok level => readLevel command words level
      | none, .letters text, _ =>
        match readLetters command text level with
        | .error fault => .error fault
        | .ok level => readLevel command words level
      | none, .plain, some p =>
        readLevel command words { level with pending := some (p, some word) }
      | none, .plain, none => .error (strayWord command false word)

end DocSearch.CommandLine
