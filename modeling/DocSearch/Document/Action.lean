/-
# Document batches

Adding or deleting a document is an action; actions are sent to the service in batches, each the
JSON array of its actions.  A batch is closed when the next action would make its text longer
than the ceiling; an action that is too long by itself gets a batch to itself.
Main statements: `flatten_batches` (nothing is lost, repeated or reordered),
`ne_nil_of_mem_batches`.
-/
import DocSearch.Document.Basic

namespace DocSearch

/-! ## 1. Actions -/

/-- What an action does to a document. -/
inductive ActionKind where
  | add
  | delete
deriving DecidableEq, Repr

/-- The name of a kind of action. -/
def ActionKind.name : ActionKind → String
  | .add => "add"
  | .delete => "delete"

/-- The kinds of actions by name. -/
def ActionKind.names : List (String × ActionKind) := Json.byName name [.add, .delete]

/-- One entry of a batch. -/
structure Action where
  kind : ActionKind
  id : String
  /-- Of two actions on a document, the one with the greater version counts. -/
  version : Int64
  lang : Option String
  fields : Option (List (String × Json))

namespace Action

/-- Adds a document, or replaces it. -/
def add {s : Schema} (lang : String) (version : Int64) (d : Document s) : Action :=
  ⟨.add, d.id, version, some lang, some d.fieldsJson⟩

/-- Deletes the document with the identifier. -/
def delete (version : Int64) (id : String) : Action := ⟨.delete, id, version, none, none⟩

/-- The record of an action, without what is absent. -/
def toJson (a : Action) : Json :=
  .obj
    ([("type", Json.str a.kind.name), ("id", .str a.id), ("version", .int a.version.toInt)] ++
      (a.lang.map fun lang => ("lang", Json.str lang)).toList ++
      (a.fields.map fun fields => ("fields", Json.obj fields)).toList)

/-- Reads the fields of an action. -/
def fieldsOfJson (j : Json) : Option (List (String × Json)) :=
  match j.settle with
  | some (.obj members) => some members
  | _ => none

/-- Reads the record of an action; in an array every place has to be taken. -/
def ofJson (j : Json) : Option Action := do
  let record ← j.record?
  let given ← record.fields? .json ["type", "id", "version", "lang", "fields"] 5
  let kind ← Json.required (Json.oneOf? .json ActionKind.names) "type" given
  let id ← Json.required Json.string? "id" given
  let version ← Json.required Json.int64? "version" given
  let lang ← Json.optional (Json.nullable? Json.string?) none "lang" given
  let fields ← Json.optional (Json.nullable? fieldsOfJson) none "fields" given
  some ⟨kind, id, version, lang, fields⟩

/-- The text of an action. -/
def text (a : Action) : String := a.toJson.compact

/-- The length of the text of an action, in bytes. -/
def size (a : Action) : Nat := a.text.utf8ByteSize

end Action

/-! ## 2. Batches -/

/-- The text of a batch. -/
def batchText (batch : List Action) : String := (Json.arr (batch.map Action.toJson)).compact

/-- The batches of the actions that follow those of the batch at hand, whose text is `bytes`
long so far. -/
def batchesFrom (ceiling : Nat) : (batch : List Action) → (bytes : Nat) → List Action →
    List (List Action)
  | batch, _, [] => if batch.isEmpty then [] else [batch]
  | batch, bytes, a :: actions =>
    if batch.isEmpty then batchesFrom ceiling [a] (2 + a.size) actions
    else if bytes + (a.size + 1) > ceiling then
      batch :: batchesFrom ceiling [a] (2 + a.size) actions
    else batchesFrom ceiling (batch ++ [a]) (bytes + (a.size + 1)) actions

/-- The actions in batches whose text is no longer than the ceiling where that is possible. -/
def batches (ceiling : Nat) (actions : List Action) : List (List Action) :=
  batchesFrom ceiling [] 2 actions

theorem flatten_batchesFrom (ceiling : Nat) (batch : List Action) (bytes : Nat)
    (actions : List Action) :
    (batchesFrom ceiling batch bytes actions).flatten = batch ++ actions := by
  fun_induction batchesFrom ceiling batch bytes actions with
  | case1 batch bytes h => simp_all
  | case2 batch bytes h => simp
  | case3 batch bytes a actions h ih => simp_all
  | case4 batch bytes a actions h _ ih => simp [ih]
  | case5 batch bytes a actions h _ ih => simp [ih]

/-- Batching loses, repeats and reorders nothing. -/
theorem flatten_batches (ceiling : Nat) (actions : List Action) :
    (batches ceiling actions).flatten = actions := by
  simp [batches, flatten_batchesFrom]

/-- Without actions there is no batch, and only then. -/
theorem batches_eq_nil_iff {ceiling : Nat} {actions : List Action} :
    batches ceiling actions = [] ↔ actions = [] := by
  constructor
  · intro h
    rw [← flatten_batches ceiling actions, h, List.flatten_nil]
  · rintro rfl
    rfl

theorem ne_nil_of_mem_batchesFrom (ceiling : Nat) (batch : List Action) (bytes : Nat)
    (actions : List Action) :
    ∀ b ∈ batchesFrom ceiling batch bytes actions, b ≠ [] := by
  fun_induction batchesFrom ceiling batch bytes actions with
  | case1 batch bytes h => simp
  | case2 batch bytes h => simp_all
  | case3 batch bytes a actions h ih => exact ih
  | case4 batch bytes a actions h _ ih =>
    intro b hb
    rcases List.mem_cons.1 hb with rfl | hb
    · intro e; simp [e] at h
    · exact ih b hb
  | case5 batch bytes a actions h _ ih => exact ih

/-- No batch is empty. -/
theorem ne_nil_of_mem_batches {ceiling : Nat} {actions batch : List Action}
    (h : batch ∈ batches ceiling actions) : batch ≠ [] :=
  ne_nil_of_mem_batchesFrom ceiling [] 2 actions batch h

end DocSearch
