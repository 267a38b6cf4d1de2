/-
# Tables under construction

A TOML document builds its tables step by step: by headers, by the longer headers that imply
them, and by dotted keys.  A table remembers how it came about, because that decides what may
still be added to it.  A header opens a table that is new or was only implied, and puts it behind
what its parent holds by then; a dotted key may extend what dotted keys have made, and nothing
that a header has opened; a list of tables is extended by its own headers only, and stands for
its last item in every path.
-/
import DocSearch.Json.Basic

namespace DocSearch.Toml

/-! ## 1. Trees -/

/-- How a table came about. -/
inductive Origin where
  /-- By a header of its own. -/
  | header
  /-- By the header of a table inside it. -/
  | implied
  /-- By a dotted key. -/
  | dotted
deriving DecidableEq, Repr

/-- What a key stands for. -/
inductive Node where
  /-- A value that is complete where it stands. -/
  | value (j : Json)
  | table (origin : Origin) (members : List (String × Node))
  /-- A list of tables: those before the last, and the last. -/
  | tables (before : List (List (String × Node))) (last : List (String × Node))

/-- The members of a table, in the order in which they were made. -/
abbrev Members := List (String × Node)

mutual

/-- The value of a node. -/
def Node.toJson : Node → Json
  | .value j => j
  | .table _ members => .obj (membersToJson members)
  | .tables before last => .arr (itemsToJson before ++ [.obj (membersToJson last)])

/-- The values of members. -/
def membersToJson : List (String × Node) → List (String × Json)
  | [] => []
  | member :: members => (member.1, member.2.toJson) :: membersToJson members

/-- The values of the items of a list of tables. -/
def itemsToJson : List (List (String × Node)) → List Json
  | [] => []
  | item :: items => .obj (membersToJson item) :: itemsToJson items

end

/-! ## 2. Changing a member -/

/-- Why a statement does not fit the document so far. -/
inductive TableFault where
  /-- The key or table has been given before. -/
  | duplicate (name : String)
  /-- The path leads through something that is no table. -/
  | notTable (name : String)
deriving DecidableEq, Repr

/-- Changes what stands under a key, or adds the key. -/
def alter (name : String) (change : Option Node → Except TableFault Node) :
    Members → Except TableFault Members
  | [] => (change none).map fun node => [(name, node)]
  | member :: members =>
    if member.1 = name then (change (some member.2)).map fun node => (name, node) :: members
    else (alter name change members).map (member :: ·)

/-- Goes on inside a node that was not there. -/
def inNew (origin : Origin) (change : Members → Except TableFault Members) :
    Except TableFault Node :=
  (change []).map (.table origin)

/-- Goes on inside a table or the last item of a list of tables. -/
def inside (name : String) (change : Members → Except TableFault Members) :
    Node → Except TableFault Node
  | .table origin members => (change members).map (.table origin)
  | .tables before last => (change last).map (.tables before)
  | .value _ => .error (.notTable name)

/-- Changes the table at the end of a path of headers. -/
def within : (path : List String) → (change : Members → Except TableFault Members) → Members →
    Except TableFault Members
  | [], change, members => change members
  | name :: path, change, members =>
    alter name
      (fun
        | none => inNew .implied (within path change)
        | some node => inside name (within path change) node)
      members

/-- Sets the key at the end of a dotted path.  The table that receives it was made by dotted
keys, unless it is the table where the path starts. -/
def assign : (path : List String) → (name : String) → Json → Members →
    Except TableFault Members
  | [], name, j, members =>
    alter name
      (fun
        | none => .ok (.value j)
        | some _ => .error (.duplicate name))
      members
  | step :: path, name, j, members =>
    alter step
      (fun
        | none => inNew .dotted (assign path name j)
        | some (.table .header _) => .error (.duplicate step)
        | some (.table .dotted inner) => inside step (assign path name j) (.table .dotted inner)
        | some node =>
          if path.isEmpty then .error (.duplicate step)
          else inside step (assign path name j) node)
      members

/-- Opens a table by its header.  The table comes last, also when it was implied before. -/
def openTable (name : String) (members : Members) : Except TableFault Members :=
  let opened (inner : Members) : Members :=
    members.filter (fun member => decide (member.1 ≠ name)) ++ [(name, .table .header inner)]
  match members.lookup name with
  | none => .ok (opened [])
  | some (.table .implied inner) => .ok (opened inner)
  | some _ => .error (.duplicate name)

/-- Opens the next item of a list of tables by its header. -/
def openItem (name : String) (members : Members) : Except TableFault Members :=
  alter name
    (fun
      | none => .ok (.tables [] [])
      | some (.tables before last) => .ok (.tables (before ++ [last]) [])
      | some _ => .error (.duplicate name))
    members

/-! ## 3. Laws -/

end DocSearch.Toml
