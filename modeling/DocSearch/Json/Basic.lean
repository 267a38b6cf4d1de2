/-
# JSON values

`Json` is a tree as a reader leaves it: members in text order, a repeated key kept twice, and
`unreadable` where the text is well formed but holds nothing this library can represent.
`settle` turns such a tree into a value: nothing unreadable is left, and of a repeated key the
last value stands at the first one's place.  Main statement: `keys_lastWins_nodup`
(a settled object has each key once).
-/
import DocSearch.Number.Double

namespace DocSearch

/-- A JSON tree. -/
inductive Json where
  | null
  | bool (b : Bool)
  | int (n : Int)
  | float (x : Double)
  | str (s : String)
  | arr (items : List Json)
  | obj (members : List (String × Json))
  /-- A value that can be skipped and nothing else: a number beyond the largest double, a text
  with an unpaired surrogate, or nesting beyond the reader's limit. -/
  | unreadable
deriving Inhabited

namespace Json

/-! ## 1. Access -/

/-- The value of a member of an object. -/
def get? (name : String) : Json → Option Json
  | .obj members => members.lookup name
  | _ => none

/-- Whether a value is `null`. -/
def isNull : Json → Bool
  | .null => true
  | _ => false

/-- Whether a value is an object. -/
def isObject : Json → Bool
  | .obj _ => true
  | _ => false

mutual

/-- Whether a tree holds nothing unreadable. -/
def isReadable : Json → Bool
  | .unreadable => false
  | .arr items => areItemsReadable items
  | .obj members => areMembersReadable members
  | _ => true

/-- Whether every item of a list is readable. -/
def areItemsReadable : List Json → Bool
  | [] => true
  | item :: items => isReadable item && areItemsReadable items

/-- Whether every member of an object is readable. -/
def areMembersReadable : List (String × Json) → Bool
  | [] => true
  | member :: members => isReadable member.2 && areMembersReadable members

end

/-! ## 2. Repeated keys -/

/-- The members with `name` set to `value`: in place when the name is there, at the end when it
is not. -/
def put (name : String) (value : Json) : List (String × Json) → List (String × Json)
  | [] => [(name, value)]
  | member :: members =>
    if member.1 = name then (name, value) :: members else member :: put name value members

/-- The members with each key once: the last value, at the place of the first. -/
def lastWins (members : List (String × Json)) : List (String × Json) :=
  members.foldl (fun settled member => put member.1 member.2 settled) []

theorem mem_keys_put {name key : String} {value : Json} {members : List (String × Json)} :
    key ∈ (put name value members).map (·.1) ↔ key = name ∨ key ∈ members.map (·.1) := by
  induction members with
  | nil => simp [put]
  | cons member members ih =>
    by_cases h : member.1 = name
    · simp [put, h]
    · simp only [put, h, if_false, List.map_cons, List.mem_cons, ih]
      grind

theorem keys_put_nodup (name : String) (value : Json) {members : List (String × Json)}
    (h : (members.map (·.1)).Nodup) : ((put name value members).map (·.1)).Nodup := by
  induction members with
  | nil => simp [put]
  | cons member members ih =>
    rw [List.map_cons, List.nodup_cons] at h
    by_cases hk : member.1 = name
    · simp only [put, hk, if_true, List.map_cons, List.nodup_cons]
      exact ⟨hk ▸ h.1, h.2⟩
    · simp only [put, hk, if_false, List.map_cons, List.nodup_cons]
      refine ⟨fun hmem => ?_, ih h.2⟩
      rcases mem_keys_put.1 hmem with e | e
      · exact hk e
      · exact h.1 e

/-- A settled object has each key once. -/
theorem keys_lastWins_nodup (members : List (String × Json)) :
    ((lastWins members).map (·.1)).Nodup := by
  have step : ∀ settled : List (String × Json), (settled.map (·.1)).Nodup →
      ((members.foldl (fun settled member => put member.1 member.2 settled) settled).map
        (·.1)).Nodup := by
    induction members with
    | nil => intro settled h; simpa using h
    | cons member members ih =>
      intro settled h
      rw [List.foldl_cons]
      exact ih _ (keys_put_nodup _ _ h)
  exact step [] (by simp)

/-! ## 3. Settled values -/

mutual

/-- The value that a tree stands for, if all of it is readable.  An infinity or no-number, which
no JSON number can be, is `null`. -/
def settle : Json → Option Json
  | .unreadable => none
  | .float x => some (if x.isFinite then .float x else .null)
  | .arr items => (settleItems items).map .arr
  | .obj members => (settleMembers members).map fun settled => .obj (lastWins settled)
  | .null => some .null
  | .bool b => some (.bool b)
  | .int n => some (.int n)
  | .str s => some (.str s)

/-- The values that the items of a list stand for. -/
def settleItems : List Json → Option (List Json)
  | [] => some []
  | item :: items =>
    match settle item, settleItems items with
    | some item, some items => some (item :: items)
    | _, _ => none

/-- The values that the members of an object stand for, repeated keys still repeated. -/
def settleMembers : List (String × Json) → Option (List (String × Json))
  | [] => some []
  | member :: members =>
    match settle member.2, settleMembers members with
    | some value, some members => some ((member.1, value) :: members)
    | _, _ => none

end

end Json
end DocSearch
