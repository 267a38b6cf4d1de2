/-
# Conditions of a boolean filter

A condition asks for a text, an integer, one of several values, or the combination of two other
conditions; it may be negated, and it says whether it joins the conditions that must all hold or
those of which the filter makes alternatives.  Its `fragment` is its part of the filter
expression, without a separator at either end; an empty list, and a group of conditions that
render nothing, render nothing.

Shapes of a fragment:

    text        field%3A'value'         ('value' alone without a field)
    integer     field%3A1977 or field%3A2000..2004
    list        field%3A'a'+field%3A'b'
    group       (and+left+right) or (or+left+right)
    negated     (not+fragment), and (not+(or+a+b)) for a list of several values
-/
import DocSearch.Text.Percent
import DocSearch.Filter.Range

namespace DocSearch

/-! ## 1. Conditions -/

/-- How operands combine. -/
inductive Conjunction where
  | and
  | or
deriving DecidableEq, Repr, Inhabited

/-- The word for a conjunction in an expression. -/
def Conjunction.keyword : Conjunction → String
  | .and => "and"
  | .or => "or"

/-- What an integer field is compared with. -/
inductive IntValue where
  | exact (n : Int64)
  | range (r : Range)
deriving DecidableEq, Repr

/-- The text of an integer or range. -/
def IntValue.text : IntValue → String
  | .exact n => Decimal.ofInt n.toInt
  | .range r => r.text

/-- Which bucket a condition joins at the top of a filter, and whether it is negated. -/
structure Flags where
  conjunction : Conjunction
  negate : Bool
deriving DecidableEq, Repr

/-- The flags of a condition that has to hold. -/
def Flags.conjunct : Flags := ⟨.and, false⟩

/-- The flags of a condition that is one of several alternatives. -/
def Flags.alternative : Flags := ⟨.or, false⟩

/-- A condition of a boolean filter. -/
inductive Condition where
  /-- A field has a text; without a field, the text occurs anywhere. -/
  | text (field : Option String) (value : String) (flags : Flags)
  /-- A field has an integer, or one of a range. -/
  | int (field : String) (value : IntValue) (flags : Flags)
  /-- One comparison for each text. -/
  | texts (field : String) (values : List String) (flags : Flags)
  /-- One comparison for each integer. -/
  | ints (field : String) (values : List Int64) (flags : Flags)
  /-- Two conditions under one operator. -/
  | group (left : Condition) (operator : Conjunction) (right : Condition) (flags : Flags)
deriving DecidableEq, Repr

namespace Condition

/-- The flags of a condition. -/
def flags : Condition → Flags
  | .text _ _ flags => flags
  | .int _ _ flags => flags
  | .texts _ _ flags => flags
  | .ints _ _ flags => flags
  | .group _ _ _ flags => flags

/-- The same condition with other flags. -/
def withFlags (flags : Flags) : Condition → Condition
  | .text field value _ => .text field value flags
  | .int field value _ => .int field value flags
  | .texts field values _ => .texts field values flags
  | .ints field values _ => .ints field values flags
  | .group left operator right _ => .group left operator right flags

/-- The bucket that a condition joins. -/
def conjunction (c : Condition) : Conjunction := c.flags.conjunction

/-- The condition in the given bucket. -/
def withConjunction (conjunction : Conjunction) (c : Condition) : Condition :=
  c.withFlags { c.flags with conjunction }

/-- The condition, negated; negating it again changes nothing. -/
def negated (c : Condition) : Condition :=
  c.withFlags { c.flags with negate := true }

/-- A field has a text. -/
def hasText (field value : String) : Condition := .text (some field) value .conjunct

/-- A text occurs anywhere. -/
def literal (value : String) : Condition := .text none value .conjunct

/-- A field has an integer. -/
def equals (field : String) (n : Int64) : Condition := .int field (.exact n) .alternative

/-- A field has an integer of a range. -/
def within (field : String) (r : Range) : Condition := .int field (.range r) .alternative

/-- A field has one of several texts. -/
def amongTexts (field : String) (values : List String) : Condition :=
  .texts field values .alternative

/-- A field has one of several integers. -/
def amongInts (field : String) (values : List Int64) : Condition := .ints field values .alternative

/-- Two conditions under an operator. -/
def grouped (left : Condition) (operator : Conjunction) (right : Condition) : Condition :=
  .group left operator right .conjunct

/-- Whether a condition lists its values. -/
def isList : Condition → Bool
  | .texts .. => true
  | .ints .. => true
  | _ => false

/-- An integer condition with its value replaced; any other condition as it is. -/
def withValue (value : IntValue) : Condition → Condition
  | .int field _ flags => .int field value flags
  | c => c

/-! ## 2. Fragments -/

/-- A literal between quotes. -/
def quoted (value : String) : String :=
  "'" ++ Text.escape value ++ "'"

/-- The name of a field, with the sign that separates it from the value. -/
def fieldText (field : String) : String :=
  Text.escape field ++ "%3A"

/-- A fragment under `not`, unless there is nothing to negate. -/
def negateWhen (negate : Bool) (fragment : String) : String :=
  if negate && !fragment.isEmpty then "(not+" ++ fragment ++ ")" else fragment

/-- Operands under a keyword. -/
def operation (keyword : String) (operands : List String) : String :=
  "(" ++ String.intercalate "+" (keyword :: operands) ++ ")"

/-- The terms of a list, one after the other.  `not` takes one operand, so several terms are
first put under the list's own keyword. -/
def listFragment (terms : List String) (flags : Flags) : String :=
  if flags.negate && 1 < terms.length then
    "(not+" ++ operation flags.conjunction.keyword terms ++ ")"
  else negateWhen flags.negate (String.intercalate "+" terms)

/-- The part of a filter expression that a condition renders. -/
def fragment : Condition → String
  | .text field value flags =>
    negateWhen flags.negate ((field.map fieldText).getD "" ++ quoted value)
  | .int field value flags => negateWhen flags.negate (fieldText field ++ value.text)
  | .texts field values flags =>
    listFragment (values.map fun value => fieldText field ++ quoted value) flags
  | .ints field values flags =>
    listFragment (values.map fun n => fieldText field ++ Decimal.ofInt n.toInt) flags
  | .group left operator right flags =>
    let operands := [fragment left, fragment right].filter fun operand => !operand.isEmpty
    if operands.isEmpty then ""
    else negateWhen flags.negate (operation operator.keyword operands)

@[simp] theorem negateWhen_false (fragment : String) : negateWhen false fragment = fragment := rfl

end Condition
end DocSearch
