import CombatTrials.Numeric.Decimal

/-!
# JSON values

A JSON value as it stands in a text: the fields of an object keep their order and may repeat a name,
and a number remembers whether it was written as an integer, because readers of typed data tell `1`
from `1.0`. The integer `-0` is kept apart from `0` for the same reason: it can only be read as a
double.
-/

namespace CombatTrials
namespace Text

/-- A JSON value. -/
inductive Json where
  | null
  | boolean (value : Bool)
  /-- An integer without a sign. -/
  | natural (value : Nat)
  /-- An integer with a minus sign, by its magnitude. -/
  | negative (magnitude : Nat)
  /-- A number with a fraction or an exponent. -/
  | decimal (value : Numeric.Decimal)
  | text (value : String)
  | list (items : List Json)
  | object (fields : List (String × Json))
  deriving Inhabited

namespace Json

mutual

/-- How deep lists and objects are nested. -/
def height : Json → Nat
  | .list items => heightOfItems items + 1
  | .object fields => heightOfFields fields + 1
  | _ => 0

/-- The greatest height among items. -/
def heightOfItems : List Json → Nat
  | [] => 0
  | j :: rest => max j.height (heightOfItems rest)

/-- The greatest height among fields. -/
def heightOfFields : List (String × Json) → Nat
  | [] => 0
  | (_, j) :: rest => max j.height (heightOfFields rest)

end

/-- The first field of a name, if the value is an object with one. -/
def field? (name : String) : Json → Option Json
  | .object fields => fields.lookup name
  | _ => none

/-- A text, or null. -/
def ofText? : Option String → Json
  | some s => .text s
  | none => .null

end Json
end Text
end CombatTrials
