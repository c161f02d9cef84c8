import CombatTrials.Text.Json

/-!
# JSON terms

What a JSON text shows, before it is asked what it denotes. The grammar has texts that denote
nothing: an escape can name half of a surrogate pair, and no string has that character. A reader of
typed data never looks into the fields that it passes over, so such a string does no harm there. A
`Term` therefore keeps it as `broken`, and `Term.value?` is the value of a term in which nothing is
broken.
-/

namespace CombatTrials
namespace Text
namespace Json

/-- What a text shows. -/
inductive Term where
  /-- Null, a boolean, a number or a string. -/
  | scalar (value : Json)
  /-- A string with half of a surrogate pair in it. -/
  | broken
  | list (items : List Term)
  /-- Fields in the order of the text. A broken name is missing. -/
  | object (fields : List (Option String × Term))

namespace Term

instance : Inhabited Term := ⟨.broken⟩

mutual

/-- The value that a term denotes. -/
def value? : Term → Option Json
  | .scalar value => some value
  | .broken => none
  | .list items => do return .list (← values? items)
  | .object fields => do return .object (← fieldValues? fields)

/-- The values that items denote. -/
def values? : List Term → Option (List Json)
  | [] => some []
  | t :: rest => do
    let value ← t.value?
    return value :: (← values? rest)

/-- The fields with the values that they denote. -/
def fieldValues? : List (Option String × Term) → Option (List (String × Json))
  | [] => some []
  | (none, _) :: _ => none
  | (some name, t) :: rest => do
    let value ← t.value?
    return (name, value) :: (← fieldValues? rest)

end

end Term
end Json
end Text
end CombatTrials
