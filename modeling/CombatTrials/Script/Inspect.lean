import CombatTrials.Script.Value
import CombatTrials.Text.Inspected

/-!
# Values shown for inspection

Unlike the text of a value in messages, the inspected form shows what is inside an object: the
attributes of a record in ascending order of their names, the name and arity of a function.
-/

namespace CombatTrials
namespace Script

variable {κ : Type}

/-- An arity as it is shown. -/
def arityText : Option Nat → String
  | none => "None"
  | some n => s!"Some({n})"

/-- A function as it is shown. -/
def Native.inspect (f : Native κ) : String :=
  "NativeFunction \x7b name: " ++ Text.Inspected.quote f.name ++ ", arity: " ++
    arityText f.arity ++ ", .. \x7d"

mutual

/-- A value as it is shown. -/
def Value.inspect : Value κ → String
  | .number n => s!"Number({Numeric.Layout.inspected.write n})"
  | .boolean b => if b then "Boolean(true)" else "Boolean(false)"
  | .object _ body => "Object(" ++ body.inspect ++ ")"

/-- The contents of an object as they are shown. -/
def Object.inspect : Object κ → String
  | .record typeName attributes =>
    "CsRecord \x7b type_name: " ++ Text.Inspected.quote typeName ++ ", attributes: \x7b" ++
      inspectAttributes attributes ++ "\x7d \x7d"
  | .native f => f.inspect
  | .custom typeName _ _ _ => typeName

/-- Attributes as they are shown. -/
def inspectAttributes : List (String × Value κ) → String
  | [] => ""
  | [(name, v)] => Text.Inspected.quote name ++ ": " ++ v.inspect
  | (name, v) :: rest =>
    Text.Inspected.quote name ++ ": " ++ v.inspect ++ ", " ++ inspectAttributes rest

end

end Script
end CombatTrials
