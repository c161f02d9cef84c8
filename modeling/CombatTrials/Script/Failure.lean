/-!
# How scripts fail

Every failure ends the evaluation it arises in. `Failure.message` is the one place where a failure
is put into words.
-/

namespace CombatTrials
namespace Script

/-- The types that a value can be asked to coerce to. -/
inductive Primitive where
  | number
  | boolean
  deriving DecidableEq, Repr

/-- The name of a primitive type. -/
def Primitive.name : Primitive → String
  | .number => "number"
  | .boolean => "boolean"

/-- Why an evaluation ended without a value. -/
inductive Failure where
  /-- A variable is not bound. -/
  | undefinedName (name : String)
  /-- A value of the named type lacks an attribute. -/
  | noAttribute (typeName name : String)
  /-- A value of the named type does not coerce. -/
  | mismatch (expected : Primitive) (found : String)
  /-- A value of the named type was called. -/
  | notCallable (typeName : String)
  /-- A function was called with the wrong number of arguments. -/
  | arity (callee : String) (expected found : Nat)
  /-- A function rejected its arguments. -/
  | call (callee message : String)
  /-- A switch ran out of cases; `subject` is its rendered subject, or `none` when it has none. -/
  | noMatchingCase (subject : String)
  deriving DecidableEq, Repr

/-- A failure in words. -/
def Failure.message : Failure → String
  | .undefinedName name => s!"identifier '{name}' is not defined"
  | .noAttribute typeName name => s!"{typeName} has no attribute '{name}'"
  | .mismatch expected found => s!"expected {expected.name}, found {found}"
  | .notCallable typeName => s!"{typeName} is not callable"
  | .arity callee expected found => s!"{callee} expects {expected} argument(s), got {found}"
  | .call callee message => s!"call to {callee} failed: {message}"
  | .noMatchingCase subject => s!"no switch case matched (subject: {subject})"

end Script
end CombatTrials
