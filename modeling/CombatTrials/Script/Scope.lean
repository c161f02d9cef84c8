import CombatTrials.Script.Value

/-!
# The variables of one execution

A `Scope` binds names to values. Scopes are values themselves: an execution that starts from a scope
leaves the scope it was given as it was. Bindings are listed in ascending order of their names, so
two scopes that bind the same names to the same values are equal, in whatever order they were bound.
-/

namespace CombatTrials
namespace Script

/-- The variables that an execution can read and bind. -/
structure Scope (κ : Type) where
  bindings : Data.Ledger String (Value κ) := []

namespace Scope

variable {κ : Type}

instance : Inhabited (Scope κ) := ⟨{}⟩

/-- The value of a variable, if it is bound. -/
def find? (scope : Scope κ) (name : String) : Option (Value κ) := scope.bindings.find? name

/-- The value of a variable, which must be bound. -/
def get (scope : Scope κ) (name : String) : Except Failure (Value κ) :=
  match scope.find? name with
  | some v => .ok v
  | none => .error (.undefinedName name)

/-- Whether a variable is bound. -/
def contains (scope : Scope κ) (name : String) : Bool := (scope.find? name).isSome

/-- Binds or rebinds a variable. -/
def set (scope : Scope κ) (name : String) (value : Value κ) : Scope κ :=
  ⟨scope.bindings.set name value⟩

/-- A scope with the given bindings; a later one replaces an earlier one of the same name. -/
def ofList (bindings : List (String × Value κ)) : Scope κ := ⟨.ofList bindings⟩

end Scope
end Script
end CombatTrials
