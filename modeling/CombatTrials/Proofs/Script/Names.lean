import CombatTrials.Script.Tree

/-!
# The names in a script

The variables that a tree can look at are those that stand in it as an identifier, and the variables
that it can bind are the targets of its assignments. A name can be both, and a target that is never
read is no identifier.
-/

namespace CombatTrials
namespace Script

/-! ## Identifiers -/

mutual

/-- The names that stand as identifiers in an expression. -/
def Expression.identifiers : Expression → List String
  | .identifier name => [name]
  | .literal _ => []
  | .access target _ => target.identifiers
  | .call callee args => callee.identifiers ++ Expression.identifiersAll args
  | .unary _ operand => operand.identifiers
  | .arithmetic _ lhs rhs | .logical _ lhs rhs | .comparison _ lhs rhs =>
    lhs.identifiers ++ rhs.identifiers

def Expression.identifiersAll : List Expression → List String
  | [] => []
  | e :: rest => e.identifiers ++ Expression.identifiersAll rest

end

mutual

/-- The names that stand as identifiers in the expressions of a statement. -/
def Statement.identifiers : Statement → List String
  | .block body => Statement.identifiersAll body
  | .assign _ value => value.identifiers
  | .branch condition thenDo none => condition.identifiers ++ thenDo.identifiers
  | .branch condition thenDo (some otherwise) =>
    condition.identifiers ++ (thenDo.identifiers ++ otherwise.identifiers)
  | .switch none cases => Case.identifiersAll cases
  | .switch (some subject) cases => subject.identifiers ++ Case.identifiersAll cases
  | .expression value => value.identifiers

def Statement.identifiersAll : List Statement → List String
  | [] => []
  | s :: rest => s.identifiers ++ Statement.identifiersAll rest

def Case.identifiersAll : List Case → List String
  | [] => []
  | .matching conditions body :: rest =>
    Expression.identifiersAll conditions ++ (body.identifiers ++ Case.identifiersAll rest)
  | .default body :: rest => body.identifiers ++ Case.identifiersAll rest

end

/-! ## Targets -/

mutual

/-- The names that the assignments of a statement bind. -/
def Statement.targets : Statement → List String
  | .block body => Statement.targetsAll body
  | .assign name _ => [name]
  | .branch _ thenDo none => thenDo.targets
  | .branch _ thenDo (some otherwise) => thenDo.targets ++ otherwise.targets
  | .switch _ cases => Case.targetsAll cases
  | .expression _ => []

def Statement.targetsAll : List Statement → List String
  | [] => []
  | s :: rest => s.targets ++ Statement.targetsAll rest

def Case.targetsAll : List Case → List String
  | [] => []
  | .matching _ body :: rest => body.targets ++ Case.targetsAll rest
  | .default body :: rest => body.targets ++ Case.targetsAll rest

end

end Script
end CombatTrials
