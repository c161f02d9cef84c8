import CombatTrials.Proofs.Script.Names

/-!
# The nodes of a script

What a script contains, at any depth: the statements that it is made of, itself among them, and the
expressions that these hold. The names of a script (`identifiers`, `targets`) are those that stand
in its nodes, so that what is known of nodes is known of names.
-/

namespace CombatTrials
namespace Script

/-! ## Expressions -/

mutual

/-- An expression and all expressions in it. -/
def Expression.nodes : Expression → List Expression
  | .identifier name => [.identifier name]
  | .literal value => [.literal value]
  | .access target name => .access target name :: target.nodes
  | .call callee args => .call callee args :: (callee.nodes ++ Expression.nodesAll args)
  | .unary op operand => .unary op operand :: operand.nodes
  | .arithmetic op lhs rhs => .arithmetic op lhs rhs :: (lhs.nodes ++ rhs.nodes)
  | .logical op lhs rhs => .logical op lhs rhs :: (lhs.nodes ++ rhs.nodes)
  | .comparison op lhs rhs => .comparison op lhs rhs :: (lhs.nodes ++ rhs.nodes)

def Expression.nodesAll : List Expression → List Expression
  | [] => []
  | e :: rest => e.nodes ++ Expression.nodesAll rest

end

mutual

/-- The expressions in a statement, at any depth. -/
def Statement.expressions : Statement → List Expression
  | .block body => Statement.expressionsAll body
  | .assign _ value => value.nodes
  | .branch condition thenDo none => condition.nodes ++ thenDo.expressions
  | .branch condition thenDo (some otherwise) =>
    condition.nodes ++ (thenDo.expressions ++ otherwise.expressions)
  | .switch none cases => Case.expressionsAll cases
  | .switch (some subject) cases => subject.nodes ++ Case.expressionsAll cases
  | .expression value => value.nodes

def Statement.expressionsAll : List Statement → List Expression
  | [] => []
  | s :: rest => s.expressions ++ Statement.expressionsAll rest

def Case.expressionsAll : List Case → List Expression
  | [] => []
  | .matching conditions body :: rest =>
    Expression.nodesAll conditions ++ (body.expressions ++ Case.expressionsAll rest)
  | .default body :: rest => body.expressions ++ Case.expressionsAll rest

end

/-! ## Statements -/

mutual

/-- A statement and all statements in it. -/
def Statement.nodes : Statement → List Statement
  | .block body => .block body :: Statement.nodesAll body
  | .assign name value => [.assign name value]
  | .branch condition thenDo none => .branch condition thenDo none :: thenDo.nodes
  | .branch condition thenDo (some otherwise) =>
    .branch condition thenDo (some otherwise) :: (thenDo.nodes ++ otherwise.nodes)
  | .switch subject cases => .switch subject cases :: Case.nodesAll cases
  | .expression value => [.expression value]

def Statement.nodesAll : List Statement → List Statement
  | [] => []
  | s :: rest => s.nodes ++ Statement.nodesAll rest

def Case.nodesAll : List Case → List Statement
  | [] => []
  | .matching _ body :: rest => body.nodes ++ Case.nodesAll rest
  | .default body :: rest => body.nodes ++ Case.nodesAll rest

end

theorem Statement.mem_nodesAll {n : Statement} {body : List Statement} :
    n ∈ Statement.nodesAll body ↔ ∃ s ∈ body, n ∈ s.nodes := by
  induction body with
  | nil => simp [nodesAll]
  | cons s rest ih => simp [nodesAll, ih]

/-! ## Names and nodes

Names were defined by recursion of their own, as a reader would list them. That they are the names
in the nodes connects them with whatever is known at nodes. -/

mutual

/-- An identifier among the nodes of an expression is one of its names. By recursion on the tree,
like what follows. -/
theorem Expression.mem_identifiers {x : String} :
    (e : Expression) → .identifier x ∈ e.nodes → x ∈ e.identifiers
  | .identifier name, h => by simpa [Expression.nodes, Expression.identifiers] using h
  | .literal _, h => by simp [Expression.nodes] at h
  | .access target _, h => target.mem_identifiers (by simpa [Expression.nodes] using h)
  | .call callee args, h => by
    simp only [Expression.nodes, List.mem_cons, reduceCtorEq, false_or, List.mem_append] at h
    exact List.mem_append.mpr (h.imp callee.mem_identifiers (Expression.mem_identifiersAll args))
  | .unary _ operand, h => operand.mem_identifiers (by simpa [Expression.nodes] using h)
  | .arithmetic _ lhs rhs, h | .logical _ lhs rhs, h | .comparison _ lhs rhs, h => by
    simp only [Expression.nodes, List.mem_cons, reduceCtorEq, false_or, List.mem_append] at h
    exact List.mem_append.mpr (h.imp lhs.mem_identifiers rhs.mem_identifiers)

theorem Expression.mem_identifiersAll {x : String} :
    (es : List Expression) → .identifier x ∈ Expression.nodesAll es →
      x ∈ Expression.identifiersAll es
  | e :: rest, h =>
    List.mem_append.mpr
      ((List.mem_append.mp h).imp e.mem_identifiers (Expression.mem_identifiersAll rest))

end

mutual

theorem Statement.mem_identifiers {x : String} :
    (s : Statement) → .identifier x ∈ s.expressions → x ∈ s.identifiers
  | .block body, h => Statement.mem_identifiersAll body h
  | .assign _ value, h => value.mem_identifiers h
  | .branch condition thenDo none, h =>
    List.mem_append.mpr
      ((List.mem_append.mp h).imp condition.mem_identifiers thenDo.mem_identifiers)
  | .branch condition thenDo (some otherwise), h => by
    refine List.mem_append.mpr ((List.mem_append.mp h).imp condition.mem_identifiers fun h => ?_)
    exact List.mem_append.mpr
      ((List.mem_append.mp h).imp thenDo.mem_identifiers otherwise.mem_identifiers)
  | .switch none cases, h => Case.mem_identifiersAll cases h
  | .switch (some subject) cases, h =>
    List.mem_append.mpr
      ((List.mem_append.mp h).imp subject.mem_identifiers (Case.mem_identifiersAll cases))
  | .expression value, h => value.mem_identifiers h

theorem Statement.mem_identifiersAll {x : String} :
    (body : List Statement) → .identifier x ∈ Statement.expressionsAll body →
      x ∈ Statement.identifiersAll body
  | s :: rest, h =>
    List.mem_append.mpr
      ((List.mem_append.mp h).imp s.mem_identifiers (Statement.mem_identifiersAll rest))

theorem Case.mem_identifiersAll {x : String} :
    (cases : List Case) → .identifier x ∈ Case.expressionsAll cases → x ∈ Case.identifiersAll cases
  | .matching conditions body :: rest, h => by
    refine List.mem_append.mpr
      ((List.mem_append.mp h).imp (Expression.mem_identifiersAll conditions) fun h => ?_)
    exact List.mem_append.mpr
      ((List.mem_append.mp h).imp body.mem_identifiers (Case.mem_identifiersAll rest))
  | .default body :: rest, h =>
    List.mem_append.mpr
      ((List.mem_append.mp h).imp body.mem_identifiers (Case.mem_identifiersAll rest))

end

mutual

/-- An assignment among the nodes of a statement binds one of its targets. -/
theorem Statement.mem_targets {x : String} {value : Expression} :
    (s : Statement) → .assign x value ∈ s.nodes → x ∈ s.targets
  | .block body, h => Statement.mem_targetsAll body (by simpa [Statement.nodes] using h)
  | .assign name _, h => by
    simp only [Statement.nodes, List.mem_singleton, Statement.assign.injEq] at h
    exact List.mem_singleton.mpr h.1
  | .branch _ thenDo none, h => thenDo.mem_targets (by simpa [Statement.nodes] using h)
  | .branch _ thenDo (some otherwise), h => by
    simp only [Statement.nodes, List.mem_cons, reduceCtorEq, false_or, List.mem_append] at h
    exact List.mem_append.mpr (h.imp thenDo.mem_targets otherwise.mem_targets)
  | .switch _ cases, h => Case.mem_targetsAll cases (by simpa [Statement.nodes] using h)
  | .expression _, h => by simp [Statement.nodes] at h

theorem Statement.mem_targetsAll {x : String} {value : Expression} :
    (body : List Statement) → .assign x value ∈ Statement.nodesAll body →
      x ∈ Statement.targetsAll body
  | s :: rest, h =>
    List.mem_append.mpr ((List.mem_append.mp h).imp s.mem_targets (Statement.mem_targetsAll rest))

theorem Case.mem_targetsAll {x : String} {value : Expression} :
    (cases : List Case) → .assign x value ∈ Case.nodesAll cases → x ∈ Case.targetsAll cases
  | .matching _ body :: rest, h | .default body :: rest, h =>
    List.mem_append.mpr ((List.mem_append.mp h).imp body.mem_targets (Case.mem_targetsAll rest))

end

end Script
end CombatTrials
