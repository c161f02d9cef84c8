/-!
# Strategy scripts as trees

A script is a tree of a closed set of nodes: an `Expression` produces a value, a `Statement` is
executed for its effect. There is no text form to parse; trees are read from data files or built in
code, and one tree is shared by every fight that runs it.

Trees are compared structurally. Number constants compare as numbers, so `0` equals `-0` and NaN
differs from itself.
-/

namespace CombatTrials
namespace Script

/-- A constant in a tree. -/
inductive Literal where
  | number (value : Float)
  | boolean (value : Bool)
  deriving BEq, Inhabited

/-- Prefix operators. -/
inductive UnaryOp where
  | plus
  | minus
  | negate
  deriving DecidableEq, Repr

/-- Infix operators on numbers. -/
inductive ArithmeticOp where
  | add
  | subtract
  | multiply
  | divide
  | modulo
  deriving DecidableEq, Repr

/-- Infix operators on booleans, which evaluate the right side only when it decides the result. -/
inductive LogicalOp where
  | conj
  | disj
  deriving DecidableEq, Repr

/-- Comparison operators. -/
inductive ComparisonOp where
  | equal
  | notEqual
  | less
  | lessOrEqual
  | greater
  | greaterOrEqual
  deriving DecidableEq, Repr

/-- A node that produces a value. -/
inductive Expression where
  | identifier (name : String)
  | literal (value : Literal)
  | access (target : Expression) (name : String)
  | call (callee : Expression) (args : List Expression)
  | unary (op : UnaryOp) (operand : Expression)
  | arithmetic (op : ArithmeticOp) (lhs rhs : Expression)
  | logical (op : LogicalOp) (lhs rhs : Expression)
  | comparison (op : ComparisonOp) (lhs rhs : Expression)
  deriving Inhabited

mutual

/-- A node that is executed for its effect. -/
inductive Statement where
  /-- Statements in order. -/
  | block (body : List Statement)
  /-- Binds a variable to a value. -/
  | assign (name : String) (value : Expression)
  /-- A conditional; without an `otherwise`, nothing is done when the condition is false. -/
  | branch (condition : Expression) (thenDo : Statement) (otherwise : Option Statement)
  /-- The first case that matches. With a subject, a condition matches when it equals the subject;
  without one, when it is true. -/
  | switch (subject : Option Expression) (cases : List Case)
  /-- Evaluates and discards. -/
  | expression (value : Expression)

/-- One arm of a switch. -/
inductive Case where
  /-- Matches when one of the conditions does. -/
  | matching (conditions : List Expression) (body : Statement)
  /-- Matches when it is reached. -/
  | default (body : Statement)

end

instance : Inhabited Statement := ⟨.block []⟩
instance : Inhabited Case := ⟨.default default⟩

/-- What a case executes when it is selected. -/
def Case.body : Case → Statement
  | .matching _ body => body
  | .default body => body

/-- A strategy: `initializer` runs once per play and leaves the variables that every turn starts
from, `body` runs once per turn. -/
structure Program where
  initializer : Option Statement
  body : Statement
  deriving Inhabited

/-! ## Structural equality -/

mutual

/-- Whether two expressions are the same tree. -/
def Expression.same : Expression → Expression → Bool
  | .identifier a, .identifier b => a == b
  | .literal a, .literal b => a == b
  | .access t a, .access u b => t.same u && a == b
  | .call f as, .call g bs => f.same g && Expression.sameAll as bs
  | .unary o a, .unary p b => o == p && a.same b
  | .arithmetic o a b, .arithmetic p c d => o == p && a.same c && b.same d
  | .logical o a b, .logical p c d => o == p && a.same c && b.same d
  | .comparison o a b, .comparison p c d => o == p && a.same c && b.same d
  | _, _ => false

/-- Whether two lists of expressions are the same trees, one by one. -/
def Expression.sameAll : List Expression → List Expression → Bool
  | [], [] => true
  | a :: as, b :: bs => a.same b && Expression.sameAll as bs
  | _, _ => false

end

instance : BEq Expression := ⟨Expression.same⟩

mutual

/-- Whether two statements are the same tree. -/
def Statement.same : Statement → Statement → Bool
  | .block as, .block bs => Statement.sameAll as bs
  | .assign x a, .assign y b => x == y && a == b
  | .branch a s none, .branch b t none => a == b && s.same t
  | .branch a s (some u), .branch b t (some v) => a == b && s.same t && u.same v
  | .switch a cs, .switch b ds => a == b && Case.sameAll cs ds
  | .expression a, .expression b => a == b
  | _, _ => false

/-- Whether two lists of statements are the same trees, one by one. -/
def Statement.sameAll : List Statement → List Statement → Bool
  | [], [] => true
  | a :: as, b :: bs => a.same b && Statement.sameAll as bs
  | _, _ => false

/-- Whether two cases are the same tree. -/
def Case.same : Case → Case → Bool
  | .matching as s, .matching bs t => as == bs && s.same t
  | .default s, .default t => s.same t
  | _, _ => false

/-- Whether two lists of cases are the same trees, one by one. -/
def Case.sameAll : List Case → List Case → Bool
  | [], [] => true
  | a :: as, b :: bs => a.same b && Case.sameAll as bs
  | _, _ => false

end

instance : BEq Statement := ⟨Statement.same⟩
instance : BEq Case := ⟨Case.same⟩

instance : BEq Program where
  beq a b := a.initializer == b.initializer && a.body == b.body

/-! ## Short forms for building trees -/

namespace Expression

/-- A number constant. -/
def number (value : Float) : Expression := .literal (.number value)

/-- A boolean constant. -/
def boolean (value : Bool) : Expression := .literal (.boolean value)

/-- Both operands, the right one only if the left one is true. -/
def both (lhs rhs : Expression) : Expression := .logical .conj lhs rhs

/-- Either operand, the right one only if the left one is false. -/
def either (lhs rhs : Expression) : Expression := .logical .disj lhs rhs

/-- Whether two operands are the same value. -/
def equals (lhs rhs : Expression) : Expression := .comparison .equal lhs rhs

/-- Whether the left operand is the smaller number. -/
def lessThan (lhs rhs : Expression) : Expression := .comparison .less lhs rhs

end Expression

namespace Statement

/-- Calls a variable without arguments and discards the result. -/
def invoke (callee : String) : Statement := .expression (.call (.identifier callee) [])

end Statement

namespace Program

/-- A program without an initializer. -/
def ofBody (body : Statement) : Program := ⟨none, body⟩

/-- The program with another initializer. -/
def withInitializer (program : Program) (statement : Statement) : Program :=
  { program with initializer := some statement }

end Program
end Script
end CombatTrials
