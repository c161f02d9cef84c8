import CombatTrials.Numeric.Remainder
import CombatTrials.Script.Scope

/-!
# Evaluation

Evaluation walks the tree. Three things can be seen of it: the value or the `Failure` it ends with,
the variables it binds, and what the host's functions do when they are called. The types say which
part of the tree can do which: an expression is evaluated as a `Run`, which reads the scope and
changes the host's state only, while a statement is executed as an `Exec`, which may bind variables
too. Both keep what was done before a failure.

The order of events is fixed everywhere: operands from left to right, the callee before its
arguments, the subject of a switch once and before any condition, cases in the order in which they
are written. A `default` case matches when it is reached; it is not a fallback for the cases after
it.
-/

namespace CombatTrials
namespace Script

variable {κ σ : Type}

/-- A computation that may change the host's state and may fail; a failure keeps the state
reached. -/
abbrev Run (σ : Type) := ExceptT Failure (StateM σ)

/-- A computation that may bind variables besides. -/
abbrev Exec (κ σ : Type) := ExceptT Failure (StateM (Scope κ × σ))

/-- The meaning of the functions that a script can call: what a function does with arguments that
its arity allows. -/
structure Host (κ σ : Type) where
  call : Native κ → List (Value κ) → Run σ (Value κ)

/-- A computation on values as one that leaves the host alone. -/
def Run.ofExcept {α : Type} (result : Except Failure α) : Run σ α := ExceptT.mk (pure result)

/-- A computation that reads the scope, among those that may bind variables. -/
def Exec.reading {α : Type} (f : Scope κ → Run σ α) : Exec κ σ α :=
  ExceptT.mk fun (scope, state) =>
    let (result, state) := (f scope).run.run state
    (result, (scope, state))

/-- Binds a variable. -/
def Exec.bind (name : String) (value : Value κ) : Exec κ σ Unit :=
  ExceptT.mk fun (scope, state) => (.ok (), (scope.set name value, state))

/-- Calls a value. Only functions can be called, and the number of arguments is checked before the
host sees the call. -/
def Value.invoke (host : Host κ σ) (args : List (Value κ)) : Value κ → Run σ (Value κ)
  | .object _ (.native f) =>
    match f.arity with
    | none => host.call f args
    | some n =>
      if args.length = n then host.call f args
      else throw (.arity f.name n args.length)
  | v => throw (.notCallable v.typeName)

/-- A prefix operator applied to a value. -/
def UnaryOp.apply (op : UnaryOp) (v : Value κ) : Except Failure (Value κ) :=
  match op with
  | .plus => return .number (← v.toNumber)
  | .minus => return .number (-(← v.toNumber))
  | .negate => return .boolean (!(← v.toBoolean))

/-- An arithmetic operator applied to two numbers. A zero divisor is no failure. -/
def ArithmeticOp.apply : ArithmeticOp → Float → Float → Float
  | .add, a, b => a + b
  | .subtract, a, b => a - b
  | .multiply, a, b => a * b
  | .divide, a, b => a / b
  | .modulo, a, b => Numeric.remainder a b

/-- Whether a comparison holds of two numbers. -/
def ComparisonOp.holds : ComparisonOp → Float → Float → Bool
  | .equal, a, b => a == b
  | .notEqual, a, b => a != b
  | .less, a, b => a < b
  | .lessOrEqual, a, b => a ≤ b
  | .greater, a, b => a > b
  | .greaterOrEqual, a, b => a ≥ b

/-- A comparison of two values. Equality compares any two values; an ordering wants numbers on both
sides, the left one first. -/
def ComparisonOp.apply (op : ComparisonOp) (l r : Value κ) : Except Failure Bool :=
  match op with
  | .equal => .ok (l.same r)
  | .notEqual => .ok (!l.same r)
  | _ => return op.holds (← l.toNumber) (← r.toNumber)

/-- Whether the left operand alone settles a logical operator. -/
def LogicalOp.settled : LogicalOp → Bool → Bool
  | .conj, l => !l
  | .disj, l => l

mutual

/-- The value of an expression in a scope. -/
def Expression.evaluate (host : Host κ σ) (scope : Scope κ) : Expression → Run σ (Value κ)
  | .identifier name => Run.ofExcept (scope.get name)
  | .literal l => pure l.value
  | .access target name => do
    let v ← target.evaluate host scope
    Run.ofExcept (v.getAttribute name)
  | .call callee args => do
    let f ← callee.evaluate host scope
    let vs ← Expression.evaluateAll host scope args
    f.invoke host vs
  | .unary op operand => do
    let v ← operand.evaluate host scope
    Run.ofExcept (op.apply v)
  | .arithmetic op lhs rhs => do
    let l ← lhs.evaluate host scope
    let a ← Run.ofExcept l.toNumber
    let r ← rhs.evaluate host scope
    let b ← Run.ofExcept r.toNumber
    pure (.number (op.apply a b))
  | .logical op lhs rhs => do
    let l ← lhs.evaluate host scope
    let a ← Run.ofExcept l.toBoolean
    if op.settled a then pure (.boolean a)
    else do
      let r ← rhs.evaluate host scope
      let b ← Run.ofExcept r.toBoolean
      pure (.boolean b)
  | .comparison op lhs rhs => do
    let l ← lhs.evaluate host scope
    let r ← rhs.evaluate host scope
    let b ← Run.ofExcept (op.apply l r)
    pure (.boolean b)

/-- The values of expressions, from left to right. -/
def Expression.evaluateAll (host : Host κ σ) (scope : Scope κ) :
    List Expression → Run σ (List (Value κ))
  | [] => pure []
  | e :: es => do
    let v ← e.evaluate host scope
    let vs ← Expression.evaluateAll host scope es
    pure (v :: vs)

end

/-- Whether a condition of a switch that evaluated to a value matches. -/
def conditionMatches (subject : Option (Value κ)) (v : Value κ) : Except Failure Bool :=
  match subject with
  | some s => .ok (v.same s)
  | none => v.toBoolean

/-- Whether one of the conditions matches; those after the first that does are not evaluated. -/
def anyMatches (host : Host κ σ) (scope : Scope κ) (subject : Option (Value κ)) :
    List Expression → Run σ Bool
  | [] => pure false
  | e :: es => do
    let v ← e.evaluate host scope
    let hit ← Run.ofExcept (conditionMatches subject v)
    if hit then pure true else anyMatches host scope subject es

/-- The subject of a switch in words. -/
def subjectText : Option (Value κ) → String
  | some s => s.text
  | none => "none"

/-- The value of an expression that may be absent. -/
def evaluateSubject (host : Host κ σ) (scope : Scope κ) :
    Option Expression → Run σ (Option (Value κ))
  | none => pure none
  | some e => do
    let v ← e.evaluate host scope
    pure (some v)

/-- The value of a condition. -/
def evaluateCondition (host : Host κ σ) (scope : Scope κ) (e : Expression) : Run σ Bool := do
  let v ← e.evaluate host scope
  Run.ofExcept v.toBoolean

mutual

/-- Executes a statement. -/
def Statement.execute (host : Host κ σ) : Statement → Exec κ σ Unit
  | .block body => Statement.executeAll host body
  | .assign name value => do
    let v ← Exec.reading fun scope => value.evaluate host scope
    Exec.bind name v
  | .branch condition thenDo none => do
    let b ← Exec.reading fun scope => evaluateCondition host scope condition
    if b then thenDo.execute host else pure ()
  | .branch condition thenDo (some otherwise) => do
    let b ← Exec.reading fun scope => evaluateCondition host scope condition
    if b then thenDo.execute host else otherwise.execute host
  | .switch subject cases => do
    let s ← Exec.reading fun scope => evaluateSubject host scope subject
    Case.executeFirst host s cases
  | .expression value => do
    let _ ← Exec.reading fun scope => value.evaluate host scope
    pure ()

/-- Executes statements in order, up to the first that fails. -/
def Statement.executeAll (host : Host κ σ) : List Statement → Exec κ σ Unit
  | [] => pure ()
  | s :: rest => do
    s.execute host
    Statement.executeAll host rest

/-- Executes the first case that matches the subject. -/
def Case.executeFirst (host : Host κ σ) (subject : Option (Value κ)) : List Case → Exec κ σ Unit
  | [] => throw (.noMatchingCase (subjectText subject))
  | .matching conditions body :: rest => do
    let selected ← Exec.reading fun scope => anyMatches host scope subject conditions
    if selected then body.execute host else Case.executeFirst host subject rest
  | .default body :: _ => body.execute host

end

namespace Program

/-- Runs the initializer, if there is one. -/
def runInitializer (host : Host κ σ) (program : Program) : Exec κ σ Unit :=
  match program.initializer with
  | some statement => statement.execute host
  | none => pure ()

/-- Runs the body of one turn. -/
def runBody (host : Host κ σ) (program : Program) : Exec κ σ Unit := program.body.execute host

end Program
end Script
end CombatTrials
