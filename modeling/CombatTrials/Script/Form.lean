import CombatTrials.Data.Format
import CombatTrials.Script.Tree
import CombatTrials.Text.Json

/-!
# Scripts in data files

The names under which the nodes of a script stand in data files, in both directions: `read?` takes a
tree from a node of any `Format`, and `toJson` writes one as JSON with every field present.

Reading follows the nesting of the node and is bounded by its height. In JSON a tree can be written
with numbers of any shape, so `toJson` is told how to write them.
-/

namespace CombatTrials
namespace Script

open Data (Format required defaulted)
open Text (Json)

variable {δ : Type}

/-! ## Operators -/

/-- The name of a prefix operator. -/
def UnaryOp.name : UnaryOp → String
  | .plus => "Plus"
  | .minus => "Minus"
  | .negate => "Not"

/-- The prefix operator of a name. -/
def UnaryOp.ofName? (name : String) : Option UnaryOp :=
  [plus, minus, negate].find? (·.name == name)

/-- The name of an arithmetic operator. -/
def ArithmeticOp.name : ArithmeticOp → String
  | .add => "Add"
  | .subtract => "Subtract"
  | .multiply => "Multiply"
  | .divide => "Divide"
  | .modulo => "Modulo"

/-- The arithmetic operator of a name. -/
def ArithmeticOp.ofName? (name : String) : Option ArithmeticOp :=
  [add, subtract, multiply, divide, modulo].find? (·.name == name)

/-- The name of a logical operator. -/
def LogicalOp.name : LogicalOp → String
  | .conj => "And"
  | .disj => "Or"

/-- The logical operator of a name. -/
def LogicalOp.ofName? (name : String) : Option LogicalOp :=
  [conj, disj].find? (·.name == name)

/-- The name of a comparison operator. -/
def ComparisonOp.name : ComparisonOp → String
  | .equal => "Equal"
  | .notEqual => "NotEqual"
  | .less => "Less"
  | .lessOrEqual => "LessOrEqual"
  | .greater => "Greater"
  | .greaterOrEqual => "GreaterOrEqual"

/-- The comparison operator of a name. -/
def ComparisonOp.ofName? (name : String) : Option ComparisonOp :=
  [equal, notEqual, less, lessOrEqual, greater, greaterOrEqual].find? (·.name == name)

/-- An operator, which is a case without contents. -/
def readOp? {α : Type} (f : Format δ) (ofName? : String → Option α) (d : δ) : Option α := do
  ofName? (← f.plainVariant? d)

/-! ## Reading -/

/-- A constant. -/
def Literal.read? (f : Format δ) (d : δ) : Option Literal := do
  match ← f.variant? d with
  | ("Number", contents) => return .number (← f.soleOf? f.real? contents)
  | ("Boolean", contents) => return .boolean (← f.soleOf? f.boolean? contents)
  | _ => none

/-- An expression, at most `fuel` levels deep. -/
def Expression.readWithin? (f : Format δ) : Nat → δ → Option Expression
  | 0, _ => none
  | fuel + 1, d => do
    let (name, contents) ← f.variant? d
    match name with
    | "Identifier" => return .identifier (← f.soleOf? f.text? contents)
    | "Literal" => return .literal (← f.soleOf? (Literal.read? f) contents)
    | "Attribute" =>
      let fields ← f.members? ["target", "name"] contents
      let target ← required fields "target" (readWithin? f fuel)
      return .access target (← required fields "name" f.text?)
    | "Call" =>
      let fields ← f.members? ["callee", "args"] contents
      let callee ← required fields "callee" (readWithin? f fuel)
      return .call callee (← defaulted fields "args" [] (f.listOf? (readWithin? f fuel)))
    | "Unary" =>
      let fields ← f.members? ["op", "operand"] contents
      let op ← required fields "op" (readOp? f UnaryOp.ofName?)
      return .unary op (← required fields "operand" (readWithin? f fuel))
    | "Arithmetic" =>
      let fields ← f.members? ["op", "lhs", "rhs"] contents
      let op ← required fields "op" (readOp? f ArithmeticOp.ofName?)
      let lhs ← required fields "lhs" (readWithin? f fuel)
      return .arithmetic op lhs (← required fields "rhs" (readWithin? f fuel))
    | "Logical" =>
      let fields ← f.members? ["op", "lhs", "rhs"] contents
      let op ← required fields "op" (readOp? f LogicalOp.ofName?)
      let lhs ← required fields "lhs" (readWithin? f fuel)
      return .logical op lhs (← required fields "rhs" (readWithin? f fuel))
    | "Comparison" =>
      let fields ← f.members? ["op", "lhs", "rhs"] contents
      let op ← required fields "op" (readOp? f ComparisonOp.ofName?)
      let lhs ← required fields "lhs" (readWithin? f fuel)
      return .comparison op lhs (← required fields "rhs" (readWithin? f fuel))
    | _ => none

/-- An expression. -/
def Expression.read? (f : Format δ) (d : δ) : Option Expression :=
  Expression.readWithin? f (f.height d + 1) d

mutual

/-- A statement, at most `fuel` levels deep. -/
def Statement.readWithin? (f : Format δ) : Nat → δ → Option Statement
  | 0, _ => none
  | fuel + 1, d => do
    let (name, contents) ← f.variant? d
    match name with
    | "Block" =>
      return .block (← f.soleOf? (f.listOf? (Statement.readWithin? f fuel)) contents)
    | "Assign" =>
      let fields ← f.members? ["name", "value"] contents
      let name ← required fields "name" f.text?
      return .assign name (← required fields "value" (Expression.read? f))
    | "If" =>
      let fields ← f.members? ["condition", "then_branch", "else_branch"] contents
      let condition ← required fields "condition" (Expression.read? f)
      let thenDo ← required fields "then_branch" (Statement.readWithin? f fuel)
      let otherwise ← defaulted fields "else_branch" none
        (f.optionalOf? (Statement.readWithin? f fuel))
      return .branch condition thenDo otherwise
    | "Switch" =>
      let fields ← f.members? ["subject", "cases"] contents
      let subject ← defaulted fields "subject" none (f.optionalOf? (Expression.read? f))
      return .switch subject (← required fields "cases" (f.listOf? (Case.readWithin? f fuel)))
    | "Expression" => return .expression (← f.soleOf? (Expression.read? f) contents)
    | _ => none

/-- A case of a switch, at most `fuel` levels deep. -/
def Case.readWithin? (f : Format δ) : Nat → δ → Option Case
  | 0, _ => none
  | fuel + 1, d => do
    let (name, contents) ← f.variant? d
    match name with
    | "Match" =>
      let fields ← f.members? ["conditions", "body"] contents
      let conditions ← required fields "conditions" (f.listOf? (Expression.read? f))
      return .matching conditions (← required fields "body" (Statement.readWithin? f fuel))
    | "Default" =>
      let fields ← f.members? ["body"] contents
      return .default (← required fields "body" (Statement.readWithin? f fuel))
    | _ => none

end

/-- A statement. -/
def Statement.read? (f : Format δ) (d : δ) : Option Statement :=
  Statement.readWithin? f (f.height d + 1) d

/-- A program. -/
def Program.read? (f : Format δ) (d : δ) : Option Program := do
  let fields ← f.fields? "CsScript" ["initialize", "body"] 0 d
  let initializer ← defaulted fields "initialize" none (f.optionalOf? (Statement.read? f))
  return ⟨initializer, ← required fields "body" (Statement.read? f)⟩

/-! ## Writing -/

/-- An object with one field. -/
def variantJson (name : String) (contents : Json) : Json := .object [(name, contents)]

/-- A constant as JSON. -/
def Literal.toJson (number : Float → Json) : Literal → Json
  | .number n => variantJson "Number" (number n)
  | .boolean b => variantJson "Boolean" (.boolean b)

/-- The fields of an infix operator. -/
def operatorFields (op : String) (lhs rhs : Json) : Json :=
  .object [("op", .text op), ("lhs", lhs), ("rhs", rhs)]

mutual

/-- An expression as JSON. -/
def Expression.toJson (number : Float → Json) : Expression → Json
  | .identifier name => variantJson "Identifier" (.text name)
  | .literal l => variantJson "Literal" (l.toJson number)
  | .access target name =>
    variantJson "Attribute" (.object [("target", target.toJson number), ("name", .text name)])
  | .call callee args =>
    variantJson "Call"
      (.object
        [("callee", callee.toJson number), ("args", .list (Expression.listToJson number args))])
  | .unary op operand =>
    variantJson "Unary" (.object [("op", .text op.name), ("operand", operand.toJson number)])
  | .arithmetic op lhs rhs =>
    variantJson "Arithmetic" (operatorFields op.name (lhs.toJson number) (rhs.toJson number))
  | .logical op lhs rhs =>
    variantJson "Logical" (operatorFields op.name (lhs.toJson number) (rhs.toJson number))
  | .comparison op lhs rhs =>
    variantJson "Comparison" (operatorFields op.name (lhs.toJson number) (rhs.toJson number))

/-- Expressions as JSON, one by one. -/
def Expression.listToJson (number : Float → Json) : List Expression → List Json
  | [] => []
  | e :: rest => e.toJson number :: Expression.listToJson number rest

end

/-- An expression that may be absent as JSON. -/
def Expression.optionToJson (number : Float → Json) : Option Expression → Json
  | none => .null
  | some e => e.toJson number

mutual

/-- A statement as JSON. -/
def Statement.toJson (number : Float → Json) : Statement → Json
  | .block body => variantJson "Block" (.list (Statement.listToJson number body))
  | .assign name value =>
    variantJson "Assign" (.object [("name", .text name), ("value", value.toJson number)])
  | .branch condition thenDo none =>
    variantJson "If" (.object [("condition", condition.toJson number),
      ("then_branch", thenDo.toJson number), ("else_branch", .null)])
  | .branch condition thenDo (some otherwise) =>
    variantJson "If" (.object [("condition", condition.toJson number),
      ("then_branch", thenDo.toJson number), ("else_branch", otherwise.toJson number)])
  | .switch subject cases =>
    variantJson "Switch" (.object [("subject", Expression.optionToJson number subject),
      ("cases", .list (Case.listToJson number cases))])
  | .expression value => variantJson "Expression" (value.toJson number)

/-- Statements as JSON, one by one. -/
def Statement.listToJson (number : Float → Json) : List Statement → List Json
  | [] => []
  | s :: rest => s.toJson number :: Statement.listToJson number rest

/-- A case of a switch as JSON. -/
def Case.toJson (number : Float → Json) : Case → Json
  | .matching conditions body =>
    variantJson "Match" (.object [("conditions", .list (Expression.listToJson number conditions)),
      ("body", body.toJson number)])
  | .default body => variantJson "Default" (.object [("body", body.toJson number)])

/-- Cases as JSON, one by one. -/
def Case.listToJson (number : Float → Json) : List Case → List Json
  | [] => []
  | c :: rest => c.toJson number :: Case.listToJson number rest

end

/-- A program as JSON. -/
def Program.toJson (number : Float → Json) (program : Program) : Json :=
  .object [
    ("initialize", match program.initializer with
      | none => .null
      | some s => s.toJson number),
    ("body", program.body.toJson number)]

end Script
end CombatTrials
