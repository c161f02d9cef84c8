import CombatTrials.Proofs.Text.Ron.Shape
import CombatTrials.Script.Form

/-!
# Scripts in object notation

The shapes of scripts, node by node: what data stand for a node is said by those that stand for its
parts. A branch may be written without its `else_branch`, a switch without its `subject`, a call
without its `args` and a program without its `initialize`, if there is none.

Reading is bounded by the levels that may be opened for a node, and every node opens two before one
below it is read. So the induction is on the bound, and the node is any
(`Expression.readWithin?_of_shape`, `Statement.readWithin?_of_shape`).
-/

namespace CombatTrials
namespace Script

open Data (required)
open Text.Ron (Datum Node Shape Slot ReadAt Found format)

/-! ## Shapes

A shape says what is written, up to the order of fields and to fields that may be left out. There is
one for each node, and the shapes of its parts are parts of it. -/

/-- The data that stand for a constant. -/
def Literal.shape : Literal → Shape
  | .number x => .soleCase "Number" (.real x)
  | .boolean b => .soleCase "Boolean" (.boolean b)

/-- The fields of an infix operator. -/
def operatorSlots (op : String) (lhs rhs : Shape) : List Slot :=
  [.needed "op" (.plainCase op), .needed "lhs" lhs, .needed "rhs" rhs]

mutual

/-- The data that stand for an expression. -/
def Expression.shape : Expression → Shape
  | .identifier name => .soleCase "Identifier" (.text name)
  | .literal l => .soleCase "Literal" l.shape
  | .access target name =>
    .recordCase "Attribute" [.needed "target" target.shape, .needed "name" (.text name)]
  | .call callee args =>
    .recordCase "Call"
      [.needed "callee" callee.shape,
        .omittable "args" (.list (Expression.shapes args)) (args = [])]
  | .unary op operand =>
    .recordCase "Unary" [.needed "op" (.plainCase op.name), .needed "operand" operand.shape]
  | .arithmetic op lhs rhs => .recordCase "Arithmetic" (operatorSlots op.name lhs.shape rhs.shape)
  | .logical op lhs rhs => .recordCase "Logical" (operatorSlots op.name lhs.shape rhs.shape)
  | .comparison op lhs rhs => .recordCase "Comparison" (operatorSlots op.name lhs.shape rhs.shape)

/-- The shapes of expressions, one by one. -/
def Expression.shapes : List Expression → List Shape
  | [] => []
  | e :: rest => e.shape :: Expression.shapes rest

end

mutual

/-- The data that stand for a statement. -/
def Statement.shape (implicitSome : Bool) : Statement → Shape
  | .block body => .soleCase "Block" (.list (Statement.shapes implicitSome body))
  | .assign name value =>
    .recordCase "Assign" [.needed "name" (.text name), .needed "value" value.shape]
  | .branch condition thenDo otherwise =>
    .recordCase "If"
      [.needed "condition" condition.shape, .needed "then_branch" (thenDo.shape implicitSome),
        .omittable "else_branch"
          (.optional implicitSome (Statement.optionShape implicitSome otherwise))
          (otherwise = none)]
  | .switch subject cases =>
    .recordCase "Switch"
      [.omittable "subject" (.optional implicitSome (subject.map Expression.shape))
          (subject = none),
        .needed "cases" (.list (Case.shapes implicitSome cases))]
  | .expression value => .soleCase "Expression" value.shape

/-- The shapes of statements, one by one. -/
def Statement.shapes (implicitSome : Bool) : List Statement → List Shape
  | [] => []
  | s :: rest => s.shape implicitSome :: Statement.shapes implicitSome rest

/-- The shape of a statement that may be absent. -/
def Statement.optionShape (implicitSome : Bool) : Option Statement → Option Shape
  | none => none
  | some s => some (s.shape implicitSome)

/-- The data that stand for a case of a switch. -/
def Case.shape (implicitSome : Bool) : Case → Shape
  | .matching conditions body =>
    .recordCase "Match"
      [.needed "conditions" (.list (conditions.map Expression.shape)),
        .needed "body" (body.shape implicitSome)]
  | .default body => .recordCase "Default" [.needed "body" (body.shape implicitSome)]

/-- The shapes of cases, one by one. -/
def Case.shapes (implicitSome : Bool) : List Case → List Shape
  | [] => []
  | c :: rest => c.shape implicitSome :: Case.shapes implicitSome rest

end

/-- The data that stand for a program. -/
def Program.shape (implicitSome : Bool) (p : Program) : Shape :=
  .record "CsScript"
    [.omittable "initialize"
        (.optional implicitSome (p.initializer.map (Statement.shape implicitSome)))
        (p.initializer = none),
      .needed "body" (p.body.shape implicitSome)]

-- the shapes of lists are functions of their own for the sake of the recursion over the tree; what
-- is read is a list, so from here on they are maps

theorem Expression.shapes_eq_map (es : List Expression) :
    Expression.shapes es = es.map Expression.shape := by
  induction es with
  | nil => rfl
  | cons e rest ih => rw [Expression.shapes, ih, List.map_cons]

theorem Statement.shapes_eq_map (implicitSome : Bool) (body : List Statement) :
    Statement.shapes implicitSome body = body.map (Statement.shape implicitSome) := by
  induction body with
  | nil => rfl
  | cons s rest ih => rw [Statement.shapes, ih, List.map_cons]

theorem Statement.optionShape_eq_map (implicitSome : Bool) (s : Option Statement) :
    Statement.optionShape implicitSome s = s.map (Statement.shape implicitSome) := by
  cases s <;> rfl

theorem Case.shapes_eq_map (implicitSome : Bool) (cases : List Case) :
    Case.shapes implicitSome cases = cases.map (Case.shape implicitSome) := by
  induction cases with
  | nil => rfl
  | cons c rest ih => rw [Case.shapes, ih, List.map_cons]

/-! ## Constants and operators

These have no node below them. They are told apart by the names under which they are written. -/

variable {implicitSome : Bool} {room : Nat}

theorem Literal.read?_of_shape (implicitSome : Bool) (l : Literal) :
    ReadAt room l.shape (Literal.read? (format implicitSome)) l := by
  intro d hd
  cases l with
  | number x =>
    obtain ⟨-, contents, hvariant, hsole⟩ := ReadAt.soleCase implicitSome hd
    have hread := hsole (ReadAt.real implicitSome x)
    simp [Literal.read?, hvariant, hread]
  | boolean b =>
    obtain ⟨-, contents, hvariant, hsole⟩ := ReadAt.soleCase implicitSome hd
    have hread := hsole (ReadAt.boolean implicitSome b)
    simp [Literal.read?, hvariant, hread]

/-- An operator is read by its name, in any of the families of operators. -/
theorem readOp?_of_shape (implicitSome : Bool) {α : Type} {op : α} {name : String}
    {ofName? : String → Option α} (h : ofName? name = some op) :
    ReadAt room (.plainCase name) (readOp? (format implicitSome) ofName?) op := by
  intro d hd
  simp only [readOp?, ReadAt.plainCase implicitSome hd, h, Option.bind_eq_bind, Option.bind_some]

theorem UnaryOp.ofName?_name (op : UnaryOp) : ofName? op.name = some op := by
  cases op <;> decide

theorem ArithmeticOp.ofName?_name (op : ArithmeticOp) : ofName? op.name = some op := by
  cases op <;> decide

theorem LogicalOp.ofName?_name (op : LogicalOp) : ofName? op.name = some op := by
  cases op <;> decide

theorem ComparisonOp.ofName?_name (op : ComparisonOp) : ofName? op.name = some op := by
  cases op <;> decide

/-- An infix operator and its operands are found, whichever its kind. -/
theorem exists_operator (implicitSome : Bool) {name opName : String} {lhs rhs : Shape} {d : Datum}
    (hd : Shape.recordCase name (operatorSlots opName lhs rhs) room d) {α : Type} {op : α}
    {ofName? : String → Option α} (hop : ofName? opName = some op) :
    2 ≤ room ∧ ∃ contents nodes,
      (format implicitSome).variant? ⟨d, room⟩ = some (name, some contents) ∧
      (format implicitSome).members? ["op", "lhs", "rhs"] (some contents) = some nodes ∧
      required nodes "op" (readOp? (format implicitSome) ofName?) = some op ∧
      ∀ {read : Node → Option Expression} {a b : Expression}, ReadAt (room - 3) lhs read a →
        ReadAt (room - 3) rhs read b → required nodes "lhs" read = some a ∧
          required nodes "rhs" read = some b := by
  obtain ⟨hlevels, contents, nodes, hvariant, hnodes, hname, hlhs, hrhs⟩ :=
    ReadAt.recordCase implicitSome hd ["op", "lhs", "rhs"] rfl (by decide)
  exact ⟨hlevels, contents, nodes, hvariant, hnodes,
    hname.required (readOp?_of_shape implicitSome hop),
    fun ha hb => ⟨hlhs.required ha, hrhs.required hb⟩⟩

/-! ## Expressions

A reader that stops at a depth reads a node if there are levels enough for everything in it, and the
shape of a node that is written within a room has as many. -/

/-- An expression is read within any bound above the levels that are left. The induction is on the
bound, for an operand stands at least two levels further down than the node it belongs to. -/
theorem Expression.readWithin?_of_shape (fuel : Nat) :
    ∀ (e : Expression) (room : Nat), room < fuel →
    ReadAt room e.shape (Expression.readWithin? (format implicitSome) fuel) e := by
  induction fuel with
  | zero => exact fun _ _ h => absurd h (Nat.not_lt_zero _)
  | succ fuel ih =>
    intro e room hroom d hd
    cases e with
    -- a variable or a constant has no node below it, so the bound is not lowered
    | identifier name =>
      obtain ⟨-, contents, hvariant, hsole⟩ := ReadAt.soleCase implicitSome hd
      have hread := hsole (ReadAt.text implicitSome name)
      simp [Expression.readWithin?, hvariant, hread]
    | literal l =>
      obtain ⟨-, contents, hvariant, hsole⟩ := ReadAt.soleCase implicitSome hd
      have hread := hsole (l.read?_of_shape implicitSome)
      simp [Expression.readWithin?, hvariant, hread]
    | access target name =>
      obtain ⟨hlevels, contents, nodes, hvariant, hnodes, htarget, hname⟩ :=
        ReadAt.recordCase implicitSome hd ["target", "name"] rfl (by decide)
      have htarget := htarget.required (ih target (room - 3) (by omega))
      have hname := hname.required (ReadAt.text implicitSome name)
      simp [Expression.readWithin?, hvariant, hnodes, htarget, hname]
    | call callee args =>
      -- the arguments stand in a list, which opens a level of its own
      obtain ⟨hlevels, contents, nodes, hvariant, hnodes, hcallee, hargs⟩ :=
        ReadAt.recordCase implicitSome hd ["callee", "args"] rfl (by decide)
      rw [Expression.shapes_eq_map] at hargs
      have hcallee := hcallee.required (ih callee (room - 3) (by omega))
      have hargs :=
        hargs.defaulted (ReadAt.listOf implicitSome args fun e => ih e (room - 3 - 2) (by omega)) id
      simp [Expression.readWithin?, hvariant, hnodes, hcallee, hargs]
    | unary op operand =>
      obtain ⟨hlevels, contents, nodes, hvariant, hnodes, hop, hoperand⟩ :=
        ReadAt.recordCase implicitSome hd ["op", "operand"] rfl (by decide)
      have hop := hop.required (readOp?_of_shape implicitSome op.ofName?_name)
      have hoperand := hoperand.required (ih operand (room - 3) (by omega))
      simp [Expression.readWithin?, hvariant, hnodes, hop, hoperand]
    | arithmetic op lhs rhs =>
      obtain ⟨hlevels, contents, nodes, hvariant, hnodes, hop, hoperands⟩ :=
        exists_operator implicitSome hd op.ofName?_name
      obtain ⟨hlhs, hrhs⟩ := hoperands (ih lhs (room - 3) (by omega)) (ih rhs (room - 3) (by omega))
      simp [Expression.readWithin?, hvariant, hnodes, hop, hlhs, hrhs]
    | logical op lhs rhs =>
      obtain ⟨hlevels, contents, nodes, hvariant, hnodes, hop, hoperands⟩ :=
        exists_operator implicitSome hd op.ofName?_name
      obtain ⟨hlhs, hrhs⟩ := hoperands (ih lhs (room - 3) (by omega)) (ih rhs (room - 3) (by omega))
      simp [Expression.readWithin?, hvariant, hnodes, hop, hlhs, hrhs]
    | comparison op lhs rhs =>
      obtain ⟨hlevels, contents, nodes, hvariant, hnodes, hop, hoperands⟩ :=
        exists_operator implicitSome hd op.ofName?_name
      obtain ⟨hlhs, hrhs⟩ := hoperands (ih lhs (room - 3) (by omega)) (ih rhs (room - 3) (by omega))
      simp [Expression.readWithin?, hvariant, hnodes, hop, hlhs, hrhs]

theorem Expression.read?_of_shape (implicitSome : Bool) (e : Expression) :
    ReadAt room e.shape (Expression.read? (format implicitSome)) e :=
  Expression.readWithin?_of_shape (room + 1) e room (Nat.lt_succ_self room)

/-! ## Statements and cases

As for expressions. Statements and cases contain each other, so they share one induction. -/

mutual

/-- A statement is read within any bound above the levels that are left. -/
theorem Statement.readWithin?_of_shape (fuel : Nat) (s : Statement) (room : Nat)
    (hroom : room < fuel) :
    ReadAt room (s.shape implicitSome) (Statement.readWithin? (format implicitSome) fuel) s := by
  obtain ⟨fuel, rfl⟩ : ∃ n, fuel = n + 1 := ⟨fuel - 1, by omega⟩
  intro d hd
  cases s with
  | block body =>
    obtain ⟨hlevels, contents, hvariant, hsole⟩ := ReadAt.soleCase implicitSome hd
    rw [Statement.shapes_eq_map] at hsole
    have hread := hsole (ReadAt.listOf implicitSome body fun s =>
      Statement.readWithin?_of_shape fuel s (room - 2 - 2) (by omega))
    simp [Statement.readWithin?, hvariant, hread]
  | assign name value =>
    obtain ⟨-, contents, nodes, hvariant, hnodes, hname, hvalue⟩ :=
      ReadAt.recordCase implicitSome hd ["name", "value"] rfl (by decide)
    have hname := hname.required (ReadAt.text implicitSome name)
    have hvalue := hvalue.required (value.read?_of_shape implicitSome)
    simp [Statement.readWithin?, hvariant, hnodes, hname, hvalue]
  | branch condition thenDo otherwise =>
    obtain ⟨hlevels, contents, nodes, hvariant, hnodes, hcondition, hthen, helse⟩ :=
      ReadAt.recordCase implicitSome hd ["condition", "then_branch", "else_branch"] rfl (by decide)
    rw [Statement.optionShape_eq_map] at helse
    -- the condition is read with a bound of its own, so only the two branches use up this one
    have hcondition := hcondition.required (condition.read?_of_shape implicitSome)
    have hthen := hthen.required (Statement.readWithin?_of_shape fuel thenDo (room - 3) (by omega))
    have helse := helse.defaulted (ReadAt.optionalOf implicitSome otherwise fun s =>
      Statement.readWithin?_of_shape fuel s (room - 3 - 1) (by omega)) id
    simp [Statement.readWithin?, hvariant, hnodes, hcondition, hthen, helse]
  | switch subject cases =>
    obtain ⟨hlevels, contents, nodes, hvariant, hnodes, hsubject, hcases⟩ :=
      ReadAt.recordCase implicitSome hd ["subject", "cases"] rfl (by decide)
    rw [Case.shapes_eq_map] at hcases
    have hsubject := hsubject.defaulted
      (ReadAt.optionalOf implicitSome subject fun e => e.read?_of_shape implicitSome) id
    have hcases := hcases.required (ReadAt.listOf implicitSome cases fun c =>
      Case.readWithin?_of_shape fuel c (room - 3 - 2) (by omega))
    simp [Statement.readWithin?, hvariant, hnodes, hsubject, hcases]
  | expression value =>
    obtain ⟨-, contents, hvariant, hsole⟩ := ReadAt.soleCase implicitSome hd
    have hread := hsole (value.read?_of_shape implicitSome)
    simp [Statement.readWithin?, hvariant, hread]

/-- A case is read within any bound above the levels that are left. -/
theorem Case.readWithin?_of_shape (fuel : Nat) (c : Case) (room : Nat) (hroom : room < fuel) :
    ReadAt room (c.shape implicitSome) (Case.readWithin? (format implicitSome) fuel) c := by
  obtain ⟨fuel, rfl⟩ : ∃ n, fuel = n + 1 := ⟨fuel - 1, by omega⟩
  intro d hd
  cases c with
  | matching conditions body =>
    obtain ⟨hlevels, contents, nodes, hvariant, hnodes, hconditions, hbody⟩ :=
      ReadAt.recordCase implicitSome hd ["conditions", "body"] rfl (by decide)
    have hconditions := hconditions.required
      (ReadAt.listOf implicitSome conditions fun e => e.read?_of_shape implicitSome)
    have hbody := hbody.required (Statement.readWithin?_of_shape fuel body (room - 3) (by omega))
    simp [Case.readWithin?, hvariant, hnodes, hconditions, hbody]
  | default body =>
    obtain ⟨hlevels, contents, nodes, hvariant, hnodes, hbody⟩ :=
      ReadAt.recordCase implicitSome hd ["body"] rfl (by decide)
    have hbody := hbody.required (Statement.readWithin?_of_shape fuel body (room - 3) (by omega))
    simp [Case.readWithin?, hvariant, hnodes, hbody]

end

theorem Statement.read?_of_shape (implicitSome : Bool) (s : Statement) :
    ReadAt room (s.shape implicitSome) (Statement.read? (format implicitSome)) s :=
  Statement.readWithin?_of_shape (room + 1) s room (Nat.lt_succ_self room)

/-! ## Programs

The two parts of a program are fields like any others, one of which may be left out. -/

/-- Every program is read from whatever data stand for it. -/
theorem Program.read?_of_shape (implicitSome : Bool) (p : Program) :
    ReadAt room (p.shape implicitSome) (Program.read? (format implicitSome)) p := by
  intro d hd
  obtain ⟨nodes, hnodes, hinitializer, hbody⟩ :=
    ReadAt.record implicitSome 0 hd ["initialize", "body"] rfl (by decide)
  have hinitializer := hinitializer.defaulted
    (ReadAt.optionalOf implicitSome p.initializer fun s => s.read?_of_shape implicitSome) id
  have hbody := hbody.required (p.body.read?_of_shape implicitSome)
  simp [Program.read?, hnodes, hinitializer, hbody]

end Script
end CombatTrials
