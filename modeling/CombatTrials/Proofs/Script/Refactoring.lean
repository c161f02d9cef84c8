import CombatTrials.Proofs.Script.Conditionals
import CombatTrials.Proofs.Script.Equivalence

/-!
# Refactoring conditions

The laws of Boolean algebra by which conditions are rewritten hold of scripts as they are, although
evaluating an operand may call functions or fail, because none of them changes which operands are
evaluated and in which order: De Morgan's laws, associativity, and two laws by which `not` and `and`
are taken out of the condition of a branch. Commutativity is not among them.

A test is an expression that `not`, `and` or `or` stands in front of. It has a value only as the
Boolean that it is as a condition (`evaluate_eq_of_isTest`), so tests are equivalent when they are
so as conditions, and there each of the three is an equation.
-/

namespace CombatTrials
namespace Script

open Exec (reading reading_pure reading_bind)

variable {κ σ : Type}

/-! ## Conditions

Each law is proved of conditions, where an operand is evaluated, coerced and looked at as a Boolean.
The laws change what is done with the Booleans and nothing before that. -/

/-- The negation of an expression. -/
def Expression.inverse (operand : Expression) : Expression := .unary .negate operand

/-- A negation as a condition: the operand is looked at in the same way, and fails in the same way.
-/
theorem evaluateCondition_inverse (host : Host κ σ) (scope : Scope κ) (a : Expression) :
    evaluateCondition host scope a.inverse =
      (do
        let x ← evaluateCondition host scope a
        pure !x) := by
  simp only [evaluateCondition, Expression.inverse, Expression.evaluate, bind_assoc]
  congr 1
  funext v
  simp only [UnaryOp.apply]
  rcases v.toBoolean with _ | _ <;> rfl

/-- A conjunction as a condition looks at its right side only if the left one is true. -/
theorem evaluateCondition_both (host : Host κ σ) (scope : Scope κ) (lhs rhs : Expression) :
    evaluateCondition host scope (.both lhs rhs) =
      (do
        let x ← evaluateCondition host scope lhs
        if x then evaluateCondition host scope rhs else pure false) := by
  simp only [evaluateCondition, Expression.both, Expression.evaluate, bind_assoc]
  congr 1
  funext l
  congr 1
  funext a
  cases a with
  | false => rfl
  | true =>
    simp only [LogicalOp.settled, Bool.not_true, Bool.false_eq_true, if_false, if_true,
      bind_assoc, pure_bind]
    congr 1
    funext r
    exact bind_pure _

/-- Whether an expression is made by a Boolean operator. -/
def Expression.isTest : Expression → Bool
  | .unary .negate _ | .logical _ _ _ => true
  | _ => false

/-- A test yields the Boolean that it is as a condition, since its operator coerces what it looks
at. -/
theorem Expression.evaluate_eq_of_isTest (host : Host κ σ) (scope : Scope κ) {e : Expression}
    (h : e.isTest) :
    e.evaluate host scope =
      (do
        let x ← evaluateCondition host scope e
        pure (.boolean x)) := by
  unfold isTest at h
  split at h
  case h_1 a =>
    simp only [evaluateCondition, evaluate, bind_assoc]
    congr 1
    funext v
    simp only [UnaryOp.apply]
    rcases v.toBoolean with _ | _ <;> rfl
  case h_2 op lhs rhs =>
    simp only [evaluateCondition, evaluate, bind_assoc]
    congr 1
    funext l
    congr 1
    funext a
    split
    · rfl
    · simp only [bind_assoc]
      rfl
  case h_3 => cases h

/-- Tests that are the same as conditions are the same wherever they stand. -/
theorem Expression.equivalent_of_isTest {e e' : Expression} (h : e.isTest) (h' : e'.isTest)
    (hcondition : ∀ {κ σ : Type} (host : Host κ σ) (scope : Scope κ),
      evaluateCondition host scope e = evaluateCondition host scope e') : e.Equivalent e' := by
  intro κ σ host scope
  rw [evaluate_eq_of_isTest host scope h, evaluate_eq_of_isTest host scope h', hcondition]

/-! ## The laws

The laws are given as a relation, so that a replacement can name the law it is by. They are the ones
that keep the order of operands. -/

/-- The laws for expressions. -/
inductive Expression.BooleanLaw : Expression → Expression → Prop
  | inverseBoth (a b : Expression) : BooleanLaw (both a b).inverse (.either a.inverse b.inverse)
  | inverseEither (a b : Expression) : BooleanLaw (either a b).inverse (.both a.inverse b.inverse)
  | bothBoth (a b c : Expression) : BooleanLaw (.both (.both a b) c) (.both a (.both b c))
  | eitherEither (a b c : Expression) :
      BooleanLaw (.either (.either a b) c) (.either a (.either b c))

/-- The laws for branches. -/
inductive Statement.BooleanLaw : Statement → Statement → Prop
  | branchInverse (a : Expression) (s t : Statement) :
      BooleanLaw (.branch a.inverse s (some t)) (.branch a t (some s))
  | branchBoth (a b : Expression) (s t : Statement) :
      BooleanLaw (.branch (.both a b) s (some t)) (.branch a (.branch b s (some t)) (some t))

theorem Expression.BooleanLaw.equivalent {e e' : Expression} (h : BooleanLaw e e') :
    e.Equivalent e' := by
  cases h with
  | inverseBoth a b | inverseEither a b =>
    refine equivalent_of_isTest rfl rfl fun host scope => ?_
    simp only [evaluateCondition_inverse, evaluateCondition_both, evaluateCondition_either,
      bind_assoc, pure_bind]
    -- after the first operand both sides are a matter of two Booleans
    congr 1
    funext x
    cases x <;> rfl
  | bothBoth a b c | eitherEither a b c =>
    refine equivalent_of_isTest rfl rfl fun host scope => ?_
    simp only [evaluateCondition_both, evaluateCondition_either, bind_assoc]
    congr 1
    funext x
    cases x <;> rfl

/-- The laws for branches hold as equations: both sides look at the same conditions in the same
order before either body is executed. -/
theorem Statement.BooleanLaw.equivalent {s s' : Statement} (h : BooleanLaw s s') :
    s.Equivalent s' := by
  intro κ σ world
  cases h with
  | branchInverse a s t =>
    simp only [executeIn, evaluateCondition_inverse, reading_bind, reading_pure,
      bind_assoc, pure_bind]
    congr 1
    funext x
    cases x <;> rfl
  -- both conditions are looked at in the same order, and the second only if the first is true
  | branchBoth a b s t =>
    simp only [executeIn, evaluateCondition_both, reading_bind, bind_assoc]
    congr 1
    funext x
    cases x <;> rfl

/-! ## Replacing by the laws

That the laws hold at the root is all that the congruence asks for. -/

/-- **Boolean refactorings are safe anywhere in a script.** Where a statement differs from another
by one of the laws, at one position of any depth, the two do the same: with any variables bound and
from any state of the host they end in the same result or the same failure, with the same variables
and in the same state of the host, and they make the same calls and assignments in the same order.
So it is with expressions. -/
theorem boolean_refactorings_are_safe (host : Host κ σ) (scope : Scope κ) (state : σ) :
    (∀ s s' : Statement, s.Replaced Expression.BooleanLaw Statement.BooleanLaw s' →
      s'.account host scope state = s.account host scope state) ∧
    ∀ e e' : Expression, e.Replaced Expression.BooleanLaw e' →
      e'.account host scope state = e.account host scope state := by
  constructor
  · intro s s' h
    have hequivalent : s.Equivalent s' :=
      h.equivalent (fun _ _ => (·.equivalent)) fun _ _ => (·.equivalent)
    rw [hequivalent.account_eq host]
  · intro e e' h
    have hequivalent : e.Equivalent e' := h.equivalent fun _ _ => (·.equivalent)
    rw [hequivalent.account_eq host]

/-- Writes down a value, which it is. -/
def spoken (e : Expression) : Expression := .call (.identifier "first") [e]

/-- Sets `w` by a condition, in a case. -/
def sifting (condition : Expression) : Statement :=
  .block [.assign "w" (.number 0), .switch none [
    .matching [.boolean false, condition] (.assign "w" (.number 1)),
    .default (.assign "w" (.number 2))]]

theorem boolean_refactorings_are_safe_in_sifting :
    let said := spoken (.boolean true)
    let asked := spoken (.identifier "flag")
    let lhs := sifting (.inverse (.both said asked))
    let rhs := sifting (.either said.inverse asked.inverse)
    let run := rhs.account Fixture.Probe.host flagged []
    lhs.Replaced Expression.BooleanLaw Statement.BooleanLaw rhs ∧
      lhs.account Fixture.Probe.host flagged [] = run ∧ run.result = .ok () ∧
      run.calls =
        [(⟨"first", none, .first⟩, [.boolean true]), (⟨"first", none, .first⟩, [.boolean true])] ∧
      run.scope.find? "w" = some (.number 2) := by
  intro said asked lhs rhs run
  have hlaw :
      Expression.BooleanLaw (Expression.both said asked).inverse
        (.either said.inverse asked.inverse) :=
    .inverseBoth said asked
  -- the position is given by what stands before and behind it, on all three levels
  have hreplaced : lhs.Replaced Expression.BooleanLaw Statement.BooleanLaw rhs :=
    .within [.assign "w" (.number 0)] []
      (.caseCondition [] [.default (.assign "w" (.number 2))] [.boolean false] [] (.here hlaw))
  have hsame := (boolean_refactorings_are_safe Fixture.Probe.host flagged []).1 lhs rhs hreplaced
  exact ⟨hreplaced, hsame.symm, rfl, rfl, rfl⟩

end Script
end CombatTrials
