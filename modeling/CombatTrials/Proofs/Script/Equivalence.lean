import CombatTrials.Proofs.Script.Account

/-!
# Equivalent scripts

Two expressions are equivalent when they evaluate alike under every host and with any variables, and
two statements when they execute alike in every world. As the worlds are all of them, those in which
notes are taken too, equivalent statements have equal accounts: they end in the same result, with
the same variables, after the same calls.

Equivalence is a congruence. `Replaced` says of two trees that they differ at one position, at any
depth, where the one has what a law allows to put in place of what the other has. When a law relates
equivalent trees only, trees that differ by it are equivalent (`Replaced.equivalent`), and it is
enough to know of a law that it holds at the root.
-/

namespace CombatTrials
namespace Script

open Exec (reading)

/-- Expressions that evaluate alike under every host and with any variables, in their failures and
in what they do to the host as well. -/
def Expression.Equivalent (e e' : Expression) : Prop :=
  ∀ ⦃κ σ : Type⦄ (host : Host κ σ) (scope : Scope κ), e.evaluate host scope = e'.evaluate host scope

/-- Statements that execute alike in every world. -/
def Statement.Equivalent (s s' : Statement) : Prop :=
  ∀ ⦃κ σ : Type⦄ (world : World κ σ), s.executeIn world = s'.executeIn world

theorem Statement.Equivalent.execute_eq {κ σ : Type} {s s' : Statement} (h : s.Equivalent s')
    (host : Host κ σ) : s.execute host = s'.execute host := by
  rw [← executeIn_plain, ← executeIn_plain, h]

/-- Equivalent statements have one account: the world that runs them and the one that takes notes
are worlds like any other. -/
theorem Statement.Equivalent.account_eq {κ σ : Type} {s s' : Statement} (h : s.Equivalent s')
    (host : Host κ σ) : s.account host = s'.account host := by
  rw [account, account, h.execute_eq, h]

theorem Expression.Equivalent.account_eq {κ σ : Type} {e e' : Expression} (h : e.Equivalent e')
    (host : Host κ σ) : e.account host = e'.account host := by
  simp only [account, fun scope => h host scope, fun scope => h (World.noted host).host scope]

/-! ## Replacing at one position

A position is given by what stands around it: before and behind it in a list, and on the other side
of an operator. There is one rule for each place of a tree at which a part can stand. -/

/-- The second expression is the first with a part replaced as a law allows. -/
inductive Expression.Replaced (L : Expression → Expression → Prop) : Expression → Expression → Prop
  | here {e e' : Expression} (h : L e e') : Replaced L e e'
  | target {e e' : Expression} {name : String} (h : Replaced L e e') :
      Replaced L (.access e name) (.access e' name)
  | callee {e e' : Expression} {args : List Expression} (h : Replaced L e e') :
      Replaced L (.call e args) (.call e' args)
  | argument {callee e e' : Expression} (before after : List Expression) (h : Replaced L e e') :
      Replaced L (.call callee (before ++ e :: after)) (.call callee (before ++ e' :: after))
  | operand {op : UnaryOp} {e e' : Expression} (h : Replaced L e e') :
      Replaced L (.unary op e) (.unary op e')
  | arithmeticLeft {op : ArithmeticOp} {e e' rhs : Expression} (h : Replaced L e e') :
      Replaced L (.arithmetic op e rhs) (.arithmetic op e' rhs)
  | arithmeticRight {op : ArithmeticOp} {lhs e e' : Expression} (h : Replaced L e e') :
      Replaced L (.arithmetic op lhs e) (.arithmetic op lhs e')
  | logicalLeft {op : LogicalOp} {e e' rhs : Expression} (h : Replaced L e e') :
      Replaced L (.logical op e rhs) (.logical op e' rhs)
  | logicalRight {op : LogicalOp} {lhs e e' : Expression} (h : Replaced L e e') :
      Replaced L (.logical op lhs e) (.logical op lhs e')
  | comparisonLeft {op : ComparisonOp} {e e' rhs : Expression} (h : Replaced L e e') :
      Replaced L (.comparison op e rhs) (.comparison op e' rhs)
  | comparisonRight {op : ComparisonOp} {lhs e e' : Expression} (h : Replaced L e e') :
      Replaced L (.comparison op lhs e) (.comparison op lhs e')

/-- The second statement is the first with a part, an expression or a statement, replaced as a law
allows. -/
inductive Statement.Replaced (L : Expression → Expression → Prop)
    (M : Statement → Statement → Prop) : Statement → Statement → Prop
  | here {s s' : Statement} (h : M s s') : Replaced L M s s'
  | within {s s' : Statement} (before after : List Statement) (h : Replaced L M s s') :
      Replaced L M (.block (before ++ s :: after)) (.block (before ++ s' :: after))
  | assigned {name : String} {e e' : Expression} (h : e.Replaced L e') :
      Replaced L M (.assign name e) (.assign name e')
  | condition {e e' : Expression} {thenDo : Statement} {otherwise : Option Statement}
      (h : e.Replaced L e') :
      Replaced L M (.branch e thenDo otherwise) (.branch e' thenDo otherwise)
  | thenDo {condition : Expression} {s s' : Statement} {otherwise : Option Statement}
      (h : Replaced L M s s') :
      Replaced L M (.branch condition s otherwise) (.branch condition s' otherwise)
  | otherwise {condition : Expression} {thenDo s s' : Statement} (h : Replaced L M s s') :
      Replaced L M (.branch condition thenDo (some s)) (.branch condition thenDo (some s'))
  | subject {e e' : Expression} {cases : List Case} (h : e.Replaced L e') :
      Replaced L M (.switch (some e) cases) (.switch (some e') cases)
  | caseCondition {subject : Option Expression} {e e' : Expression} {body : Statement}
      (before after : List Case) (first last : List Expression) (h : e.Replaced L e') :
      Replaced L M (.switch subject (before ++ .matching (first ++ e :: last) body :: after))
        (.switch subject (before ++ .matching (first ++ e' :: last) body :: after))
  | caseBody {subject : Option Expression} {conditions : List Expression} {s s' : Statement}
      (before after : List Case) (h : Replaced L M s s') :
      Replaced L M (.switch subject (before ++ .matching conditions s :: after))
        (.switch subject (before ++ .matching conditions s' :: after))
  | defaultBody {subject : Option Expression} {s s' : Statement} (before after : List Case)
      (h : Replaced L M s s') :
      Replaced L M (.switch subject (before ++ .default s :: after))
        (.switch subject (before ++ .default s' :: after))
  | evaluated {e e' : Expression} (h : e.Replaced L e') :
      Replaced L M (.expression e) (.expression e')

/-! ## Congruence

The rules for lists are lemmas of their own, since a list is evaluated up to the first failure, the
first match or the end, and what stands before the position decides whether it is reached. -/

variable {κ σ : Type}

theorem Expression.evaluateAll_congr {host : Host κ σ} {scope : Scope κ} {e e' : Expression}
    (h : e.evaluate host scope = e'.evaluate host scope) (before after : List Expression) :
    Expression.evaluateAll host scope (before ++ e :: after) =
      Expression.evaluateAll host scope (before ++ e' :: after) := by
  induction before with
  | nil => simp only [List.nil_append, evaluateAll, h]
  | cons first rest ih => simp only [List.cons_append, evaluateAll, ih]

/-- A condition may be replaced among others, whether the cases are compared with a subject or not.
-/
theorem anyMatches_congr {host : Host κ σ} {scope : Scope κ} {e e' : Expression}
    (h : e.evaluate host scope = e'.evaluate host scope) (v : Option (Value κ))
    (before after : List Expression) :
    anyMatches host scope v (before ++ e :: after) =
      anyMatches host scope v (before ++ e' :: after) := by
  induction before with
  | nil => simp only [List.nil_append, anyMatches, h]
  | cons first rest ih => simp only [List.cons_append, anyMatches, ih]

/-- A case may be replaced behind others. If one of those is selected, or is a default, it is not
looked at. -/
theorem Case.executeFirstIn_congr {world : World κ σ} {v : Option (Value κ)} {c c' : Case}
    {after : List Case}
    (h : Case.executeFirstIn world v (c :: after) = Case.executeFirstIn world v (c' :: after))
    (before : List Case) :
    Case.executeFirstIn world v (before ++ c :: after) =
      Case.executeFirstIn world v (before ++ c' :: after) := by
  induction before with
  | nil => exact h
  | cons first rest ih =>
    cases first with
    | matching conditions body => simp only [List.cons_append, executeFirstIn, ih]
    | default body => rfl

theorem Statement.executeIn_switch_congr {world : World κ σ} {c c' : Case} {after : List Case}
    (h : ∀ v, Case.executeFirstIn world v (c :: after) = Case.executeFirstIn world v (c' :: after))
    (subject : Option Expression) (before : List Case) :
    (Statement.switch subject (before ++ c :: after)).executeIn world =
      (Statement.switch subject (before ++ c' :: after)).executeIn world := by
  simp only [executeIn, fun v => Case.executeFirstIn_congr (h v) before]

theorem Expression.Replaced.equivalent {L : Expression → Expression → Prop}
    (hL : ∀ e e', L e e' → e.Equivalent e') {e e' : Expression} (h : e.Replaced L e') :
    e.Equivalent e' := by
  intro κ σ host scope
  -- by induction on the position: at every node above it one part is replaced and the others stay
  induction h with
  | here h => exact hL _ _ h host scope
  | target _ ih | callee _ ih | operand _ ih
  | arithmeticLeft _ ih | arithmeticRight _ ih | logicalLeft _ ih | logicalRight _ ih
  | comparisonLeft _ ih | comparisonRight _ ih => simp only [evaluate, ih]
  | argument _ _ _ ih => simp only [evaluate, evaluateAll_congr ih]

/-- **Replacing in a statement what is equivalent gives an equivalent statement**, at whatever
position. -/
theorem Statement.Replaced.equivalent {L : Expression → Expression → Prop}
    {M : Statement → Statement → Prop} (hL : ∀ e e', L e e' → e.Equivalent e')
    (hM : ∀ s s', M s s' → s.Equivalent s')
    {s s' : Statement} (h : s.Replaced L M s') : s.Equivalent s' := by
  intro κ σ world
  induction h with
  | here h => exact hM _ _ h world
  | within _ _ _ ih => simp only [executeIn, executeAllIn_append, executeAllIn, ih]
  | assigned h | evaluated h => simp only [executeIn, h.equivalent hL world.host]
  | @condition _ _ _ otherwise h =>
    cases otherwise <;> simp only [executeIn, evaluateCondition, h.equivalent hL world.host]
  | @thenDo _ _ _ otherwise _ ih => cases otherwise <;> simp only [executeIn, ih]
  | otherwise _ ih => simp only [executeIn, ih]
  | subject h => simp only [executeIn, evaluateSubject, h.equivalent hL world.host]
  | caseCondition _ _ _ _ h =>
    -- the cases before it are tried first on both sides
    refine executeIn_switch_congr (fun v => ?_) _ _
    simp only [Case.executeFirstIn, anyMatches_congr (h.equivalent hL _ _)]
  | caseBody _ _ _ ih | defaultBody _ _ _ ih =>
    refine executeIn_switch_congr (fun v => ?_) _ _
    simp only [Case.executeFirstIn, ih]

end Script
end CombatTrials
