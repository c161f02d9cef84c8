import CombatTrials.Proofs.Data.Ledger
import CombatTrials.Proofs.Script.Names
import CombatTrials.Proofs.Script.Parallel

/-!
# What a script runs against

A script meets the outside in two places: it calls functions, which is up to the host, and it binds
variables. A `World` says what both of these do, and `executeIn` is execution with the second left
open as well as the first. In the plain world a variable is bound and nothing else, and there it is
execution as it is (`executeIn_plain`). In other worlds notes are taken besides.

Two worlds are `Alike` up to a relation between places when calls and assignments are in parallel
there and the variables that are read have one value. Then whole scripts are in parallel
(`Alike.execute`). The proof follows the tree once, and what is later said of names, of accounts and
of rewriting are cases of it.
-/

namespace CombatTrials
namespace Script

open Exec (Parallel reading reading_bind)

variable {κ σ τ : Type}

/-! ## Binding variables

The laws of scopes, stated for looking up alone. How a scope is stored plays no part in what
follows. -/

theorem Scope.find?_set_self (scope : Scope κ) (x : String) (v : Value κ) :
    (scope.set x v).find? x = some v :=
  Data.Ledger.find?_set_self x v scope.bindings

theorem Scope.find?_set_ne {x y : String} (h : y ≠ x) (scope : Scope κ) (v : Value κ) :
    (scope.set x v).find? y = scope.find? y :=
  Data.Ledger.find?_set_ne h v scope.bindings

/-- What is found after a variable is bound is its value, or was found before. -/
theorem Scope.eq_or_find?_of_find?_set {scope : Scope κ} {x y : String} {v w : Value κ}
    (h : (scope.set x v).find? y = some w) : w = v ∨ scope.find? y = some w := by
  rcases eq_or_ne y x with rfl | hne
  · rw [find?_set_self] at h
    exact .inl (Option.some.inj h).symm
  · rw [find?_set_ne hne] at h
    exact .inr h

/-- Two scopes in which one variable is bound to one value agree on it, and on the others as
before. -/
theorem Scope.find?_set_congr {scope scope' : Scope κ} {x y : String} (v : Value κ)
    (h : y ≠ x → scope.find? y = scope'.find? y) :
    (scope.set x v).find? y = (scope'.set x v).find? y := by
  rcases eq_or_ne y x with rfl | hne
  · rw [find?_set_self, find?_set_self]
  · rw [find?_set_ne hne, find?_set_ne hne, h hne]

/-! ## Worlds -/

/-- What a script runs against. -/
structure World (κ σ : Type) where
  host : Host κ σ
  bind : String → Value κ → Exec κ σ Unit

/-- The world in which a variable is bound and nothing else. -/
def World.plain (host : Host κ σ) : World κ σ := ⟨host, Exec.bind⟩

/-! ## Execution in a world

The definition repeats that of execution, with the binding of variables left open. Nothing is lost
by this: in the plain world the two are equal, and other worlds are only ever compared with it. -/

mutual

/-- Executes a statement in a world. -/
def Statement.executeIn (world : World κ σ) : Statement → Exec κ σ Unit
  | .block body => Statement.executeAllIn world body
  | .assign name value => do
    let v ← reading fun scope => value.evaluate world.host scope
    world.bind name v
  | .branch condition thenDo none => do
    let b ← reading fun scope => evaluateCondition world.host scope condition
    if b then thenDo.executeIn world else pure ()
  | .branch condition thenDo (some otherwise) => do
    let b ← reading fun scope => evaluateCondition world.host scope condition
    if b then thenDo.executeIn world else otherwise.executeIn world
  | .switch subject cases => do
    let s ← reading fun scope => evaluateSubject world.host scope subject
    Case.executeFirstIn world s cases
  | .expression value => do
    let _ ← reading fun scope => value.evaluate world.host scope
    pure ()

def Statement.executeAllIn (world : World κ σ) : List Statement → Exec κ σ Unit
  | [] => pure ()
  | s :: rest => do
    s.executeIn world
    Statement.executeAllIn world rest

def Case.executeFirstIn (world : World κ σ) (subject : Option (Value κ)) : List Case → Exec κ σ Unit
  | [] => throw (.noMatchingCase (subjectText subject))
  | .matching conditions body :: rest => do
    let selected ← reading fun scope => anyMatches world.host scope subject conditions
    if selected then body.executeIn world else Case.executeFirstIn world subject rest
  | .default body :: _ => body.executeIn world

end

mutual

/-- **In the plain world execution is as it is.** Case by case, since `executeIn` follows `execute`.
-/
theorem Statement.executeIn_plain (host : Host κ σ) :
    (s : Statement) → s.executeIn (.plain host) = s.execute host
  | .block body => by
    simp only [Statement.executeIn, Statement.execute, Statement.executeAllIn_plain host body]
  | .assign name value => by
    simp only [Statement.executeIn, Statement.execute]
    rfl
  | .branch condition thenDo none => by
    simp only [Statement.executeIn, Statement.execute, Statement.executeIn_plain host thenDo]
    rfl
  | .branch condition thenDo (some otherwise) => by
    simp only [Statement.executeIn, Statement.execute, Statement.executeIn_plain host thenDo,
      Statement.executeIn_plain host otherwise]
    rfl
  | .switch subject cases => by
    simp only [Statement.executeIn, Statement.execute, Case.executeFirstIn_plain host _ cases]
    rfl
  | .expression value => by
    simp only [Statement.executeIn, Statement.execute]
    rfl

theorem Statement.executeAllIn_plain (host : Host κ σ) :
    (body : List Statement) →
    Statement.executeAllIn (.plain host) body = Statement.executeAll host body
  | [] => by simp only [Statement.executeAllIn, Statement.executeAll]
  | s :: rest => by
    simp only [Statement.executeAllIn, Statement.executeAll, Statement.executeIn_plain host s,
      Statement.executeAllIn_plain host rest]

theorem Case.executeFirstIn_plain (host : Host κ σ) (subject : Option (Value κ)) :
    (cases : List Case) →
    Case.executeFirstIn (.plain host) subject cases = Case.executeFirst host subject cases
  | [] => by simp only [Case.executeFirstIn, Case.executeFirst]
  | .matching conditions body :: rest => by
    simp only [Case.executeFirstIn, Case.executeFirst, Statement.executeIn_plain host body,
      Case.executeFirstIn_plain host subject rest]
    rfl
  | .default body :: _ => by
    simp only [Case.executeFirstIn, Case.executeFirst, Statement.executeIn_plain host body]

end

/-- Statements in a row can be cut anywhere. -/
theorem Statement.executeAllIn_append (world : World κ σ) (body rest : List Statement) :
    Statement.executeAllIn world (body ++ rest) =
      Statement.executeAllIn world body >>= fun _ => Statement.executeAllIn world rest := by
  induction body with
  | nil => exact (pure_bind () fun _ => Statement.executeAllIn world rest).symm
  | cons s body ih => simp only [List.cons_append, executeAllIn, ih, bind_assoc]

/-! ## Worlds that are alike

A script asks its world for three things: a variable, a call, an assignment. What two worlds have in
common is said for each of the three, and for nothing else. -/

namespace World

/-- Two worlds cannot be told apart where `R` relates the places, by a script that looks at names of
the one kind and binds names of the other. -/
structure Alike (reads binds : String → Prop) (R : Scope κ × σ → Scope κ × τ → Prop)
    (world : World κ σ) (world' : World κ τ) : Prop where
  find : ∀ s t, R s t → ∀ x, reads x → s.1.find? x = t.1.find? x
  call : ∀ f args,
    Parallel R R
      (reading fun _ => world.host.call f args) (reading fun _ => world'.host.call f args)
  bind : ∀ x v, binds x → Parallel R R (world.bind x v) (world'.bind x v)

namespace Alike

variable {reads binds : String → Prop} {R : Scope κ × σ → Scope κ × τ → Prop} {world : World κ σ}
  {world' : World κ τ}

theorem get (h : Alike reads binds R world world') {x : String} (hx : reads x) :
    Parallel R R (reading fun scope => Run.ofExcept (scope.get x))
      (reading fun scope => Run.ofExcept (scope.get x)) := by
  intro s t hst
  refine ⟨?_, hst⟩
  show s.1.get x = t.1.get x
  simp only [Scope.get, h.find s t hst x hx]

theorem invoke (h : Alike reads binds R world world') (v : Value κ) (args : List (Value κ)) :
    Parallel R R
      (reading fun _ => v.invoke world.host args) (reading fun _ => v.invoke world'.host args) := by
  cases v with
  | number | boolean => exact .throw _
  | object identity body =>
    cases body with
    | record | custom => exact .throw _
    | native f =>
      simp only [Value.invoke]
      cases f.arity with
      | none => exact h.call f args
      | some n =>
        dsimp only
        split
        · exact h.call f args
        · exact .throw _

/-! ### Expressions -/

mutual

/-- **In worlds that are alike an expression evaluates alike**, if it looks at names for which they
are. Each case takes the steps of the evaluator in their order. -/
theorem evaluate (h : Alike reads binds R world world') :
    (e : Expression) → (∀ x ∈ e.identifiers, reads x) →
    Parallel R R (reading fun scope => e.evaluate world.host scope)
      (reading fun scope => e.evaluate world'.host scope)
  | .identifier name, hreads => by
    simp only [Expression.evaluate]
    exact h.get (hreads name (List.mem_singleton_self name))
  | .literal l, _ => by
    simp only [Expression.evaluate]
    exact .pure _
  | .access target name, hreads => by
    simp only [Expression.evaluate, reading_bind]
    exact (h.evaluate target hreads).andThen fun v => .ofExcept _
  | .call callee args, hreads => by
    obtain ⟨hcallee, hargs⟩ := List.forall_mem_append.mp hreads
    simp only [Expression.evaluate, reading_bind]
    refine (h.evaluate callee hcallee).andThen fun f => ?_
    exact (h.evaluateAll args hargs).andThen fun vs => h.invoke f vs
  | .unary op operand, hreads => by
    simp only [Expression.evaluate, reading_bind]
    exact (h.evaluate operand hreads).andThen fun v => .ofExcept _
  | .arithmetic op lhs rhs, hreads => by
    obtain ⟨hlhs, hrhs⟩ := List.forall_mem_append.mp hreads
    simp only [Expression.evaluate, reading_bind]
    refine (h.evaluate lhs hlhs).andThen fun l => (Parallel.ofExcept _).andThen fun a => ?_
    exact (h.evaluate rhs hrhs).andThen fun r => (Parallel.ofExcept _).andThen fun b => .pure _
  | .logical op lhs rhs, hreads => by
    obtain ⟨hlhs, hrhs⟩ := List.forall_mem_append.mp hreads
    simp only [Expression.evaluate, reading_bind]
    refine (h.evaluate lhs hlhs).andThen fun l => (Parallel.ofExcept _).andThen fun a => ?_
    -- the right operand is only looked at if the left one does not settle it
    cases op.settled a with
    | true => exact .pure _
    | false =>
      simp only [Bool.false_eq_true, if_false, reading_bind]
      exact (h.evaluate rhs hrhs).andThen fun r => (Parallel.ofExcept _).andThen fun b => .pure _
  | .comparison op lhs rhs, hreads => by
    obtain ⟨hlhs, hrhs⟩ := List.forall_mem_append.mp hreads
    simp only [Expression.evaluate, reading_bind]
    refine (h.evaluate lhs hlhs).andThen fun l => (h.evaluate rhs hrhs).andThen fun r => ?_
    exact (Parallel.ofExcept _).andThen fun b => .pure _

theorem evaluateAll (h : Alike reads binds R world world') :
    (es : List Expression) → (∀ x ∈ Expression.identifiersAll es, reads x) →
    Parallel R R (reading fun scope => Expression.evaluateAll world.host scope es)
      (reading fun scope => Expression.evaluateAll world'.host scope es)
  | [], _ => by
    simp only [Expression.evaluateAll]
    exact .pure _
  | e :: rest, hreads => by
    obtain ⟨hfirst, hrest⟩ := List.forall_mem_append.mp hreads
    simp only [Expression.evaluateAll, reading_bind]
    refine (h.evaluate e hfirst).andThen fun v => ?_
    exact (h.evaluateAll rest hrest).andThen fun vs => .pure _

end

theorem evaluateCondition (h : Alike reads binds R world world') {e : Expression}
    (hreads : ∀ x ∈ e.identifiers, reads x) :
    Parallel R R (reading fun scope => Script.evaluateCondition world.host scope e)
      (reading fun scope => Script.evaluateCondition world'.host scope e) := by
  simp only [Script.evaluateCondition, reading_bind]
  exact (h.evaluate e hreads).andThen fun v => .ofExcept _

theorem evaluateSubject (h : Alike reads binds R world world') :
    (subject : Option Expression) → (∀ e ∈ subject, ∀ x ∈ e.identifiers, reads x) →
    Parallel R R (reading fun scope => Script.evaluateSubject world.host scope subject)
      (reading fun scope => Script.evaluateSubject world'.host scope subject)
  | none, _ => .pure _
  | some e, hreads => by
    simp only [Script.evaluateSubject, reading_bind]
    exact (h.evaluate e (hreads e rfl)).andThen fun v => .pure _

theorem anyMatches (h : Alike reads binds R world world') (subject : Option (Value κ))
    {conditions : List Expression} (hreads : ∀ x ∈ Expression.identifiersAll conditions, reads x) :
    Parallel R R (reading fun scope => Script.anyMatches world.host scope subject conditions)
      (reading fun scope => Script.anyMatches world'.host scope subject conditions) := by
  induction conditions with
  | nil => exact .pure _
  | cons e rest ih =>
    obtain ⟨hfirst, hrest⟩ := List.forall_mem_append.mp hreads
    simp only [Script.anyMatches, reading_bind]
    refine (h.evaluate e hfirst).andThen fun v => (Parallel.ofExcept _).andThen fun hit => ?_
    cases hit with
    | true => exact .pure _
    | false => exact ih hrest

/-! ### Statements -/

mutual

/-- **In worlds that are alike a statement does alike**, if it looks at names and binds names for
which they are. -/
theorem execute (h : Alike reads binds R world world') :
    (s : Statement) → (∀ x ∈ s.identifiers, reads x) → (∀ x ∈ s.targets, binds x) →
    Parallel R R (s.executeIn world) (s.executeIn world')
  | .block body, hreads, hbinds => h.executeAll body hreads hbinds
  | .assign name value, hreads, hbinds => by
    simp only [Statement.executeIn]
    refine (h.evaluate value hreads).andThen fun v => ?_
    exact h.bind name v (hbinds name (List.mem_singleton_self name))
  | .branch condition thenDo none, hreads, hbinds => by
    obtain ⟨hcondition, hthen⟩ := List.forall_mem_append.mp hreads
    simp only [Statement.executeIn]
    refine (h.evaluateCondition hcondition).andThen fun b => ?_
    cases b with
    | true => exact h.execute thenDo hthen hbinds
    | false => exact .pure _
  | .branch condition thenDo (some otherwise), hreads, hbinds => by
    obtain ⟨hcondition, hbranches⟩ := List.forall_mem_append.mp hreads
    obtain ⟨hthen, hother⟩ := List.forall_mem_append.mp hbranches
    obtain ⟨hthen', hother'⟩ := List.forall_mem_append.mp hbinds
    simp only [Statement.executeIn]
    refine (h.evaluateCondition hcondition).andThen fun b => ?_
    cases b with
    | true => exact h.execute thenDo hthen hthen'
    | false => exact h.execute otherwise hother hother'
  | .switch none cases, hreads, hbinds => by
    simp only [Statement.executeIn]
    refine (h.evaluateSubject none ?_).andThen fun s => h.executeFirst s cases hreads hbinds
    rintro e ⟨⟩
  | .switch (some subject) cases, hreads, hbinds => by
    obtain ⟨hsubject, hcases⟩ := List.forall_mem_append.mp hreads
    simp only [Statement.executeIn]
    refine (h.evaluateSubject (some subject) ?_).andThen fun s =>
      h.executeFirst s cases hcases hbinds
    rintro e ⟨⟩
    exact hsubject
  | .expression value, hreads, _ => by
    simp only [Statement.executeIn]
    exact (h.evaluate value hreads).andThen fun _ => .pure _

theorem executeAll (h : Alike reads binds R world world') :
    (body : List Statement) → (∀ x ∈ Statement.identifiersAll body, reads x) →
    (∀ x ∈ Statement.targetsAll body, binds x) →
    Parallel R R (Statement.executeAllIn world body) (Statement.executeAllIn world' body)
  | [], _, _ => .pure _
  | s :: rest, hreads, hbinds => by
    obtain ⟨hfirst, hrest⟩ := List.forall_mem_append.mp hreads
    obtain ⟨hfirst', hrest'⟩ := List.forall_mem_append.mp hbinds
    simp only [Statement.executeAllIn]
    exact (h.execute s hfirst hfirst').andThen fun _ => h.executeAll rest hrest hrest'

theorem executeFirst (h : Alike reads binds R world world') (subject : Option (Value κ)) :
    (cases : List Case) → (∀ x ∈ Case.identifiersAll cases, reads x) →
    (∀ x ∈ Case.targetsAll cases, binds x) →
    Parallel R R (Case.executeFirstIn world subject cases)
      (Case.executeFirstIn world' subject cases)
  | [], _, _ => .throw _
  | .matching conditions body :: rest, hreads, hbinds => by
    obtain ⟨hconditions, hbodies⟩ := List.forall_mem_append.mp hreads
    obtain ⟨hbody, hrest⟩ := List.forall_mem_append.mp hbodies
    obtain ⟨hbody', hrest'⟩ := List.forall_mem_append.mp hbinds
    simp only [Case.executeFirstIn]
    refine (h.anyMatches subject hconditions).andThen fun selected => ?_
    cases selected with
    | true => exact h.execute body hbody hbody'
    | false => exact h.executeFirst subject rest hrest hrest'
  | .default body :: rest, hreads, hbinds => by
    obtain ⟨hbody, _⟩ := List.forall_mem_append.mp hreads
    obtain ⟨hbody', _⟩ := List.forall_mem_append.mp hbinds
    simp only [Case.executeFirstIn]
    exact h.execute body hbody hbody'

end

end Alike
end World
end Script
end CombatTrials
