import CombatTrials.Proofs.Script.Account
import CombatTrials.Proofs.Script.Nodes

/-!
# What an execution keeps

Where `Exec.Parallel` compares two executions, `Exec.Keeps` speaks of one. From a place where an
invariant holds the computation ends where it holds, after a failure as well; and it yields a value
of one kind, or a failure that is accounted for at the place where it ends.

What a script does beyond computing is done at a few of its nodes. Identifiers look variables up,
accesses look attributes up, calls reach the host, assignments bind variables, and a switch without
a default can run out of cases. A world `Upholds` an invariant when each of these keeps it, for the
nodes of some script. Then executing the script keeps it (`Upholds.execute`); everything else that
can fail on the way is a value that does not coerce. The proof follows the tree once, for all
invariants, and accounts are read off it (`Statement.account_ended`).
-/

namespace CombatTrials
namespace Script

open Exec (reading reading_pure reading_bind run_bind)

variable {κ σ α β : Type}

/-! ## Keeping an invariant

The rules, one for each way to put a computation together. A failure ends a computation as much as a
value does, so the invariant is asked for in both cases. -/

namespace Exec

/-- An end of a computation that is as it should be. -/
def Ended (I : Scope κ × σ → Prop) (V : α → Prop) (E : Failure → Scope κ × σ → Prop) :
    Except Failure α × (Scope κ × σ) → Prop
  | (.ok x, p) => V x ∧ I p
  | (.error e, p) => E e p ∧ I p

theorem Ended.invariant {I : Scope κ × σ → Prop} {V : α → Prop} {E : Failure → Scope κ × σ → Prop}
    {r : Except Failure α} {p : Scope κ × σ} (h : Ended I V E (r, p)) : I p := by
  cases r <;> exact h.2

/-- From where `I` holds, a computation ends where it holds, with a value in `V` or with a failure
in `E`. -/
def Keeps (I : Scope κ × σ → Prop) (V : α → Prop) (E : Failure → Scope κ × σ → Prop)
    (m : Exec κ σ α) : Prop :=
  ∀ p, I p → Ended I V E (m.run.run p)

namespace Keeps

variable {I : Scope κ × σ → Prop} {V : α → Prop} {W : β → Prop} {E : Failure → Scope κ × σ → Prop}
  {m : Exec κ σ α} {f : α → Exec κ σ β}

theorem pure {x : α} (h : V x) : Keeps I V E (pure x) := fun _ hp => ⟨h, hp⟩

theorem throw {e : Failure} (h : ∀ p, I p → E e p) : Keeps I V E (throw e : Exec κ σ α) :=
  fun p hp => ⟨h p hp, hp⟩

theorem ofExcept {r : Except Failure α} (hok : ∀ x, r = .ok x → V x)
    (herror : ∀ e, r = .error e → ∀ p, I p → E e p) :
    Keeps I V E (reading fun _ => Run.ofExcept r) := by
  intro p hp
  cases r with
  | ok x => exact ⟨hok x rfl, hp⟩
  | error e => exact ⟨herror e rfl p hp, hp⟩

/-- One after the other, for values of the kind that the first yields. -/
theorem bind (h : Keeps I V E m) (hf : ∀ x, V x → Keeps I W E (f x)) : Keeps I W E (m >>= f) := by
  intro p hp
  rw [run_bind]
  have hend := h p hp
  rcases hm : m.run.run p with ⟨_ | x, q⟩
  · rw [hm] at hend
    exact hend
  · rw [hm] at hend
    exact hf x hend.1 q hend.2

/-- A variable is looked up where it is bound, and is missing elsewhere. -/
theorem get {V : Value κ → Prop} {x : String} (hbound : ∀ p v, I p → p.1.find? x = some v → V v)
    (hmissing : ∀ p, I p → p.1.find? x = none → E (.undefinedName x) p) :
    Keeps I V E (reading fun scope => Run.ofExcept (scope.get x)) := by
  intro p hp
  show Ended I V E (p.1.get x, p)
  unfold Scope.get
  split
  case h_1 v hv => exact ⟨hbound p v hp hv, hp⟩
  case h_2 hnone => exact ⟨hmissing p hp hnone, hp⟩

/-- What is no function cannot be called, and a function not with a wrong number of arguments. -/
theorem invoke {V : Value κ → Prop} {host : Host κ σ} {v : Value κ} {args : List (Value κ)}
    (hcall : ∀ i f, v = .object i (.native f) → Keeps I V E (reading fun _ => host.call f args))
    (hcallable : ∀ typeName p, I p → E (.notCallable typeName) p)
    (harity : ∀ callee expected found p, I p → E (.arity callee expected found) p) :
    Keeps I V E (reading fun _ => v.invoke host args) := by
  cases v with
  | number | boolean => exact .throw (hcallable _)
  | object identity body =>
    cases body with
    | record | custom => exact .throw (hcallable _)
    | native f =>
      simp only [Value.invoke]
      -- a fixed number of arguments is compared first, and only then the function is called
      cases f.arity with
      | none => exact hcall identity f rfl
      | some n =>
        dsimp only
        split
        · exact hcall identity f rfl
        · exact .throw (harity _ _ _)

end Keeps
end Exec

/-! ## Coercions

What can go wrong between values is one failure only. This is shown of each operator by looking at
its table, so that the cases below do not have to. -/

/-- A computation on values that fails only when a value does not coerce. -/
def Coercive (r : Except Failure α) : Prop :=
  ∀ e, r = .error e → ∃ expected found, e = .mismatch expected found

theorem Coercive.pure (x : α) : Coercive (pure x) := by rintro e ⟨⟩

theorem Coercive.bind {r : Except Failure α} {f : α → Except Failure β} (h : Coercive r)
    (hf : ∀ x, Coercive (f x)) : Coercive (r >>= f) := by
  intro e he
  cases r with
  | ok x => exact hf x e he
  | error e' =>
    cases he
    exact h e rfl

theorem Value.coercive_toNumber (v : Value κ) : Coercive v.toNumber := by
  intro e he
  unfold toNumber at he
  split at he <;> cases he
  exact ⟨_, _, rfl⟩

theorem Value.coercive_toBoolean (v : Value κ) : Coercive v.toBoolean := by
  intro e he
  unfold toBoolean at he
  split at he <;> cases he
  exact ⟨_, _, rfl⟩

theorem UnaryOp.coercive_apply (op : UnaryOp) (v : Value κ) : Coercive (op.apply v) := by
  cases op with
  | plus => exact v.coercive_toNumber.bind fun n => .pure _
  | minus => exact v.coercive_toNumber.bind fun n => .pure _
  | negate => exact v.coercive_toBoolean.bind fun b => .pure _

/-- Equality is asked of any two values and never fails. An order is one of numbers. -/
theorem ComparisonOp.coercive_apply (op : ComparisonOp) (l r : Value κ) :
    Coercive (op.apply l r) := by
  -- the four orders coerce both sides, the left one first
  have horder : Coercive (do return op.holds (← l.toNumber) (← r.toNumber)) :=
    l.coercive_toNumber.bind fun a => r.coercive_toNumber.bind fun b => .pure _
  cases op with
  | equal | notEqual => exact .pure _
  | less | lessOrEqual | greater | greaterOrEqual => exact horder

theorem coercive_conditionMatches (subject : Option (Value κ)) (v : Value κ) :
    Coercive (conditionMatches subject v) := by
  cases subject with
  | none => exact v.coercive_toBoolean
  | some s => exact .pure _

/-- A prefix operator yields a number or a boolean. -/
theorem UnaryOp.apply_eq_ok {op : UnaryOp} {v w : Value κ} (h : op.apply v = .ok w) :
    (∃ n, w = .number n) ∨ ∃ b, w = .boolean b := by
  cases op with
  | plus | minus =>
    rcases hv : v.toNumber with _ | n <;> rw [apply, hv] at h <;> cases h
    exact .inl ⟨_, rfl⟩
  | negate =>
    rcases hv : v.toBoolean with _ | b <;> rw [apply, hv] at h <;> cases h
    exact .inr ⟨_, rfl⟩

/-! ## Worlds that uphold an invariant

The structure has a field for every step at which a world or a scope is asked for something. What it
means to uphold an invariant is thus stated without a word about trees. -/

open Exec (Keeps)

namespace World

/-- At the nodes of the kinds `N` and `M`, what is done in a world keeps the invariant. -/
structure Upholds (N : Expression → Prop) (M : Statement → Prop) (I : Scope κ × σ → Prop)
    (V : Value κ → Prop) (E : Failure → Scope κ × σ → Prop) (world : World κ σ) : Prop where
  number : ∀ n, V (.number n)
  boolean : ∀ b, V (.boolean b)
  mismatch : ∀ expected found p, I p → E (.mismatch expected found) p
  get : ∀ x, N (.identifier x) → Keeps I V E (reading fun scope => Run.ofExcept (scope.get x))
  access : ∀ target name, N (.access target name) → ∀ v, V v →
    Keeps I V E (reading fun _ => Run.ofExcept (v.getAttribute name))
  invoke : ∀ callee args, N (.call callee args) → ∀ f vs, V f → (∀ v ∈ vs, V v) →
    Keeps I V E (reading fun _ => f.invoke world.host vs)
  bind : ∀ x e, M (.assign x e) → ∀ v, V v → Keeps I (fun _ => True) E (world.bind x v)
  unmatched : ∀ subject cases, M (.switch subject cases) → (∀ body, .default body ∉ cases) →
    ∀ text p, I p → E (.noMatchingCase text) p

namespace Upholds

variable {N : Expression → Prop} {M : Statement → Prop} {I : Scope κ × σ → Prop}
  {V : Value κ → Prop} {E : Failure → Scope κ × σ → Prop} {world : World κ σ}

theorem coerce (h : Upholds N M I V E world) {r : Except Failure α} (hr : Coercive r) :
    Keeps I (fun _ => True) E (reading fun _ => Run.ofExcept r) := by
  refine .ofExcept (fun _ _ => trivial) fun e he p hp => ?_
  obtain ⟨expected, found, rfl⟩ := hr e he
  exact h.mismatch expected found p hp

/-! ### Expressions -/

mutual

/-- **Evaluating an expression keeps what the world upholds at its nodes.** The nodes of a part are
nodes of the whole, so every case hands on what it was given. -/
theorem evaluate (h : Upholds N M I V E world) :
    (e : Expression) → (∀ n ∈ e.nodes, N n) →
    Keeps I V E (reading fun scope => e.evaluate world.host scope)
  | .identifier name, hnodes => by
    simp only [Expression.evaluate]
    exact h.get name (hnodes _ List.mem_cons_self)
  | .literal (.number n), _ => by
    simp only [Expression.evaluate]
    exact .pure (h.number n)
  | .literal (.boolean b), _ => by
    simp only [Expression.evaluate]
    exact .pure (h.boolean b)
  | .access target name, hnodes => by
    obtain ⟨hself, htarget⟩ := List.forall_mem_cons.mp hnodes
    simp only [Expression.evaluate, reading_bind]
    exact (h.evaluate target htarget).bind fun v hv => h.access target name hself v hv
  | .call callee args, hnodes => by
    obtain ⟨hself, hparts⟩ := List.forall_mem_cons.mp hnodes
    obtain ⟨hcallee, hargs⟩ := List.forall_mem_append.mp hparts
    simp only [Expression.evaluate, reading_bind]
    refine (h.evaluate callee hcallee).bind fun f hf => ?_
    exact (h.evaluateAll args hargs).bind fun vs hvs => h.invoke callee args hself f vs hf hvs
  | .unary op operand, hnodes => by
    obtain ⟨-, hoperand⟩ := List.forall_mem_cons.mp hnodes
    simp only [Expression.evaluate, reading_bind]
    refine (h.evaluate operand hoperand).bind fun v _ => ?_
    refine .ofExcept (fun w hw => ?_) fun e he p hp => ?_
    · rcases UnaryOp.apply_eq_ok hw with ⟨n, rfl⟩ | ⟨b, rfl⟩
      · exact h.number n
      · exact h.boolean b
    · obtain ⟨expected, found, rfl⟩ := op.coercive_apply v e he
      exact h.mismatch expected found p hp
  | .arithmetic op lhs rhs, hnodes => by
    obtain ⟨-, hparts⟩ := List.forall_mem_cons.mp hnodes
    obtain ⟨hlhs, hrhs⟩ := List.forall_mem_append.mp hparts
    simp only [Expression.evaluate, reading_bind]
    refine (h.evaluate lhs hlhs).bind fun l _ => (h.coerce l.coercive_toNumber).bind fun a _ => ?_
    refine (h.evaluate rhs hrhs).bind fun r _ => (h.coerce r.coercive_toNumber).bind fun b _ => ?_
    exact .pure (h.number (op.apply a b))
  | .logical op lhs rhs, hnodes => by
    obtain ⟨-, hparts⟩ := List.forall_mem_cons.mp hnodes
    obtain ⟨hlhs, hrhs⟩ := List.forall_mem_append.mp hparts
    simp only [Expression.evaluate, reading_bind]
    refine (h.evaluate lhs hlhs).bind fun l _ => (h.coerce l.coercive_toBoolean).bind fun a _ => ?_
    cases op.settled a with
    | true => exact .pure (h.boolean a)
    | false =>
      simp only [Bool.false_eq_true, if_false, reading_bind]
      refine (h.evaluate rhs hrhs).bind fun r _ => ?_
      exact (h.coerce r.coercive_toBoolean).bind fun b _ => .pure (h.boolean b)
  | .comparison op lhs rhs, hnodes => by
    obtain ⟨-, hparts⟩ := List.forall_mem_cons.mp hnodes
    obtain ⟨hlhs, hrhs⟩ := List.forall_mem_append.mp hparts
    simp only [Expression.evaluate, reading_bind]
    refine (h.evaluate lhs hlhs).bind fun l _ => (h.evaluate rhs hrhs).bind fun r _ => ?_
    exact (h.coerce (op.coercive_apply l r)).bind fun b _ => .pure (h.boolean b)

theorem evaluateAll (h : Upholds N M I V E world) :
    (es : List Expression) → (∀ n ∈ Expression.nodesAll es, N n) →
    Keeps I (fun vs => ∀ v ∈ vs, V v) E
      (reading fun scope => Expression.evaluateAll world.host scope es)
  | [], _ => by
    simp only [Expression.evaluateAll]
    exact .pure (by simp)
  | e :: rest, hnodes => by
    obtain ⟨hfirst, hrest⟩ := List.forall_mem_append.mp hnodes
    simp only [Expression.evaluateAll, reading_bind]
    refine (h.evaluate e hfirst).bind fun v hv => ?_
    exact (h.evaluateAll rest hrest).bind fun vs hvs => .pure (List.forall_mem_cons.mpr ⟨hv, hvs⟩)

end

theorem evaluateCondition (h : Upholds N M I V E world) {e : Expression}
    (hnodes : ∀ n ∈ e.nodes, N n) :
    Keeps I (fun _ => True) E
      (reading fun scope => Script.evaluateCondition world.host scope e) := by
  simp only [Script.evaluateCondition, reading_bind]
  exact (h.evaluate e hnodes).bind fun v _ => h.coerce v.coercive_toBoolean

theorem evaluateSubject (h : Upholds N M I V E world) :
    (subject : Option Expression) → (∀ e ∈ subject, ∀ n ∈ e.nodes, N n) →
    Keeps I (fun _ => True) E (reading fun scope => Script.evaluateSubject world.host scope subject)
  | none, _ => .pure trivial
  | some e, hnodes => by
    simp only [Script.evaluateSubject, reading_bind]
    exact (h.evaluate e (hnodes e rfl)).bind fun v _ => .pure trivial

theorem anyMatches (h : Upholds N M I V E world) (subject : Option (Value κ))
    {conditions : List Expression} (hnodes : ∀ n ∈ Expression.nodesAll conditions, N n) :
    Keeps I (fun _ => True) E
      (reading fun scope => Script.anyMatches world.host scope subject conditions) := by
  induction conditions with
  | nil => exact .pure trivial
  | cons e rest ih =>
    obtain ⟨hfirst, hrest⟩ := List.forall_mem_append.mp hnodes
    simp only [Script.anyMatches, reading_bind]
    refine (h.evaluate e hfirst).bind fun v _ =>
      (h.coerce (coercive_conditionMatches subject v)).bind fun hit _ => ?_
    cases hit with
    | true => exact .pure trivial
    | false => exact ih hrest

/-! ### Statements -/

mutual

/-- **Executing a script keeps what the world upholds at its nodes.** -/
theorem execute (h : Upholds N M I V E world) :
    (s : Statement) → (∀ n ∈ s.expressions, N n) → (∀ t ∈ s.nodes, M t) →
    Keeps I (fun _ => True) E (s.executeIn world)
  | .block body, hexpressions, hnodes =>
    h.executeAll body hexpressions (List.forall_mem_cons.mp hnodes).2
  | .assign name value, hexpressions, hnodes => by
    simp only [Statement.executeIn]
    refine (h.evaluate value hexpressions).bind fun v hv => ?_
    exact h.bind name value (hnodes _ List.mem_cons_self) v hv
  | .branch condition thenDo none, hexpressions, hnodes => by
    obtain ⟨hcondition, hthen⟩ := List.forall_mem_append.mp hexpressions
    obtain ⟨-, hthen'⟩ := List.forall_mem_cons.mp hnodes
    simp only [Statement.executeIn]
    refine (h.evaluateCondition hcondition).bind fun b _ => ?_
    cases b with
    | true => exact h.execute thenDo hthen hthen'
    | false => exact .pure trivial
  | .branch condition thenDo (some otherwise), hexpressions, hnodes => by
    obtain ⟨hcondition, hbranches⟩ := List.forall_mem_append.mp hexpressions
    obtain ⟨hthen, hother⟩ := List.forall_mem_append.mp hbranches
    obtain ⟨-, hbranches'⟩ := List.forall_mem_cons.mp hnodes
    obtain ⟨hthen', hother'⟩ := List.forall_mem_append.mp hbranches'
    simp only [Statement.executeIn]
    refine (h.evaluateCondition hcondition).bind fun b _ => ?_
    cases b with
    | true => exact h.execute thenDo hthen hthen'
    | false => exact h.execute otherwise hother hother'
  | .switch none cases, hexpressions, hnodes => by
    obtain ⟨hself, hcases⟩ := List.forall_mem_cons.mp hnodes
    simp only [Statement.executeIn]
    refine (h.evaluateSubject none ?_).bind fun v _ => ?_
    · rintro e ⟨⟩
    · exact h.executeFirst v cases hexpressions hcases fun hopen =>
        h.unmatched none cases hself hopen _
  | .switch (some subject) cases, hexpressions, hnodes => by
    obtain ⟨hsubject, hconditions⟩ := List.forall_mem_append.mp hexpressions
    obtain ⟨hself, hcases⟩ := List.forall_mem_cons.mp hnodes
    simp only [Statement.executeIn]
    refine (h.evaluateSubject (some subject) ?_).bind fun v _ => ?_
    · rintro e ⟨⟩
      exact hsubject
    · exact h.executeFirst v cases hconditions hcases fun hopen => h.unmatched _ cases hself hopen _
  | .expression value, hexpressions, _ => by
    simp only [Statement.executeIn]
    exact (h.evaluate value hexpressions).bind fun _ _ => .pure trivial

theorem executeAll (h : Upholds N M I V E world) :
    (body : List Statement) → (∀ n ∈ Statement.expressionsAll body, N n) →
    (∀ t ∈ Statement.nodesAll body, M t) →
    Keeps I (fun _ => True) E (Statement.executeAllIn world body)
  | [], _, _ => .pure trivial
  | s :: rest, hexpressions, hnodes => by
    obtain ⟨hfirst, hrest⟩ := List.forall_mem_append.mp hexpressions
    obtain ⟨hfirst', hrest'⟩ := List.forall_mem_append.mp hnodes
    simp only [Statement.executeAllIn]
    exact (h.execute s hfirst hfirst').bind fun _ _ => h.executeAll rest hrest hrest'

/-- Cases can run out only where none of them is a default. -/
theorem executeFirst (h : Upholds N M I V E world) (subject : Option (Value κ)) :
    (cases : List Case) → (∀ n ∈ Case.expressionsAll cases, N n) →
    (∀ t ∈ Case.nodesAll cases, M t) →
    ((∀ body, .default body ∉ cases) → ∀ p, I p → E (.noMatchingCase (subjectText subject)) p) →
    Keeps I (fun _ => True) E (Case.executeFirstIn world subject cases)
  | [], _, _, hopen => .throw (hopen fun _ => List.not_mem_nil)
  | .matching conditions body :: rest, hexpressions, hnodes, hopen => by
    obtain ⟨hconditions, hbodies⟩ := List.forall_mem_append.mp hexpressions
    obtain ⟨hbody, hrest⟩ := List.forall_mem_append.mp hbodies
    obtain ⟨hbody', hrest'⟩ := List.forall_mem_append.mp hnodes
    simp only [Case.executeFirstIn]
    refine (h.anyMatches subject hconditions).bind fun selected _ => ?_
    cases selected with
    | true => exact h.execute body hbody hbody'
    | false =>
      -- a case with conditions is no default, so the rest has one if all of them have
      refine h.executeFirst subject rest hrest hrest' fun hnone => hopen fun body' hm => ?_
      exact hnone body' (by simpa using hm)
  | .default body :: _, hexpressions, hnodes, _ => by
    obtain ⟨hbody, -⟩ := List.forall_mem_append.mp hexpressions
    obtain ⟨hbody', -⟩ := List.forall_mem_append.mp hnodes
    simp only [Case.executeFirstIn]
    exact h.execute body hbody hbody'

end

end Upholds
end World

/-- What the world with notes upholds is kept by the account of a script. -/
theorem Statement.account_ended {N : Expression → Prop} {M : Statement → Prop}
    {I : Noted κ σ → Prop} {V : Value κ → Prop} {E : Failure → Noted κ σ → Prop} {host : Host κ σ}
    (h : World.Upholds N M I V E (World.noted host)) {s : Statement}
    (hexpressions : ∀ n ∈ s.expressions, N n) (hnodes : ∀ t ∈ s.nodes, M t)
    {scope : Scope κ} {state : σ} (hstart : I (scope, state, [])) :
    Exec.Ended I (fun _ => True) E
      ((s.account host scope state).result, (s.account host scope state).place) := by
  rw [← account_run]
  exact h.execute s hexpressions hnodes _ hstart

end Script
end CombatTrials
