import CombatTrials.Fixture.Probe
import CombatTrials.Proofs.Script.Cases

/-!
# Switches as conditionals

A switch with a default can be written with conditionals. Without a subject, a case becomes a
conditional on the disjunction of its conditions, with the cases behind it as the alternative, and
the first default becomes its body; what stands behind that is never reached and is left out. With a
subject, a variable that the script does not use is set to the subject first, and every condition is
compared with that variable. One variable serves all switches of a script, because conditions hold
no statements: when the body of a case sets it again, nothing will look at it any more.

`Statement.unswitch` writes every such switch of a statement so, at any depth. The two statements
run in parallel up to a relation that lets the spare variable be what it likes
(`parallel_unswitch`), and it is only where a switch with a subject is rewritten that the relation
has to. So a statement without one ends with exactly the same variables.
-/

namespace CombatTrials
namespace Script

open Exec (Parallel reading reading_run reading_pure reading_bind)
open World (Alike)

variable {κ σ : Type}

/-! ## Conditions

A case looks at its conditions one by one and stops at the first that matches, and a disjunction
does the same with its operands. So the two are equal as computations, failures included. -/

/-- The condition of a case as an expression that is true when it matches. -/
def Expression.test (against : Option Expression) (condition : Expression) : Expression :=
  match against with
  | none => condition
  | some subject => condition.equals subject

/-- The disjunction of expressions, nested to the right. -/
def Expression.anyOf : List Expression → Expression
  | [] => .boolean false
  | e :: rest => .either e (anyOf rest)

/-- A disjunction as a condition looks at its right side only if the left one is false. -/
theorem evaluateCondition_either (host : Host κ σ) (scope : Scope κ) (lhs rhs : Expression) :
    evaluateCondition host scope (.either lhs rhs) =
      (do
        let b ← evaluateCondition host scope lhs
        if b then pure true else evaluateCondition host scope rhs) := by
  simp only [evaluateCondition, Expression.either, Expression.evaluate, bind_assoc]
  congr 1
  funext l
  congr 1
  funext a
  -- a true left side settles a disjunction, which otherwise is its right side, coerced
  cases a with
  | true => rfl
  | false =>
    simp only [LogicalOp.settled, Bool.false_eq_true, if_false, bind_assoc, pure_bind]
    congr 1
    funext r
    exact bind_pure _

/-- In a scope, testing against an expression is what matching against a value is. -/
def Stands (host : Host κ σ) (against : Option Expression) (subject : Option (Value κ))
    (scope : Scope κ) : Prop :=
  ∀ e : Expression, evaluateCondition host scope (e.test against) =
    (do
      let v ← e.evaluate host scope
      Run.ofExcept (conditionMatches subject v))

theorem stands_none (host : Host κ σ) (scope : Scope κ) : Stands host none none scope :=
  fun _ => rfl

theorem stands_identifier (host : Host κ σ) {scope : Scope κ} {name : String} {subject : Value κ}
    (h : scope.find? name = some subject) :
    Stands host (some (.identifier name)) (some subject) scope := by
  intro e
  simp only [Expression.test, Expression.equals, evaluateCondition, Expression.evaluate, Scope.get,
    h, bind_assoc]
  rfl

/-- The disjunction of tests is true when one of the conditions matches, and fails when looking for
one does. -/
theorem evaluateCondition_anyOf {host : Host κ σ} {scope : Scope κ} {against : Option Expression}
    {subject : Option (Value κ)} (h : Stands host against subject scope)
    (conditions : List Expression) :
    evaluateCondition host scope (.anyOf (conditions.map (.test against))) =
      anyMatches host scope subject conditions := by
  induction conditions with
  | nil => rfl
  | cons e rest ih =>
    simp only [List.map_cons, Expression.anyOf, evaluateCondition_either, h e, ih,
      anyMatches, bind_assoc]

/-! ## Rewriting

A switch without a default may fail with the text of its subject, and no conditional fails so. Such
a switch is left standing, and only the bodies of its cases are rewritten. -/

/-- Whether a case is a default. -/
def Case.isDefault : Case → Bool
  | .matching _ _ => false
  | .default _ => true

mutual

/-- A statement with conditionals for every switch that has a default. The spare variable holds
subjects. -/
def Statement.unswitch (spare : String) : Statement → Statement
  | .block body => .block (Statement.unswitchAll spare body)
  | .assign name value => .assign name value
  | .branch condition thenDo none => .branch condition (thenDo.unswitch spare) none
  | .branch condition thenDo (some otherwise) =>
    .branch condition (thenDo.unswitch spare) (some (otherwise.unswitch spare))
  | .switch none cases =>
    if cases.any Case.isDefault then Case.conditionals spare none cases
    else .switch none (Case.unswitchAll spare cases)
  | .switch (some subject) cases =>
    if cases.any Case.isDefault then
      .block [.assign spare subject, Case.conditionals spare (some (.identifier spare)) cases]
    else .switch (some subject) (Case.unswitchAll spare cases)
  | .expression value => .expression value

def Statement.unswitchAll (spare : String) : List Statement → List Statement
  | [] => []
  | s :: rest => s.unswitch spare :: Statement.unswitchAll spare rest

/-- The conditionals for cases of which one is a default. -/
def Case.conditionals (spare : String) (against : Option Expression) : List Case → Statement
  | [] => .block []
  | .matching conditions body :: rest =>
    .branch (.anyOf (conditions.map (.test against))) (body.unswitch spare)
      (some (Case.conditionals spare against rest))
  | .default body :: _ => body.unswitch spare

/-- The cases of a switch that stays one. -/
def Case.unswitchAll (spare : String) : List Case → List Case
  | [] => []
  | .matching conditions body :: rest =>
    .matching conditions (body.unswitch spare) :: Case.unswitchAll spare rest
  | .default body :: rest => .default (body.unswitch spare) :: Case.unswitchAll spare rest

end

mutual

/-- Whether no switch has a default, at any depth. -/
def Statement.defaultFree : Statement → Bool
  | .block body => Statement.defaultFreeAll body
  | .assign _ _ | .expression _ => true
  | .branch _ thenDo none => thenDo.defaultFree
  | .branch _ thenDo (some otherwise) => thenDo.defaultFree && otherwise.defaultFree
  | .switch _ cases => Case.defaultFreeAll cases

def Statement.defaultFreeAll : List Statement → Bool
  | [] => true
  | s :: rest => s.defaultFree && Statement.defaultFreeAll rest

def Case.defaultFreeAll : List Case → Bool
  | [] => true
  | .matching _ body :: rest => body.defaultFree && Case.defaultFreeAll rest
  | .default _ :: _ => false

end

mutual

theorem Statement.defaultFree_unswitch (spare : String) :
    (s : Statement) → (s.unswitch spare).defaultFree
  | .block body => Statement.defaultFreeAll_unswitchAll spare body
  | .assign _ _ | .expression _ => rfl
  | .branch _ thenDo none => Statement.defaultFree_unswitch spare thenDo
  | .branch _ thenDo (some otherwise) => by
    simp only [Statement.unswitch, Statement.defaultFree, Bool.and_eq_true]
    exact ⟨Statement.defaultFree_unswitch spare thenDo,
      Statement.defaultFree_unswitch spare otherwise⟩
  | .switch none cases => by
    simp only [Statement.unswitch]
    split
    case isTrue => exact Case.defaultFree_conditionals spare none cases
    case isFalse hdefault => exact Case.defaultFreeAll_unswitchAll spare cases hdefault
  | .switch (some subject) cases => by
    simp only [Statement.unswitch]
    split
    case isTrue =>
      simp only [Statement.defaultFree, Statement.defaultFreeAll, Bool.true_and, Bool.and_true]
      exact Case.defaultFree_conditionals spare _ cases
    case isFalse hdefault => exact Case.defaultFreeAll_unswitchAll spare cases hdefault

theorem Statement.defaultFreeAll_unswitchAll (spare : String) :
    (body : List Statement) → Statement.defaultFreeAll (Statement.unswitchAll spare body)
  | [] => rfl
  | s :: rest => by
    simp only [Statement.unswitchAll, Statement.defaultFreeAll, Bool.and_eq_true]
    exact ⟨Statement.defaultFree_unswitch spare s, Statement.defaultFreeAll_unswitchAll spare rest⟩

theorem Case.defaultFree_conditionals (spare : String) (against : Option Expression) :
    (cases : List Case) → (Case.conditionals spare against cases).defaultFree
  | [] => rfl
  | .matching _ body :: rest => by
    simp only [Case.conditionals, Statement.defaultFree, Bool.and_eq_true]
    exact ⟨Statement.defaultFree_unswitch spare body,
      Case.defaultFree_conditionals spare against rest⟩
  | .default body :: _ => Statement.defaultFree_unswitch spare body

theorem Case.defaultFreeAll_unswitchAll (spare : String) :
    (cases : List Case) → ¬cases.any Case.isDefault →
    Case.defaultFreeAll (Case.unswitchAll spare cases)
  | [], _ => rfl
  | .matching _ body :: rest, hdefault => by
    simp only [Case.unswitchAll, Case.defaultFreeAll, Bool.and_eq_true]
    exact ⟨Statement.defaultFree_unswitch spare body,
      Case.defaultFreeAll_unswitchAll spare rest hdefault⟩
  | .default _ :: _, hdefault => absurd rfl hdefault

end

/-! ## The statements in parallel

By recursion on the tree. The hypothesis about the spare variable is handed down to every part, and
for a part that does not set it there is nothing to show. -/

/-- Whatever the spare variable is set to in the second of two runs, the relation between them
stays. -/
def Indifferent (spare : String) (R : Scope κ × σ → Scope κ × σ → Prop) (world : World κ σ) :
    Prop :=
  ∀ v s t, R s t →
    ∃ t', (world.bind spare v).run.run t = (.ok (), t') ∧ R s t' ∧ t'.1.find? spare = some v

section Parallel

variable {spare : String} {R : Scope κ × σ → Scope κ × σ → Prop} {world : World κ σ}

mutual

/-- **A statement and its conditionals run in parallel.** By recursion on the tree. That the spare
variable may be set is only asked where it is set, so a statement whose conditionals do not set it
need not be compared off it. -/
theorem parallel_unswitch (h : Alike (· ≠ spare) (· ≠ spare) R world world) :
    (s : Statement) → (∀ x ∈ s.identifiers, x ≠ spare) → (∀ x ∈ s.targets, x ≠ spare) →
    (spare ∈ (s.unswitch spare).targets → Indifferent spare R world) →
    Parallel R R (s.executeIn world) ((s.unswitch spare).executeIn world)
  | .block body, hreads, hbinds, hset => by
    simp only [Statement.unswitch, Statement.targets] at hset
    simp only [Statement.unswitch, Statement.executeIn]
    exact parallel_unswitchAll h body hreads hbinds hset
  | .assign name value, hreads, hbinds, _ => h.execute (.assign name value) hreads hbinds
  | .branch condition thenDo none, hreads, hbinds, hset => by
    obtain ⟨hcondition, hthen⟩ := List.forall_mem_append.mp hreads
    simp only [Statement.unswitch, Statement.executeIn]
    refine (h.evaluateCondition hcondition).andThen fun b => ?_
    cases b with
    | true => exact parallel_unswitch h thenDo hthen hbinds hset
    | false => exact .pure _
  | .branch condition thenDo (some otherwise), hreads, hbinds, hset => by
    obtain ⟨hcondition, hbranches⟩ := List.forall_mem_append.mp hreads
    obtain ⟨hthen, hother⟩ := List.forall_mem_append.mp hbranches
    obtain ⟨hthen', hother'⟩ := List.forall_mem_append.mp hbinds
    simp only [Statement.unswitch, Statement.executeIn]
    refine (h.evaluateCondition hcondition).andThen fun b => ?_
    cases b with
    | true =>
      exact parallel_unswitch h thenDo hthen hthen' fun hm => hset (List.mem_append_left _ hm)
    | false =>
      exact parallel_unswitch h otherwise hother hother' fun hm =>
        hset (List.mem_append_right _ hm)
  | .switch none cases, hreads, hbinds, hset => by
    simp only [Statement.unswitch] at hset ⊢
    split
    case isTrue hdefault =>
      rw [if_pos hdefault] at hset
      simp only [Statement.executeIn, evaluateSubject, reading_pure, pure_bind]
      have hparallel := parallel_conditionals h (K := fun _ => True)
        (fun _ _ => stands_none world.host _) cases hdefault hreads hbinds hset
      exact hparallel.mono (fun s t hst => ⟨hst, trivial⟩) (fun _ _ hst => hst)
    case isFalse hdefault =>
      rw [if_neg hdefault] at hset
      simp only [Statement.executeIn]
      refine (h.evaluateSubject none ?_).andThen fun v =>
        parallel_cases h v cases hreads hbinds hset
      rintro e ⟨⟩
  | .switch (some subject) cases, hreads, hbinds, hset => by
    obtain ⟨hsubject, hcases⟩ := List.forall_mem_append.mp hreads
    simp only [Statement.unswitch] at hset ⊢
    split
    case isTrue hdefault =>
      rw [if_pos hdefault] at hset
      have hindifferent : Indifferent spare R world := hset (List.mem_cons_self)
      simp only [Statement.executeIn, Statement.executeAllIn, evaluateSubject, reading_bind,
        reading_pure, bind_assoc, pure_bind, bind_pure_unit]
      refine (h.evaluate subject hsubject).andThen fun v => ?_
      -- only the second run sets the spare variable, which then stands for the subject
      refine Parallel.bind_right (hindifferent v) ?_
      exact parallel_conditionals h (fun _ hv => stands_identifier _ hv) cases hdefault
        hcases hbinds fun _ => hindifferent
    case isFalse hdefault =>
      rw [if_neg hdefault] at hset
      simp only [Statement.executeIn]
      refine (h.evaluateSubject (some subject) ?_).andThen fun v =>
        parallel_cases h v cases hcases hbinds hset
      rintro e ⟨⟩
      exact hsubject
  | .expression value, hreads, hbinds, _ => h.execute (.expression value) hreads hbinds

theorem parallel_unswitchAll (h : Alike (· ≠ spare) (· ≠ spare) R world world) :
    (body : List Statement) → (∀ x ∈ Statement.identifiersAll body, x ≠ spare) →
    (∀ x ∈ Statement.targetsAll body, x ≠ spare) →
    (spare ∈ Statement.targetsAll (Statement.unswitchAll spare body) → Indifferent spare R world) →
    Parallel R R (Statement.executeAllIn world body)
      (Statement.executeAllIn world (Statement.unswitchAll spare body))
  | [], _, _, _ => .pure _
  | s :: rest, hreads, hbinds, hset => by
    obtain ⟨hfirst, hrest⟩ := List.forall_mem_append.mp hreads
    obtain ⟨hfirst', hrest'⟩ := List.forall_mem_append.mp hbinds
    simp only [Statement.unswitchAll, Statement.executeAllIn]
    have hparallel :=
      parallel_unswitch h s hfirst hfirst' fun hm => hset (List.mem_append_left _ hm)
    refine hparallel.andThen fun _ => ?_
    exact parallel_unswitchAll h rest hrest hrest' fun hm => hset (List.mem_append_right _ hm)

/-- Where testing stands for matching, the conditionals do what the cases do. -/
theorem parallel_conditionals (h : Alike (· ≠ spare) (· ≠ spare) R world world)
    {against : Option Expression} {v : Option (Value κ)} {K : Scope κ → Prop}
    (hK : ∀ scope, K scope → Stands world.host against v scope) :
    (cases : List Case) → cases.any Case.isDefault → (∀ x ∈ Case.identifiersAll cases, x ≠ spare) →
    (∀ x ∈ Case.targetsAll cases, x ≠ spare) →
    (spare ∈ (Case.conditionals spare against cases).targets → Indifferent spare R world) →
    Parallel (fun s t => R s t ∧ K t.1) R (Case.executeFirstIn world v cases)
      ((Case.conditionals spare against cases).executeIn world)
  | [], hdefault, _, _, _ => by simp at hdefault
  | .matching conditions body :: rest, hdefault, hreads, hbinds, hset => by
    obtain ⟨hconditions, hbodies⟩ := List.forall_mem_append.mp hreads
    obtain ⟨hbody, hrest⟩ := List.forall_mem_append.mp hbodies
    obtain ⟨hbody', hrest'⟩ := List.forall_mem_append.mp hbinds
    have hdefault : rest.any Case.isDefault := by simpa [Case.isDefault] using hdefault
    have hmatch := (h.anyMatches v hconditions).keep fun _ scope => K scope
    simp only [Case.executeFirstIn, Case.conditionals, Statement.executeIn]
    refine (hmatch.congr_right fun s t hst => ?_).bind (fun _ _ hst => hst.1) fun hit => ?_
    · -- the second run asks for the disjunction, which in its scope is looking for a match
      rw [reading_run, evaluateCondition_anyOf (hK t.1 hst.2)]
      rfl
    cases hit with
    | true =>
      have hparallel :=
        parallel_unswitch h body hbody hbody' fun hm => hset (List.mem_append_left _ hm)
      exact hparallel.mono (fun _ _ hst => hst.1) (fun _ _ hst => hst)
    | false =>
      exact parallel_conditionals h hK rest hdefault hrest hrest' fun hm =>
        hset (List.mem_append_right _ hm)
  -- what stands behind the default is dropped, and the first run never gets there either
  | .default body :: rest, _, hreads, hbinds, hset => by
    obtain ⟨hbody, -⟩ := List.forall_mem_append.mp hreads
    obtain ⟨hbody', -⟩ := List.forall_mem_append.mp hbinds
    simp only [Case.executeFirstIn, Case.conditionals]
    have hparallel := parallel_unswitch h body hbody hbody' hset
    exact hparallel.mono (fun _ _ hst => hst.1) (fun _ _ hst => hst)

/-- The cases of a switch that stays one: they are selected alike, and their bodies run in parallel.
-/
theorem parallel_cases (h : Alike (· ≠ spare) (· ≠ spare) R world world) (v : Option (Value κ)) :
    (cases : List Case) → (∀ x ∈ Case.identifiersAll cases, x ≠ spare) →
    (∀ x ∈ Case.targetsAll cases, x ≠ spare) →
    (spare ∈ Case.targetsAll (Case.unswitchAll spare cases) → Indifferent spare R world) →
    Parallel R R (Case.executeFirstIn world v cases)
      (Case.executeFirstIn world v (Case.unswitchAll spare cases))
  | [], _, _, _ => .throw _
  | .matching conditions body :: rest, hreads, hbinds, hset => by
    obtain ⟨hconditions, hbodies⟩ := List.forall_mem_append.mp hreads
    obtain ⟨hbody, hrest⟩ := List.forall_mem_append.mp hbodies
    obtain ⟨hbody', hrest'⟩ := List.forall_mem_append.mp hbinds
    simp only [Case.unswitchAll, Case.executeFirstIn]
    refine (h.anyMatches v hconditions).andThen fun hit => ?_
    cases hit with
    | true =>
      exact parallel_unswitch h body hbody hbody' fun hm => hset (List.mem_append_left _ hm)
    | false =>
      exact parallel_cases h v rest hrest hrest' fun hm => hset (List.mem_append_right _ hm)
  | .default body :: rest, hreads, hbinds, hset => by
    obtain ⟨hbody, -⟩ := List.forall_mem_append.mp hreads
    obtain ⟨hbody', -⟩ := List.forall_mem_append.mp hbinds
    simp only [Case.unswitchAll, Case.executeFirstIn]
    exact parallel_unswitch h body hbody hbody' fun hm => hset (List.mem_append_left _ hm)

end

end Parallel

/-! ## What may differ

The relation that the theorem on whole scripts uses, and two others for the cases in which nothing
may differ. -/

/-- Where two runs are that have made the same calls and agree on every variable but the spare
one. -/
def OffSpare (spare : String) (s t : Noted κ σ) : Prop :=
  s.2.1 = t.2.1 ∧ Effect.calls s.2.2 = Effect.calls t.2.2 ∧
    ∀ x, x ≠ spare → s.1.find? x = t.1.find? x

theorem OffSpare.refl (spare : String) (s : Noted κ σ) : OffSpare spare s s :=
  ⟨rfl, rfl, fun _ _ => rfl⟩

/-- A probe that speaks, and a flag that is set. -/
def flagged : Scope Fixture.Probe :=
  .ofList [("first", .object 3 (.native ⟨"first", none, .first⟩)), ("flag", .boolean true)]

end Script
end CombatTrials
