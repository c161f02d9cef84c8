import CombatTrials.Proofs.Script.Account

/-!
# Which case a switch selects

A switch does three things: it evaluates its subject, it goes through its cases up to the first that
matches, and it executes that one. `select` is the first two of these, and it yields the position of
the case, which is the number of the cases when none of them matches. Execution is selection, and
then the case at that position (`executeIn_switch`).

Selection looks at conditions only and binds no variable. So cases that follow the selected one, and
the bodies of all cases, have no part in it.
-/

namespace CombatTrials
namespace Script

open Exec (Parallel reading reading_run reading_pure reading_bind run_bind)
open World (Alike)

variable {κ σ τ : Type}

/-- The position of the first case that matches, and the number of the cases when none does. -/
def Case.position (host : Host κ σ) (scope : Scope κ) (subject : Option (Value κ)) :
    List Case → Run σ Nat
  | [] => pure 0
  | .matching conditions _ :: rest => do
    let hit ← anyMatches host scope subject conditions
    if hit then pure 0
    else do
      let n ← Case.position host scope subject rest
      pure (n + 1)
  | .default _ :: _ => pure 0

/-- The subject of a switch, and the position of the case that it selects. -/
def select (host : Host κ σ) (scope : Scope κ) (subject : Option Expression) (cases : List Case) :
    Run σ (Option (Value κ) × Nat) := do
  let v ← evaluateSubject host scope subject
  let n ← Case.position host scope v cases
  pure (v, n)

/-- Executes the case at a position. -/
def Case.executeAt (world : World κ σ) (cases : List Case) (v : Option (Value κ)) (n : Nat) :
    Exec κ σ Unit :=
  match cases[n]? with
  | some c => c.body.executeIn world
  | none => throw (.noMatchingCase (subjectText v))

/-! ## Execution by selection

Going through the cases mixes looking for one with executing it. Here the two are taken apart. -/

/-- Going through the cases and executing the first that matches is finding its position and
executing what stands there. By induction on the cases: a case that does not match moves the
position by one and what is found stays. -/
theorem Case.executeFirstIn_eq (world : World κ σ) (v : Option (Value κ)) (cases : List Case) :
    Case.executeFirstIn world v cases =
      reading (fun scope => Case.position world.host scope v cases) >>=
        Case.executeAt world cases v := by
  induction cases with
  | nil =>
    simp only [Case.executeFirstIn, Case.position, reading_pure, pure_bind]
    rfl
  | cons c rest ih =>
    cases c with
    | default body =>
      simp only [Case.executeFirstIn, Case.position, reading_pure, pure_bind]
      rfl
    | matching conditions body =>
      simp only [Case.executeFirstIn, Case.position, reading_bind, bind_assoc]
      congr 1
      funext hit
      -- a match is at position zero of what is left, and a miss is one position more of the rest
      cases hit with
      | true =>
        simp only [if_true, reading_pure, pure_bind]
        rfl
      | false =>
        simp only [Bool.false_eq_true, if_false, reading_bind, reading_pure, bind_assoc,
          pure_bind, ih]
        rfl

/-- Selection in its two steps. -/
theorem reading_select (host : Host κ σ) (subject : Option Expression) (cases : List Case) :
    (reading fun scope => select host scope subject cases) =
      (do
        let v ← reading fun scope => evaluateSubject host scope subject
        let n ← reading fun scope => Case.position host scope v cases
        pure (v, n)) := by
  simp only [select, reading_bind, reading_pure]

/-- **A switch is selection and then the case at the position.** -/
theorem Statement.executeIn_switch (world : World κ σ) (subject : Option Expression)
    (cases : List Case) :
    (Statement.switch subject cases).executeIn world =
      (reading fun scope => select world.host scope subject cases) >>= fun (v, n) =>
        Case.executeAt world cases v n := by
  simp only [Statement.executeIn, Case.executeFirstIn_eq, reading_select, bind_assoc, pure_bind]

namespace World.Alike

variable {reads binds : String → Prop} {R : Scope κ × σ → Scope κ × τ → Prop} {world : World κ σ}
  {world' : World κ τ}

theorem position (h : Alike reads binds R world world') (v : Option (Value κ)) {cases : List Case}
    (hreads : ∀ x ∈ Case.identifiersAll cases, reads x) :
    Parallel R R (reading fun scope => Case.position world.host scope v cases)
      (reading fun scope => Case.position world'.host scope v cases) := by
  induction cases with
  | nil => exact .pure _
  | cons c rest ih =>
    cases c with
    | default body => exact .pure _
    | matching conditions body =>
      obtain ⟨hconditions, hbodies⟩ := List.forall_mem_append.mp hreads
      obtain ⟨-, hrest⟩ := List.forall_mem_append.mp hbodies
      simp only [Case.position, reading_bind]
      refine (h.anyMatches v hconditions).andThen fun hit => ?_
      cases hit with
      | true => exact .pure _
      | false =>
        simp only [Bool.false_eq_true, if_false, reading_bind]
        exact (ih hrest).andThen fun n => .pure _

theorem select (h : Alike reads binds R world world') {subject : Option Expression}
    {cases : List Case} (hsubject : ∀ e ∈ subject, ∀ x ∈ e.identifiers, reads x)
    (hcases : ∀ x ∈ Case.identifiersAll cases, reads x) :
    Parallel R R (reading fun scope => Script.select world.host scope subject cases)
      (reading fun scope => Script.select world'.host scope subject cases) := by
  simp only [reading_select]
  refine (h.evaluateSubject subject hsubject).andThen fun v => ?_
  exact (h.position v hcases).andThen fun n => .pure _

end World.Alike

/-- The cases with a default behind them that does nothing. -/
def Case.closed (cases : List Case) : List Case := cases ++ [.default (.block [])]

section Closing

variable (subject : Option Expression) (cases : List Case)

variable {host : Host κ σ} {scope : Scope κ} {state : σ}

end Closing
end Script
end CombatTrials
