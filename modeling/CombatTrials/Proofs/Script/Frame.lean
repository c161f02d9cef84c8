import CombatTrials.Fixture.Probe
import CombatTrials.Proofs.Script.Cases
import CombatTrials.Proofs.Script.Invariant

/-!
# What an execution leaves alone

The variables at the end of a run, of one that fails part-way too, are those from the start with the
assignments that were made, one after the other (`Effect.replay`), and all of these are assignments
of the script. So a variable that the script does not assign stays as it is, bound or not, and one
that is bound stays bound.

An assignment that fails is not made. `Statement.Reaches` says of a statement in a script that a run
comes to execute it, and from which place. When it fails there, the run ends there
(`Reaches.run_eq_of_error`): so a run that ends in a failing assignment leaves the variables as they
were just before it.
-/

namespace CombatTrials
namespace Script

open Exec (Keeps reading reading_run run_bind)
open World (Upholds)

variable {κ σ : Type}

/-! ## Assignments, one after the other

The assignments of a run are known from its account. Replaying them is how the frame is stated: it
gives every variable at the end, and not only those that did not change. -/

namespace Effect

/-- The variables after an effect, of which only assignments change any. -/
def apply (scope : Scope κ) : Effect κ → Scope κ
  | .call _ _ => scope
  | .assign name v => scope.set name v

/-- The variables after the assignments among effects. -/
def replay (scope : Scope κ) (effects : List (Effect κ)) : Scope κ := effects.foldl apply scope

theorem replay_concat (scope : Scope κ) (effects : List (Effect κ)) (e : Effect κ) :
    replay scope (effects ++ [e]) = apply (replay scope effects) e := by
  simp only [replay, List.foldl_append, List.foldl_cons, List.foldl_nil]

theorem find?_replay {x : String} {effects : List (Effect κ)} (scope : Scope κ)
    (h : x ∉ assigned effects) : (replay scope effects).find? x = scope.find? x := by
  induction effects generalizing scope with
  | nil => rfl
  | cons e rest ih =>
    cases e with
    | call f args => exact ih scope h
    | assign name v =>
      obtain ⟨hne, hrest⟩ :=
        not_or.mp (List.mem_cons.not.mp (show x ∉ name :: assigned rest from h))
      exact (ih (scope.set name v) hrest).trans (Scope.find?_set_ne hne scope v)

/-- A variable that is bound stays bound, whatever is assigned. -/
theorem contains_replay {x : String} (effects : List (Effect κ)) {scope : Scope κ}
    (h : scope.contains x) : (replay scope effects).contains x := by
  induction effects generalizing scope with
  | nil => exact h
  | cons e rest ih =>
    cases e with
    | call f args => exact ih h
    | assign name v =>
      refine ih (?_ : (scope.set name v).contains x)
      -- bound now, or bound before and not touched
      rcases eq_or_ne x name with rfl | hne
      · rw [Scope.contains, Scope.find?_set_self]
        rfl
      · rwa [Scope.contains, Scope.find?_set_ne hne]

end Effect

/-- A run so far has changed the variables by assignments of the script and by nothing else. -/
def Replayed (s : Statement) (scope : Scope κ) (p : Noted κ σ) : Prop :=
  p.1 = Effect.replay scope p.2.2 ∧ ∀ x ∈ Effect.assigned p.2.2, x ∈ s.targets

/-- Whatever a script does, its variables are those of a replay. Only assignments bind anything, and
the targets of those that are made stand in the script. -/
theorem noted_upholds_replayed (host : Host κ σ) (s : Statement) (scope : Scope κ) :
    Upholds (fun _ => True) (· ∈ s.nodes) (Replayed s scope) (fun _ => True) (fun _ _ => True)
      (World.noted host) where
  number _ := trivial
  boolean _ := trivial
  mismatch _ _ _ _ := trivial
  get x _ := by
    rintro ⟨scope', state, effects⟩ hp
    show Exec.Ended _ _ _ (scope'.get x, (scope', state, effects))
    cases scope'.get x <;> exact ⟨trivial, hp⟩
  access _ _ _ _ _ := .ofExcept (fun _ _ => trivial) fun _ _ _ _ => trivial
  -- a call is an effect as well, and replaying it binds nothing
  invoke _ _ _ _ vs _ _ := by
    refine .invoke (fun _ f _ => ?_) (fun _ _ _ => trivial) fun _ _ _ _ _ => trivial
    rintro ⟨scope', state, effects⟩ ⟨hscope, htargets⟩
    rw [World.noted_call_run]
    have hreplayed :
        Replayed s scope (scope', ((host.call f vs).run.run state).2, effects ++ [.call f vs]) :=
      ⟨by rw [Effect.replay_concat]; exact hscope, by simpa using htargets⟩
    cases ((host.call f vs).run.run state).1 <;> exact ⟨trivial, hreplayed⟩
  bind x e hnode v _ := by
    rintro ⟨scope', state, effects⟩ ⟨hscope, htargets⟩
    rw [World.noted_bind_run]
    refine ⟨trivial, ?_, ?_⟩
    · rw [Effect.replay_concat, ← hscope]
      rfl
    · rw [Effect.assigned_concat_assign]
      exact List.forall_mem_append.mpr ⟨htargets, by simpa using s.mem_targets hnode⟩
  unmatched _ _ _ _ _ _ _ := trivial

theorem Statement.account_replayed (host : Host κ σ) (s : Statement) (scope : Scope κ) (state : σ) :
    Replayed s scope (s.account host scope state).place :=
  (account_ended (noted_upholds_replayed host s scope) (fun _ _ => trivial) (fun _ ht => ht)
    ⟨rfl, by simp [Effect.assigned]⟩).invariant

/-! ## Statements that a run comes to execute

An assignment that fails may stand anywhere in a script, and has to be found there by the run that
comes to it. So there is one rule for each way into a statement. -/

/-- The execution of a statement from one place comes to execute a statement in it, from another
place. -/
inductive Statement.Reaches (host : Host κ σ) :
    Statement → Scope κ × σ → Statement → Scope κ × σ → Prop
  | self (s : Statement) (p : Scope κ × σ) : Reaches host s p s p
  | block {before after : List Statement} {s t : Statement} {p q r : Scope κ × σ}
      (hbefore : (Statement.executeAll host before).run.run p = (.ok (), q))
      (h : Reaches host s q t r) : Reaches host (.block (before ++ s :: after)) p t r
  | thenDo {condition : Expression} {s t : Statement} {otherwise : Option Statement}
      {p q r : Scope κ × σ}
      (htrue : (reading fun scope => evaluateCondition host scope condition).run.run p =
        (.ok true, q))
      (h : Reaches host s q t r) : Reaches host (.branch condition s otherwise) p t r
  | otherwise {condition : Expression} {thenDo s t : Statement} {p q r : Scope κ × σ}
      (hfalse : (reading fun scope => evaluateCondition host scope condition).run.run p =
        (.ok false, q))
      (h : Reaches host s q t r) : Reaches host (.branch condition thenDo (some s)) p t r
  | case {subject : Option Expression} {cases : List Case} {t : Statement} {v : Option (Value κ)}
      {n : Nat} {c : Case} {p q r : Scope κ × σ}
      (hselect : (reading fun scope => select host scope subject cases).run.run p = (.ok (v, n), q))
      (hget : cases[n]? = some c) (h : Reaches host c.body q t r) :
      Reaches host (.switch subject cases) p t r

/-- A failure of a statement that is reached ends the whole run, and where it fails the run ends. -/
theorem Statement.Reaches.run_eq_of_error {host : Host κ σ} {s t : Statement} {p q r : Scope κ × σ}
    {e : Failure} (h : s.Reaches host p t q) (hfail : (t.execute host).run.run q = (.error e, r)) :
    (s.execute host).run.run p = (.error e, r) := by
  induction h with
  | self => exact hfail
  | @block before after s _ p q _ hbefore _ ih =>
    replace ih := ih hfail
    simp only [← executeIn_plain, ← executeAllIn_plain] at hbefore ih ⊢
    -- what stands behind the failing statement is not executed
    simp only [executeIn, executeAllIn_append, executeAllIn, run_bind, hbefore, ih]
  | @thenDo _ _ _ otherwise _ _ _ htrue _ ih =>
    cases otherwise with
    | none => simp only [execute, run_bind, htrue, if_true, ih hfail]
    | some => simp only [execute, run_bind, htrue, if_true, ih hfail]
  | otherwise hfalse _ ih =>
    simp only [execute, run_bind, hfalse, Bool.false_eq_true, if_false, ih hfail]
  | case hselect hget _ ih =>
    replace ih := ih hfail
    rw [← executeIn_plain] at ih ⊢
    rw [executeIn_switch, run_bind, show (World.plain host).host = host from rfl, hselect]
    simpa only [Case.executeAt, hget] using ih

/-- An assignment that fails leaves the variables as they are. -/
theorem Statement.scope_of_assign_error {host : Host κ σ} {name : String} {value : Expression}
    {p q : Scope κ × σ} {e : Failure}
    (h : ((Statement.assign name value).execute host).run.run p = (.error e, q)) : q.1 = p.1 := by
  obtain ⟨scope, state⟩ := p
  simp only [execute, run_bind, reading_run] at h
  -- a value would have been bound, so it is the value that failed
  rcases hvalue : (value.evaluate host scope).run.run state with ⟨_ | v, state'⟩
  · rw [hvalue] at h
    cases h
    rfl
  · rw [hvalue] at h
    cases h

/-! ## The frame

All clauses for statements come from the replay, but for the one on failing assignments, which is a
matter of where the run ended. -/

/-- **The frame of execution.** Whatever a statement does and however it ends, the variables are
afterwards those from the start with the assignments that were made, all of them to targets of the
statement. So a variable that it does not assign has the value that it had, or none as before, and
no variable is unbound. When the run comes to an assignment that fails, it ends in that failure with
the variables, the target among them, as they were just before. Evaluating an expression and
selecting the case of a switch change none. -/
theorem execution_keeps_frame (host : Host κ σ) (scope : Scope κ) (state : σ) :
    (∀ s : Statement,
      let run := s.account host scope state
      run.scope = Effect.replay scope run.effects ∧ (∀ x ∈ run.assigned, x ∈ s.targets) ∧
      (∀ x, x ∉ s.targets → run.scope.find? x = scope.find? x) ∧
      (∀ x, scope.contains x → run.scope.contains x) ∧
      ∀ name value p e, s.Reaches host (scope, state) (.assign name value) p →
        ((Statement.assign name value).account host p.1 p.2).result = .error e →
        run.result = .error e ∧ run.scope = p.1) ∧
    (∀ e : Expression, (e.account host scope state).scope = scope) ∧
    ∀ (subject : Option Expression) (cases : List Case),
      ((reading fun scope => select host scope subject cases).run.run (scope, state)).2.1 =
        scope := by
  refine ⟨fun s => ?_, fun e => rfl, fun subject cases => rfl⟩
  intro run
  obtain ⟨hreplay, htargets⟩ := s.account_replayed host scope state
  replace hreplay : run.scope = Effect.replay scope run.effects := hreplay
  refine ⟨hreplay, htargets, fun x hx => ?_, fun x hx => ?_, fun name value p e hreach hfail => ?_⟩
  · rw [hreplay]
    exact Effect.find?_replay scope fun hm => hx (htargets x hm)
  · rw [hreplay]
    exact Effect.contains_replay run.effects hx
  · have hends : ((Statement.assign name value).execute host).run.run p =
        (.error e, (((Statement.assign name value).execute host).run.run p).2) := Prod.ext hfail rfl
    have hrun := hreach.run_eq_of_error hends
    have hresult : run.result = .error e := congrArg Prod.fst hrun
    have hscope : run.scope = (((Statement.assign name value).execute host).run.run p).2.1 :=
      congrArg (fun r => r.2.1) hrun
    exact ⟨hresult, hscope.trans (Statement.scope_of_assign_error hends)⟩

/-- Sets `x`, and then fails to set it again, in a branch of a case. -/
def overwriting : Statement :=
  .block [.assign "x" (.number 2),
    .switch (some (.identifier "x")) [.matching [.number 1] (.block []),
      .default (.branch (.boolean true) (.assign "x" (.identifier "z")) none)],
    .assign "y" (.number 3)]

/-- Three variables, of which the script assigns the last two. -/
def drafted : Scope Fixture.Probe :=
  .ofList [("u", .boolean true), ("x", .number 1), ("y", .number 0)]

theorem execution_keeps_frame_in_overwriting :
    let run := overwriting.account Fixture.Probe.host drafted []
    let before := (drafted.set "x" (.number 2), ([] : List Fixture.Note))
    ("u" ∉ overwriting.targets ∧ run.scope.find? "u" = some (.boolean true)) ∧
      (drafted.contains "y" ∧ run.scope.contains "y") ∧
      overwriting.Reaches Fixture.Probe.host (drafted, []) (.assign "x" (.identifier "z")) before ∧
      ((Statement.assign "x" (.identifier "z")).account Fixture.Probe.host
        before.1 before.2).result = .error (.undefinedName "z") ∧
      run.result = .error (.undefinedName "z") ∧ run.scope = before.1 := by
  intro run before
  obtain ⟨-, -, hframe, hbound, hassign⟩ :=
    (execution_keeps_frame Fixture.Probe.host drafted []).1 overwriting
  have hu : "u" ∉ overwriting.targets := by decide
  have hfirst :
      (Statement.executeAll Fixture.Probe.host [.assign "x" (.number 2)]).run.run (drafted, []) =
        (.ok (), before) := rfl
  have hreach :
      overwriting.Reaches Fixture.Probe.host (drafted, []) (.assign "x" (.identifier "z")) before :=
    .block hfirst
      (.case (v := some (.number 2)) (n := 1) (q := before) rfl rfl
        (.thenDo (q := before) rfl (.self _ _)))
  have hfail :
      ((Statement.assign "x" (.identifier "z")).account Fixture.Probe.host
        before.1 before.2).result = .error (.undefinedName "z") := rfl
  obtain ⟨hresult, hscope⟩ := hassign "x" _ before _ hreach hfail
  exact ⟨⟨hu, hframe "u" hu⟩, ⟨by decide, hbound "y" (by decide)⟩, hreach, hfail, hresult, hscope⟩

end Script
end CombatTrials
