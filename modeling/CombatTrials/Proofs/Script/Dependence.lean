import CombatTrials.Fixture.Probe
import CombatTrials.Proofs.Script.Account

/-!
# Which variables a script depends on

Two runs of one script start with different variables, of which those that the script mentions have
one value. Then they go on in step: they have done the same, and they agree on the names that the
script mentions and on every name bound since the start, whether it is mentioned or not (`InStep`).
A name that is bound in the course of the runs is bound in both, and to one value, because both have
evaluated the same expression in step.

Nothing is asked of the host. What a function does may depend on its arguments and on the host's
state, and both are the same in runs that are in step.
-/

namespace CombatTrials
namespace Script

open Exec (Parallel)
open World (Alike)

variable {κ σ : Type}

/-- Where two runs are that have done the same. They agree on the names that are mentioned and on
those bound since the start. -/
def InStep (mentioned : String → Prop) (s t : Noted κ σ) : Prop :=
  s.2 = t.2 ∧ ∀ x, mentioned x ∨ x ∈ Effect.assigned s.2.2 → s.1.find? x = t.1.find? x

/-- Nothing has been done at the start, so scopes that agree on what is mentioned are in step. -/
theorem inStep_start {mentioned : String → Prop} {scope scope' : Scope κ} (state : σ)
    (h : ∀ x, mentioned x → scope.find? x = scope'.find? x) :
    InStep mentioned (scope, state, []) (scope', state, []) := by
  refine ⟨rfl, ?_⟩
  rintro x (hx | hx)
  · exact h x hx
  · exact absurd hx List.not_mem_nil

/-- A call is noted in both runs and binds nothing. -/
theorem InStep.call {mentioned : String → Prop} {scope scope' : Scope κ} {state state' : σ}
    {effects effects' : List (Effect κ)}
    (h : InStep mentioned (scope, state, effects) (scope', state', effects'))
    (f : Native κ) (args : List (Value κ)) (next : σ) :
    InStep mentioned (scope, next, effects ++ [.call f args])
      (scope', next, effects' ++ [.call f args]) := by
  obtain ⟨hdone, hsee⟩ := h
  cases hdone
  refine ⟨rfl, fun x hx => hsee x ?_⟩
  simpa using hx

/-- A variable that is bound in both runs is one on which they agree from then on. -/
theorem InStep.assign {mentioned : String → Prop} {scope scope' : Scope κ} {state state' : σ}
    {effects effects' : List (Effect κ)}
    (h : InStep mentioned (scope, state, effects) (scope', state', effects'))
    (name : String) (v : Value κ) :
    InStep mentioned (scope.set name v, state, effects ++ [.assign name v])
      (scope'.set name v, state', effects' ++ [.assign name v]) := by
  obtain ⟨hdone, hsee⟩ := h
  cases hdone
  refine ⟨rfl, fun x hx => Scope.find?_set_congr v fun hne => hsee x ?_⟩
  simpa [hne] using hx

/-- Runs that are in step cannot be told apart by a script that looks at nothing else than what is
mentioned. -/
theorem World.noted_alike_inStep (host : Host κ σ) (mentioned : String → Prop) :
    Alike mentioned (fun _ => True) (InStep mentioned) (noted host) (noted host) where
  find s t h x hx := h.2 x (.inl hx)
  call := by
    rintro f args ⟨scope, state, effects⟩ ⟨scope', state', effects'⟩ h
    have hstate : state = state' := congrArg Prod.fst h.1
    subst hstate
    rw [noted_call_run, noted_call_run]
    exact ⟨rfl, h.call f args _⟩
  bind := by
    rintro x v - ⟨scope, state, effects⟩ ⟨scope', state', effects'⟩ h
    rw [noted_bind_run, noted_bind_run]
    exact ⟨rfl, h.assign x v⟩

variable {scope scope' : Scope κ}

/-- The two accounts of a statement: one result, and places that are in step. -/
theorem Statement.account_of_agree (host : Host κ σ) (state : σ) {s : Statement}
    (h : ∀ x ∈ s.identifiers, scope.find? x = scope'.find? x) :
    (s.account host scope state).result = (s.account host scope' state).result ∧
      InStep (· ∈ s.identifiers)
        (s.account host scope state).place (s.account host scope' state).place := by
  have halike := World.noted_alike_inStep host (· ∈ s.identifiers)
  have hruns := halike.execute s (fun x hx => hx) (fun _ _ => trivial)
  exact Account.of_parallel (s.parallel_noted host) (s.parallel_noted host) hruns
    (inStep_start state h)

theorem Expression.account_of_agree (host : Host κ σ) (state : σ) {e : Expression}
    (h : ∀ x ∈ e.identifiers, scope.find? x = scope'.find? x) :
    (e.account host scope state).result = (e.account host scope' state).result ∧
      InStep (· ∈ e.identifiers)
        (e.account host scope state).place (e.account host scope' state).place := by
  have halike := World.noted_alike_inStep host (· ∈ e.identifiers)
  have hruns := halike.evaluate e fun x hx => hx
  exact Account.of_parallel (e.parallel_noted host) (e.parallel_noted host) hruns
    (inStep_start state h)

/-- **A script depends only on the variables that it mentions.** Two scopes that give the
identifiers of a statement the same values, or leave them unbound alike, lead it to the same result,
to the same calls and assignments in the same order and to the same state of the host. Afterwards
they agree on these identifiers and on every variable that was assigned. So it is with expressions,
which assign nothing. -/
theorem depends_only_on_mentioned (host : Host κ σ) (scope scope' : Scope κ) (state : σ) :
    (∀ s : Statement, (∀ x ∈ s.identifiers, scope.find? x = scope'.find? x) →
      let run := s.account host scope state
      let run' := s.account host scope' state
      run.result = run'.result ∧ run.effects = run'.effects ∧ run.state = run'.state ∧
        ∀ x, x ∈ s.identifiers ∨ x ∈ run.assigned → run.scope.find? x = run'.scope.find? x) ∧
    ∀ e : Expression, (∀ x ∈ e.identifiers, scope.find? x = scope'.find? x) →
      let run := e.account host scope state
      let run' := e.account host scope' state
      run.result = run'.result ∧ run.effects = run'.effects ∧ run.state = run'.state ∧
        run.scope = scope ∧ run'.scope = scope' := by
  constructor
  · intro s h
    obtain ⟨hresult, hdone, hsee⟩ := Statement.account_of_agree host state h
    obtain ⟨hstate, heffects⟩ := Prod.ext_iff.mp hdone
    exact ⟨hresult, heffects, hstate, hsee⟩
  · intro e h
    obtain ⟨hresult, hdone, -⟩ := Expression.account_of_agree host state h
    obtain ⟨hstate, heffects⟩ := Prod.ext_iff.mp hdone
    exact ⟨hresult, heffects, hstate, rfl, rfl⟩

/-- Binds `w` to what a probe answers, and then fails because `z` is not bound. -/
def probing : Statement :=
  .block [.assign "w" (.call (.identifier "mark") [.identifier "x"]), .expression (.identifier "z")]

/-- A probe and a number to call it with, beside a variable `y` that is not mentioned. -/
def probed (y : Value Fixture.Probe) : Scope Fixture.Probe :=
  .ofList [("mark", .object 7 (.native ⟨"mark", none, .mark⟩)), ("x", .number 1), ("y", y)]

theorem depends_only_on_mentioned_in_probing :
    let run := probing.account Fixture.Probe.host (probed (.number 2)) []
    let run' := probing.account Fixture.Probe.host (probed (.boolean true)) []
    (∀ x ∈ probing.identifiers, (probed (.number 2)).find? x = (probed (.boolean true)).find? x) ∧
      run.result = .error (.undefinedName "z") ∧
      run.calls = [(⟨"mark", none, .mark⟩, [.number 1])] ∧
      run.assigned = ["w"] ∧ run'.result = run.result ∧ run'.calls = run.calls ∧
      run'.scope.find? "w" = run.scope.find? "w" := by
  intro run run'
  have hagree : ∀ x ∈ probing.identifiers,
      (probed (.number 2)).find? x = (probed (.boolean true)).find? x := by
    intro x hx
    -- three identifiers, none of which is the variable on which the scopes differ
    have hx : x ∈ ["mark", "x", "z"] := hx
    simp only [List.mem_cons, List.not_mem_nil, or_false] at hx
    rcases hx with rfl | rfl | rfl <;> rfl
  obtain ⟨hresult, heffects, -, hsee⟩ :=
    (depends_only_on_mentioned Fixture.Probe.host _ _ []).1 probing hagree
  have hassigned : run.assigned = ["w"] := rfl
  have hw : "w" ∈ run.assigned := hassigned ▸ List.mem_singleton_self "w"
  exact ⟨hagree, rfl, rfl, hassigned, hresult.symm, (congrArg Effect.calls heffects).symm,
    (hsee "w" (.inr hw)).symm⟩

end Script
end CombatTrials
