import CombatTrials.Proofs.Script.Evaluations

/-!
# Plain data

Numbers and booleans are plain: they are what they are, wherever they are copied to. Objects are
not, because they are shared by all who hold them, and calling one may do something.

A script cannot make an object. Its literals are plain, and so is whatever its operators yield; an
attribute comes from an object, and the answer of a function from a function. So a script that
starts with plain variables never has anything else in hand (`upholds_plain`): the variables stay
plain, and each of its calls, which would call a number or a boolean, fails.
-/

namespace CombatTrials
namespace Script

open Exec (Keeps reading)
open World (Upholds)

variable {κ σ : Type}

/-- Numbers and booleans. -/
def Value.isPlain : Value κ → Bool
  | .number _ | .boolean _ => true
  | .object _ _ => false

/-- Every variable is bound to plain data. -/
def Scope.Plain (scope : Scope κ) : Prop := ∀ x v, scope.find? x = some v → v.isPlain = true

theorem Scope.plain_empty : Scope.Plain ({} : Scope κ) := by
  intro x v h
  cases h

/-- Binding a variable to plain data keeps a scope plain. -/
theorem Scope.Plain.set {scope : Scope κ} (h : scope.Plain) (x : String) {v : Value κ}
    (hv : v.isPlain = true) : (scope.set x v).Plain := by
  intro y w hw
  rcases eq_or_find?_of_find?_set hw with rfl | hbefore
  · exact hv
  · exact h y w hbefore

/-- Plain data has no attributes, so an access fails before anything is found. -/
theorem Value.getAttribute_of_plain {v : Value κ} (h : v.isPlain = true) (name : String) :
    v.getAttribute name = .error (.noAttribute v.typeName name) := by
  cases v with
  | number | boolean => rfl
  | object => cases h

theorem Value.invoke_of_plain {v : Value κ} (h : v.isPlain = true) (host : Host κ σ)
    (args : List (Value κ)) : v.invoke host args = throw (.notCallable v.typeName) := by
  cases v with
  | number | boolean => rfl
  | object => cases h

/-- Plain variables stay so in every world that binds a variable and does nothing else that
matters. -/
theorem upholds_plain {world : World κ σ} {J : σ → Prop}
    (hbind : ∀ x v, v.isPlain = true →
      Keeps (fun p => p.1.Plain ∧ J p.2) (fun _ => True) (fun _ _ => True) (world.bind x v)) :
    Upholds (fun _ => True) (fun _ => True) (fun p => p.1.Plain ∧ J p.2) (·.isPlain = true)
      (fun _ _ => True) world where
  number _ := rfl
  boolean _ := rfl
  mismatch _ _ _ _ := trivial
  get x _ := .get (fun _ v hp hv => hp.1 x v hv) fun _ _ _ => trivial
  access _ name _ v hv := by
    rw [Value.getAttribute_of_plain hv]
    exact .ofExcept (by simp) fun _ _ _ _ => trivial
  invoke _ _ _ f vs hf _ := by
    rw [Value.invoke_of_plain hf]
    exact .throw fun _ _ => trivial
  bind x _ _ v hv := hbind x v hv
  unmatched _ _ _ _ _ _ _ := trivial

theorem plain_upholds_plain (host : Host κ σ) (state : σ) :
    Upholds (fun _ => True) (fun _ => True) (fun p => p.1.Plain ∧ p.2 = state) (·.isPlain = true)
      (fun _ _ => True) (World.plain host) := by
  refine upholds_plain (J := (· = state)) fun x v hv p hp => ?_
  exact ⟨trivial, hp.1.set x hv, hp.2⟩

theorem noted_upholds_plain (host : Host κ σ) (state : σ) :
    Upholds (fun _ => True) (fun _ => True)
      (fun p : Noted κ σ => p.1.Plain ∧ p.2.1 = state ∧ Effect.calls p.2.2 = []) (·.isPlain = true)
      (fun _ _ => True) (World.noted host) := by
  refine upholds_plain (J := fun p : σ × List (Effect κ) => p.1 = state ∧ Effect.calls p.2 = [])
    fun x v hv p hp => ?_
  obtain ⟨scope, now, effects⟩ := p
  obtain ⟨hplain, hstate, hcalls⟩ := hp
  rw [World.noted_bind_run]
  refine ⟨trivial, hplain.set x hv, hstate, ?_⟩
  simpa using hcalls

/-! ## Scripts on plain variables

For a script that starts out with plain data, nothing that it evaluates is ever more than that. -/

variable {host : Host κ σ} {scope : Scope κ} {state : σ}

/-- However a script on plain variables ends, they are still plain and nothing was called. -/
theorem Statement.account_of_plain (host : Host κ σ) (s : Statement) (state : σ) (h : scope.Plain) :
    let run := s.account host scope state
    run.scope.Plain ∧ run.state = state ∧ run.calls = [] := by
  have hstart : scope.Plain ∧ state = state ∧ Effect.calls ([] : List (Effect κ)) = [] :=
    ⟨h, rfl, rfl⟩
  exact (account_ended (noted_upholds_plain host state) (fun _ _ => trivial)
    (fun _ _ => trivial) hstart).invariant

variable {p q : Scope κ × σ}

theorem Statement.Evaluates.plain {s : Statement} {e : Expression}
    (h : s.Evaluates host (scope, state) e q) (hplain : scope.Plain) : q.1.Plain ∧ q.2 = state :=
  h.invariant (plain_upholds_plain host state) ⟨hplain, rfl⟩

/-- What an expression yields where the variables are plain. -/
theorem Expression.isPlain_of_run {e : Expression} {v : Value κ} (hplain : p.1.Plain)
    (h : (e.step host).run.run p = (.ok v, q)) : v.isPlain = true :=
  (Keeps.of_run (e.keeps_step (plain_upholds_plain host p.2)) ⟨hplain, rfl⟩ h).1

/-- A call on plain variables fails: in its callee, in its arguments, or because the callee is no
function. -/
theorem Expression.exists_error_of_call (host : Host κ σ) (callee : Expression)
    (args : List Expression) (hplain : p.1.Plain) :
    ∃ e q, ((Expression.call callee args).step host).run.run p = (.error e, q) := by
  rcases hcall : ((Expression.call callee args).step host).run.run p with ⟨e | v, q⟩
  · exact ⟨e, q, rfl⟩
  · -- it cannot end in a value: by the time it is made, what is called is plain
    simp only [step, evaluate, Exec.reading_bind] at hcall
    obtain ⟨f, r, hcallee, hcall⟩ := Exec.exists_of_bind_run hcall
    obtain ⟨vs, t, hargs, hcall⟩ := Exec.exists_of_bind_run hcall
    rw [Value.invoke_of_plain (isPlain_of_run hplain hcallee)] at hcall
    cases hcall

end Script
end CombatTrials
