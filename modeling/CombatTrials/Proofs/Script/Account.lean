import CombatTrials.Proofs.Script.World

/-!
# What a run does

A run can be told by how it ends, and by what it does on the way: the functions that it calls and
the variables that it binds, one after the other. Its `Account` has both. How it ends is taken from
the evaluator as it is. What it does is read from the notes of a world that runs the same host and
writes down every call and every assignment besides, and `account_run` says that the two do not
drift apart: a run in that world ends as its account does.

So runs are compared there, and what holds of where they end holds of their accounts.
-/

namespace CombatTrials
namespace Script

open Exec (Parallel reading)
open World (Alike)

variable {κ σ α : Type}

/-- What is done in a run. -/
inductive Effect (κ : Type) where
  /-- A function of the host is called, with a number of arguments that its arity allows. -/
  | call (function : Native κ) (args : List (Value κ))
  /-- A variable is bound. -/
  | assign (name : String) (value : Value κ)

namespace Effect

/-- The call that an effect is, if it is one. -/
def call? : Effect κ → Option (Native κ × List (Value κ))
  | .call f args => some (f, args)
  | .assign _ _ => none

/-- The variable that an effect binds, if it binds one. -/
def target? : Effect κ → Option String
  | .call _ _ => none
  | .assign name _ => some name

/-- The calls among effects. -/
def calls (effects : List (Effect κ)) : List (Native κ × List (Value κ)) := effects.filterMap call?

/-- The variables that effects bind. -/
def assigned (effects : List (Effect κ)) : List String := effects.filterMap target?

@[simp] theorem calls_concat_call (effects : List (Effect κ)) (f : Native κ)
    (args : List (Value κ)) : calls (effects ++ [.call f args]) = calls effects ++ [(f, args)] := by
  simp [calls, call?]

@[simp] theorem calls_concat_assign (effects : List (Effect κ)) (name : String) (v : Value κ) :
    calls (effects ++ [.assign name v]) = calls effects := by
  simp [calls, call?]

@[simp] theorem assigned_concat_call (effects : List (Effect κ)) (f : Native κ)
    (args : List (Value κ)) : assigned (effects ++ [.call f args]) = assigned effects := by
  simp [assigned, target?]

@[simp] theorem assigned_concat_assign (effects : List (Effect κ)) (name : String) (v : Value κ) :
    assigned (effects ++ [.assign name v]) = assigned effects ++ [name] := by
  simp [assigned, target?]

end Effect

/-! ## Taking notes

Notes are part of the host's state, so the world that takes them is one more world, and all that is
known of worlds applies to it. -/

/-- Where a run with notes is: its variables, the host's state and the effects so far. -/
abbrev Noted (κ σ : Type) := Scope κ × (σ × List (Effect κ))

/-- The world of a host in which every call and every assignment is noted besides. -/
def World.noted (host : Host κ σ) : World κ (σ × List (Effect κ)) where
  host.call f args := ExceptT.mk fun (state, effects) =>
    let (result, state) := (host.call f args).run.run state
    (result, (state, effects ++ [.call f args]))
  bind name v := ExceptT.mk fun (scope, state, effects) =>
    (.ok (), (scope.set name v, state, effects ++ [.assign name v]))

namespace World

variable (host : Host κ σ) (scope : Scope κ) (state : σ) (effects : List (Effect κ))

/-- A call is made as the host makes it, and is noted whether it fails or not. -/
theorem noted_call_run (f : Native κ) (args : List (Value κ)) :
    (reading fun _ => (noted host).host.call f args).run.run (scope, state, effects) =
      (((host.call f args).run.run state).1,
        (scope, ((host.call f args).run.run state).2, effects ++ [.call f args])) := rfl

theorem noted_bind_run (name : String) (v : Value κ) :
    ((noted host).bind name v).run.run (scope, state, effects) =
      (.ok (), (scope.set name v, state, effects ++ [.assign name v])) := rfl

/-- Where a run is with notes and without. -/
def SameButNotes (s : Scope κ × σ) (t : Noted κ σ) : Prop := s.1 = t.1 ∧ s.2 = t.2.1

theorem plain_alike_noted :
    Alike (fun _ => True) (fun _ => True) SameButNotes (plain host) (noted host) where
  find := by
    rintro s t ⟨hscope, -⟩ x -
    rw [hscope]
  call := by
    rintro f args ⟨_, _⟩ ⟨_, _, _⟩ ⟨rfl, rfl⟩
    exact ⟨rfl, rfl, rfl⟩
  bind := by
    rintro x v - ⟨_, _⟩ ⟨_, _, _⟩ ⟨rfl, rfl⟩
    exact ⟨rfl, rfl, rfl⟩

end World

/-! ## Accounts

The result, the variables and the state come from the evaluator itself and only the effects from the
world with notes. So an account cannot be wrong about how a run ends, whatever the notes are. -/

/-- How a run ends and what it does. -/
structure Account (κ σ α : Type) where
  result : Except Failure α
  scope : Scope κ
  state : σ
  effects : List (Effect κ)

namespace Account

/-- The functions that were called, with their arguments, in the order of the calls. -/
def calls (a : Account κ σ α) : List (Native κ × List (Value κ)) := Effect.calls a.effects

/-- The variables that were bound, in the order in which they were. -/
def assigned (a : Account κ σ α) : List String := Effect.assigned a.effects

/-- Where the run with notes ends. -/
def place (a : Account κ σ α) : Noted κ σ := (a.scope, a.state, a.effects)

/-- An account is how the run with notes ends. -/
theorem ext_place {a b : Account κ σ α} (h : (a.result, a.place) = (b.result, b.place)) :
    a = b := by
  obtain ⟨result, scope, state, effects⟩ := a
  obtain ⟨result', scope', state', effects'⟩ := b
  cases h
  rfl

/-- The account of a computation that is given without notes and with them. -/
def ofRuns (plain : Exec κ σ α) (noted : Exec κ (σ × List (Effect κ)) α) (scope : Scope κ)
    (state : σ) : Account κ σ α :=
  let (result, scope', state') := plain.run.run (scope, state)
  ⟨result, scope', state', (noted.run.run (scope, state, [])).2.2.2⟩

variable {plain plain' : Exec κ σ α} {noted noted' : Exec κ (σ × List (Effect κ)) α}

/-- A computation with notes ends as its account does. -/
theorem ofRuns_run (h : Parallel World.SameButNotes World.SameButNotes plain noted)
    (scope : Scope κ) (state : σ) :
    noted.run.run (scope, state, []) =
      ((ofRuns plain noted scope state).result, (ofRuns plain noted scope state).place) := by
  obtain ⟨hresult, hscope, hstate⟩ := h (scope, state) (scope, state, []) ⟨rfl, rfl⟩
  exact Prod.ext hresult.symm (Prod.ext hscope.symm (Prod.ext hstate.symm rfl))

/-- What relates the ends of two computations with notes relates their accounts. -/
theorem of_parallel {P Q : Noted κ σ → Noted κ σ → Prop}
    (hnoted : Parallel World.SameButNotes World.SameButNotes plain noted)
    (hnoted' : Parallel World.SameButNotes World.SameButNotes plain' noted')
    (h : Parallel P Q noted noted') {scope scope' : Scope κ} {state : σ}
    (hstart : P (scope, state, []) (scope', state, [])) :
    (ofRuns plain noted scope state).result = (ofRuns plain' noted' scope' state).result ∧
      Q (ofRuns plain noted scope state).place (ofRuns plain' noted' scope' state).place := by
  have hends := h _ _ hstart
  rwa [ofRuns_run hnoted, ofRuns_run hnoted'] at hends

end Account

/-- The account of a statement, executed with some variables bound and from some state of the
host. -/
def Statement.account (host : Host κ σ) (s : Statement) : Scope κ → σ → Account κ σ Unit :=
  Account.ofRuns (s.execute host) (s.executeIn (.noted host))

/-- The account of an expression, evaluated with some variables bound and from some state of the
host. -/
def Expression.account (host : Host κ σ) (e : Expression) : Scope κ → σ → Account κ σ (Value κ) :=
  Account.ofRuns (reading fun scope => e.evaluate host scope)
    (reading fun scope => e.evaluate (World.noted host).host scope)

/-! ## Runs and their accounts

Both halves of an account belong to one run. This is what the two worlds being alike comes to. -/

variable (host : Host κ σ)

theorem Statement.parallel_noted (s : Statement) :
    Parallel World.SameButNotes World.SameButNotes
      (s.execute host) (s.executeIn (.noted host)) := by
  have h := (World.plain_alike_noted host).execute s (fun _ _ => trivial) (fun _ _ => trivial)
  rwa [Statement.executeIn_plain] at h

theorem Expression.parallel_noted (e : Expression) :
    Parallel World.SameButNotes World.SameButNotes (reading fun scope => e.evaluate host scope)
      (reading fun scope => e.evaluate (World.noted host).host scope) :=
  (World.plain_alike_noted host).evaluate e fun _ _ => trivial

/-- **The world with notes ends as the account does**, so whatever is proved of that world is read
off accounts. -/
theorem Statement.account_run (s : Statement) (scope : Scope κ) (state : σ) :
    (s.executeIn (.noted host)).run.run (scope, state, []) =
      ((s.account host scope state).result, (s.account host scope state).place) :=
  Account.ofRuns_run (s.parallel_noted host) scope state

/-! ## The calls as the host sees them

The notes on calls are not only the world's word. A host may keep a list of the calls it gets in its
own state, and the evaluator run against that host leaves the same list there. -/

/-- Where two runs are that have made the same calls, whatever else is noted. -/
def World.SameCalls (s t : Noted κ σ) : Prop :=
  s.1 = t.1 ∧ s.2.1 = t.2.1 ∧ Effect.calls s.2.2 = Effect.calls t.2.2

/-- A host that writes its calls down itself makes the calls that a world notes for it. -/
theorem World.plain_alike_noted_calls :
    Alike (fun _ => True) (fun _ => True) SameCalls (plain (noted host).host) (noted host) where
  find := by
    rintro s t ⟨hscope, -⟩ x -
    rw [hscope]
  call := by
    rintro f args ⟨scope, state, effects⟩ ⟨_, _, effects'⟩ ⟨rfl, rfl, hcalls⟩
    refine ⟨rfl, rfl, rfl, ?_⟩
    show Effect.calls (effects ++ [.call f args]) = Effect.calls (effects' ++ [.call f args])
    rw [Effect.calls_concat_call, Effect.calls_concat_call]
    exact congrArg (· ++ [(f, args)]) hcalls
  -- one of the two does not note assignments, which are no calls
  bind := by
    rintro x v - ⟨scope, state, effects⟩ ⟨_, _, effects'⟩ ⟨rfl, rfl, hcalls⟩
    refine ⟨rfl, rfl, rfl, ?_⟩
    rw [noted_bind_run, Effect.calls_concat_assign]
    exact hcalls

/-- The calls of an account are those that the evaluator makes to a host that writes them down. -/
theorem Statement.calls_account (s : Statement) (scope : Scope κ) (state : σ) :
    (s.account host scope state).calls =
      Effect.calls ((s.execute (World.noted host).host).run.run (scope, state, [])).2.2.2 := by
  have h := (World.plain_alike_noted_calls host).execute s (fun _ _ => trivial) (fun _ _ => trivial)
  obtain ⟨-, -, -, hcalls⟩ := h (scope, state, []) (scope, state, []) ⟨rfl, rfl, rfl⟩
  rw [Statement.executeIn_plain, account_run] at hcalls
  exact hcalls.symm

end Script
end CombatTrials
