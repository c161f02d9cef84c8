import CombatTrials.Fixture.Probe
import CombatTrials.Proofs.Script.Invariant

/-!
# Where failures come from

A script fails for a reason that can be pointed at. Either a function that it calls fails, or there
is a node in the script from which the failure stems (`Failure.StemsFrom`): an identifier for a name
that is not bound, an access for an attribute that is missing, a call for what goes wrong in
calling, and a switch without a default for a switch that runs out of cases. The names that a script
binds on its way do not add to the reasons, because no name is ever unbound again: a name that is
missing in the course of a run was missing at the start.
-/

namespace CombatTrials
namespace Script

open Exec (Keeps reading)
open World (Upholds)

variable {κ σ : Type}

/-! ## Functions that fail

What a function of the host fails with is up to it. A function may refuse its arguments in one of
two ways, which are not those of a script that has lost its way. -/

/-- The failures of a function that refuses its arguments. -/
def Failure.isRefusal : Failure → Bool
  | .mismatch _ _ | .call _ _ => true
  | _ => false

/-- A failure that a function of the host may end with. -/
def Host.Yields (host : Host κ σ) (f : Native κ) (e : Failure) : Prop :=
  ∃ args state, ((host.call f args).run.run state).1 = .error e

/-- Wherever a function fails, it refuses its arguments. -/
def Host.Refuses (host : Host κ σ) (f : Native κ) : Prop := ∀ e, host.Yields f e → e.isRefusal

/-! ## Nodes that failures stem from

The invariant carries the two facts that a failure is traced back with: no name was unbound, so a
missing one was missing at the start, and every function that ran was called at a node. -/

/-- Whether there is a call in a script. -/
def Statement.Calls (s : Statement) : Prop := ∃ callee args, .call callee args ∈ s.expressions

/-- Whether there is a switch without a default in a script. -/
def Statement.Open (s : Statement) : Prop :=
  ∃ subject cases, .switch subject cases ∈ s.nodes ∧ ∀ body, .default body ∉ cases

/-- A failure stems from a node of a script that is executed with some variables bound. Any script
may come upon a value that does not coerce. -/
def Failure.StemsFrom (s : Statement) (scope : Scope κ) : Failure → Prop
  | .undefinedName name => name ∈ s.identifiers ∧ scope.find? name = none
  | .noAttribute _ name => ∃ target, .access target name ∈ s.expressions
  | .mismatch _ _ => True
  | .notCallable _ | .arity _ _ _ | .call _ _ => s.Calls
  | .noMatchingCase _ => s.Open

/-- How far a script may have got: nothing is unbound that was bound, and functions are called only
by its calls. -/
structure Within (s : Statement) (scope : Scope κ) (p : Noted κ σ) : Prop where
  missing : ∀ x, p.1.find? x = none → scope.find? x = none
  calls : Effect.calls p.2.2 ≠ [] → s.Calls

/-- What accounts for a failure: a node of the script, or a function that was called. -/
def Explained (host : Host κ σ) (s : Statement) (scope : Scope κ) (e : Failure) (p : Noted κ σ) :
    Prop :=
  e.StemsFrom s scope ∨ ∃ call ∈ Effect.calls p.2.2, host.Yields call.1 e

variable {host : Host κ σ} {s : Statement} {scope : Scope κ}

/-- A variable that turns out to be missing was missing at the start, and its name stands in the
script. -/
theorem within_get {x : String} (hx : x ∈ s.identifiers) :
    Keeps (Within s scope) (fun _ => True) (Explained host s scope)
      (reading fun scope => Run.ofExcept (scope.get x)) :=
  .get (fun _ _ _ _ => trivial) fun _ hp hnone => .inl ⟨hx, hp.missing x hnone⟩

/-- Where an attribute is missing there is an access to it, whatever the value is. -/
theorem within_getAttribute {target : Expression} {name : String}
    (hnode : .access target name ∈ s.expressions) (v : Value κ) :
    Keeps (Within s scope) (fun _ => True) (Explained host s scope)
      (reading fun _ => Run.ofExcept (v.getAttribute name)) := by
  refine .ofExcept (fun _ _ => trivial) fun e he p _ => .inl ?_
  unfold Value.getAttribute at he
  split at he
  case h_1 identity body =>
    split at he <;> cases he
    exact ⟨target, hnode⟩
  case h_2 =>
    cases he
    exact ⟨target, hnode⟩

theorem within_call (hcalls : s.Calls) (f : Native κ) (args : List (Value κ)) :
    Keeps (Within s scope) (fun _ => True) (Explained host s scope)
      (reading fun _ => (World.noted host).host.call f args) := by
  rintro ⟨scope', state, effects⟩ hp
  rw [World.noted_call_run]
  have hwithin :
      Within s scope (scope', ((host.call f args).run.run state).2, effects ++ [.call f args]) :=
    ⟨hp.missing, fun _ => hcalls⟩
  rcases hr : ((host.call f args).run.run state).1 with e | v
  · exact ⟨.inr ⟨(f, args), by simp, args, state, hr⟩, hwithin⟩
  · exact ⟨trivial, hwithin⟩

theorem within_bind (x : String) (v : Value κ) :
    Keeps (Within s scope) (fun _ => True) (Explained host s scope)
      ((World.noted host).bind x v) := by
  rintro ⟨scope', state, effects⟩ hp
  rw [World.noted_bind_run]
  refine ⟨trivial, fun y hy => hp.missing y ?_, ?_⟩
  · rcases eq_or_ne y x with rfl | hne
    · rw [Scope.find?_set_self] at hy
      cases hy
    · rwa [Scope.find?_set_ne hne] at hy
  · rw [Effect.calls_concat_assign]
    exact hp.calls

/-- At its own nodes a script stays within its bounds, and what fails there is explained. -/
theorem noted_upholds_within (host : Host κ σ) (s : Statement) (scope : Scope κ) :
    Upholds (· ∈ s.expressions) (· ∈ s.nodes) (Within s scope) (fun _ => True)
      (Explained host s scope) (World.noted host) where
  number _ := trivial
  boolean _ := trivial
  mismatch _ _ _ _ := .inl trivial
  get _ hx := within_get (s.mem_identifiers hx)
  access _ _ hnode v _ := within_getAttribute hnode v
  invoke callee args hnode _ vs _ _ := by
    have hcalls : s.Calls := ⟨callee, args, hnode⟩
    exact .invoke (fun _ f _ => within_call hcalls f vs) (fun _ _ _ => .inl hcalls)
      (fun _ _ _ _ _ => .inl hcalls)
  bind x _ _ v _ := within_bind x v
  unmatched subject cases hnode hopen _ _ _ := .inl ⟨subject, cases, hnode, hopen⟩

/-- A failure stems from a node of the script, or a function that was called ended with it. -/
theorem Statement.account_explained (host : Host κ σ) (s : Statement) (scope : Scope κ)
    (state : σ) :
    Exec.Ended (Within s scope) (fun _ => True) (Explained host s scope)
      ((s.account host scope state).result, (s.account host scope state).place) :=
  account_ended (noted_upholds_within host s scope) (fun _ hn => hn) (fun _ ht => ht)
    ⟨fun _ hx => hx, fun hne => absurd rfl hne⟩

theorem Statement.calls_of_account (host : Host κ σ) (s : Statement) (scope : Scope κ) (state : σ)
    (h : (s.account host scope state).calls ≠ []) : s.Calls :=
  (s.account_explained host scope state).invariant.calls h

/-- Where functions only refuse their arguments, every failure stems from a node. -/
theorem Statement.stemsFrom_of_account {host : Host κ σ} {s : Statement} {scope : Scope κ}
    {state : σ} {e : Failure}
    (hrefuse : ∀ call ∈ (s.account host scope state).calls, host.Refuses call.1)
    (h : (s.account host scope state).result = .error e) : e.StemsFrom s scope := by
  have hend := s.account_explained host scope state
  rw [h] at hend
  rcases hend.1 with hstems | ⟨call, hcall, hyields⟩
  · exact hstems
  · have hrefusal := hrefuse call hcall e hyields
    -- a function fails in one of two ways: one stems from every script, the other from a call
    cases e with
    | mismatch => trivial
    | call => exact s.calls_of_account host scope state (List.ne_nil_of_mem hcall)
    | undefinedName | noAttribute | notCallable | arity | noMatchingCase => cases hrefusal

/-- **Where a failure of a script can come from.** Let the functions that a run calls fail only by
refusing their arguments. A name that is not bound stands in the script as an identifier and was not
bound at the start. A switch that no case matched is a switch without a default in the script. There
is a call in the script where something that is no function was called, or with the wrong number of
arguments, or where a function refused its arguments, or ran at all. For a missing attribute there
is an access to it. So a script whose identifiers are all bound does not come upon a name that is
not, and one whose switches all have a default does not run out of cases, whichever way it takes. -/
theorem failures_stem_from_nodes (host : Host κ σ) (s : Statement) (scope : Scope κ) (state : σ)
    (hrefuse : ∀ call ∈ (s.account host scope state).calls, host.Refuses call.1) :
    let run := s.account host scope state
    (∀ x, run.result = .error (.undefinedName x) → x ∈ s.identifiers ∧ scope.contains x = false) ∧
    (∀ text, run.result = .error (.noMatchingCase text) →
      ∃ subject cases, .switch subject cases ∈ s.nodes ∧ ∀ body, .default body ∉ cases) ∧
    ((∃ typeName, run.result = .error (.notCallable typeName)) ∨
        (∃ callee expected found, run.result = .error (.arity callee expected found)) ∨
        (∃ callee message, run.result = .error (.call callee message)) ∨ run.calls ≠ [] →
      ∃ callee args, .call callee args ∈ s.expressions) ∧
    (∀ typeName name, run.result = .error (.noAttribute typeName name) →
      ∃ target, .access target name ∈ s.expressions) ∧
    ((∀ x ∈ s.identifiers, scope.contains x) → ∀ x, run.result ≠ .error (.undefinedName x)) ∧
    ((∀ subject cases, .switch subject cases ∈ s.nodes → ∃ body, .default body ∈ cases) →
      ∀ text, run.result ≠ .error (.noMatchingCase text)) := by
  intro run
  have hstems : ∀ e, run.result = .error e → e.StemsFrom s scope :=
    fun e => s.stemsFrom_of_account hrefuse
  have hname : ∀ x, run.result = .error (.undefinedName x) →
      x ∈ s.identifiers ∧ scope.contains x = false := by
    intro x hx
    obtain ⟨hmem, hnone⟩ := hstems _ hx
    exact ⟨hmem, by rw [Scope.contains, hnone]; rfl⟩
  refine ⟨hname, fun text => hstems _, ?_, fun _ _ => hstems _, ?_, ?_⟩
  · rintro (⟨_, h⟩ | ⟨_, _, _, h⟩ | ⟨_, _, h⟩ | hne)
    · exact hstems _ h
    · exact hstems _ h
    · exact hstems _ h
    · exact s.calls_of_account host scope state hne
  · intro hbound x hx
    obtain ⟨hmem, hmissing⟩ := hname x hx
    rw [hbound x hmem] at hmissing
    cases hmissing
  · intro hdefault text hfail
    obtain ⟨subject, cases, hnode, hopen⟩ := hstems _ hfail
    obtain ⟨body, hbody⟩ := hdefault subject cases hnode
    exact hopen body hbody

/-- A probe that marks a number refuses everything else. -/
theorem mark_refuses (name : String) (arity : Option Nat) :
    Fixture.Probe.host.Refuses ⟨name, arity, .mark⟩ := by
  rintro e ⟨args, state, h⟩
  cases args with
  | nil =>
    cases h
    rfl
  | cons v rest =>
    replace h : ((do
        let n ← Run.ofExcept v.toNumber
        Fixture.Probe.note name (Numeric.bitsText n)
        pure (.boolean true) : Run _ (Value Fixture.Probe)).run.run state).1 = .error e := h
    rcases hv : v.toNumber with e' | n <;> rw [hv] at h <;> cases h
    obtain ⟨expected, found, rfl⟩ := v.coercive_toNumber _ hv
    rfl

/-- Marks a number and goes by the answer, for which there is no case. -/
def straying : Statement :=
  .block [.assign "w" (.call (.identifier "mark") [.identifier "x"]),
    .switch (some (.identifier "w"))
      [.matching [.boolean false, .number 2] (.expression (.identifier "z"))]]

/-- Marks a number and looks for an attribute of the answer, which has none. -/
def prying : Statement :=
  .block [.assign "w" (.call (.identifier "mark") [.identifier "x"]),
    .switch (some (.identifier "w")) [.matching [.boolean false] (.block []),
      .default (.expression (.access (.identifier "w") "hp"))]]

/-- A probe that marks, with the arity one, and a number to mark. -/
def marked : Scope Fixture.Probe :=
  .ofList [("mark", .object 7 (.native ⟨"mark", some 1, .mark⟩)), ("w", .boolean false),
    ("x", .number 1)]

theorem failures_stem_from_nodes_when_marked :
    let stray := straying.account Fixture.Probe.host marked []
    let pry := prying.account Fixture.Probe.host marked []
    ((∀ call ∈ stray.calls, Fixture.Probe.host.Refuses call.1) ∧
      stray.result = .error (.noMatchingCase "true") ∧
      (∃ subject cases, .switch subject cases ∈ straying.nodes ∧ ∀ body, .default body ∉ cases) ∧
      ∃ callee args, .call callee args ∈ straying.expressions) ∧
    (∀ call ∈ pry.calls, Fixture.Probe.host.Refuses call.1) ∧
      pry.result = .error (.noAttribute "boolean" "hp") ∧
      (∃ target, .access target "hp" ∈ prying.expressions) ∧
      (∀ x ∈ prying.identifiers, marked.contains x) ∧
      (∀ x, pry.result ≠ .error (.undefinedName x)) ∧
      (∀ subject cases, .switch subject cases ∈ prying.nodes → ∃ body, .default body ∈ cases) ∧
      ∀ text, pry.result ≠ .error (.noMatchingCase text) := by
  intro stray pry
  have hmarks :
      ∀ call ∈
        [((⟨"mark", some 1, .mark⟩ : Native Fixture.Probe), [(.number 1 : Value Fixture.Probe)])],
        Fixture.Probe.host.Refuses call.1 := by
    intro call hcall
    rw [List.mem_singleton.mp hcall]
    exact mark_refuses "mark" (some 1)
  have hstray : stray.result = .error (.noMatchingCase "true") := rfl
  have hpry : pry.result = .error (.noAttribute "boolean" "hp") := rfl
  have hbound : ∀ x ∈ prying.identifiers, marked.contains x := by decide
  have hdefault : ∀ subject cases, .switch subject cases ∈ prying.nodes →
      ∃ body, .default body ∈ cases := by
    intro subject cases hnode
    simp [prying, Statement.nodes, Statement.nodesAll, Case.nodesAll] at hnode
    simp [hnode]
  obtain ⟨-, hswitch, hcall, -, -, -⟩ :=
    failures_stem_from_nodes Fixture.Probe.host straying marked [] hmarks
  obtain ⟨-, -, -, haccess, hnames, hcases⟩ :=
    failures_stem_from_nodes Fixture.Probe.host prying marked [] hmarks
  refine ⟨⟨hmarks, hstray, hswitch "true" hstray, hcall ?_⟩, hmarks, hpry,
    haccess "boolean" "hp" hpry, hbound, hnames hbound, hdefault, hcases hdefault⟩
  exact .inr (.inr (.inr (List.cons_ne_nil _ _)))

end Script
end CombatTrials
