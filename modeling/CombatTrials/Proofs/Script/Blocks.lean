import Mathlib.Data.List.Induction
import CombatTrials.Fixture.Probe
import CombatTrials.Proofs.Script.Equivalence
import CombatTrials.Proofs.Script.Nodes

/-!
# Blocks

A block is its statements one after the other, and that is all. So it does not matter how a script
is cut into blocks: `Statement.flatten` puts the statements of a block that stands in a block into
the outer one, and a single statement in the place of a block that holds no other, at every depth.
What is left is flat, and an equivalent statement.

What a block does is given by what its parts do. The account of two blocks one after the other is
the account of the first and then, if it succeeds, that of the second from where the first ended
(`account_block_append`). So a block that fails has a first statement that does, and this is where
the run ends.
-/

namespace CombatTrials
namespace Script

open Exec (Parallel run_bind)
open World (Alike)

variable {κ σ : Type}

/-! ## Flat statements

Flattening is a function on trees, bottom up: the parts of a block are flattened first, and a part
that has become a block by then gives up its statements to the block around it. -/

/-- The statements of a block, and of another statement itself alone. -/
def Statement.parts : Statement → List Statement
  | .block body => body
  | s => [s]

/-- A block of statements, for a single one without the block. -/
def Statement.gather : List Statement → Statement
  | [s] => s
  | body => .block body

mutual

/-- A statement without blocks that stand in blocks or hold a single statement. -/
def Statement.flatten : Statement → Statement
  | .block body => Statement.gather (Statement.flattenAll body)
  | .assign name value => .assign name value
  | .branch condition thenDo none => .branch condition thenDo.flatten none
  | .branch condition thenDo (some otherwise) =>
    .branch condition thenDo.flatten (some otherwise.flatten)
  | .switch subject cases => .switch subject (Case.flattenAll cases)
  | .expression value => .expression value

/-- The statements of a block, with those of inner blocks in their place. -/
def Statement.flattenAll : List Statement → List Statement
  | [] => []
  | s :: rest => s.flatten.parts ++ Statement.flattenAll rest

def Case.flattenAll : List Case → List Case
  | [] => []
  | .matching conditions body :: rest => .matching conditions body.flatten :: Case.flattenAll rest
  | .default body :: rest => .default body.flatten :: Case.flattenAll rest

end

/-- Both parts of a program, flat. -/
def Program.flatten (program : Program) : Program :=
  ⟨program.initializer.map Statement.flatten, program.body.flatten⟩

/-- Whether a statement is no block. -/
def Statement.IsSimple (s : Statement) : Prop := ∀ body, s ≠ .block body

/-- No block in a statement stands in another or holds a single statement. -/
def Statement.Flat (s : Statement) : Prop :=
  ∀ body, .block body ∈ s.nodes → body.length ≠ 1 ∧ ∀ t ∈ body, t.IsSimple

theorem Statement.Flat.parts {s : Statement} (h : s.Flat) : ∀ t ∈ s.parts, t.Flat ∧ t.IsSimple := by
  intro t ht
  cases s with
  | block body =>
    obtain ⟨-, hsimple⟩ := h body List.mem_cons_self
    refine ⟨fun inner hinner => h inner (List.mem_cons_of_mem _ ?_), hsimple t ht⟩
    exact Statement.mem_nodesAll.mpr ⟨t, ht, hinner⟩
  | assign | branch | switch | expression =>
    obtain rfl := List.mem_singleton.mp ht
    exact ⟨h, by rintro body ⟨⟩⟩

/-- Flat statements that are no blocks make a flat block, or are one of them alone. -/
theorem Statement.flat_gather {body : List Statement} (h : ∀ t ∈ body, t.Flat ∧ t.IsSimple) :
    (Statement.gather body).Flat := by
  have hblock : body.length ≠ 1 → (Statement.block body).Flat := by
    intro hlength inner hinner
    rcases List.mem_cons.mp hinner with hself | hdeep
    · cases hself
      exact ⟨hlength, fun t ht => (h t ht).2⟩
    · obtain ⟨t, ht, hinner⟩ := Statement.mem_nodesAll.mp hdeep
      exact (h t ht).1 inner hinner
  -- the one length that a block is not left with is where there is no block
  match body with
  | [] => exact hblock (by decide)
  | [s] => exact (h s List.mem_cons_self).1
  | s :: t :: rest => exact hblock (by simp)

mutual

/-- **Flattening leaves a flat statement.** By recursion on the tree: the parts of every statement
of a block are flat and no blocks by then. -/
theorem Statement.flat_flatten : (s : Statement) → s.flatten.Flat
  | .block body => Statement.flat_gather (Statement.flat_flattenAll body)
  -- not a block, and there is none below it
  | .assign _ _ | .expression _ => by
    intro body h
    simp [Statement.flatten, Statement.nodes] at h
  | .branch _ thenDo none => by
    intro body h
    exact thenDo.flat_flatten body (by simpa [Statement.flatten, Statement.nodes] using h)
  | .branch _ thenDo (some otherwise) => by
    intro body h
    simp only [Statement.flatten, Statement.nodes, List.mem_cons, reduceCtorEq, false_or,
      List.mem_append] at h
    exact h.elim (thenDo.flat_flatten body) (otherwise.flat_flatten body)
  | .switch _ cases => by
    intro body h
    exact Case.flat_flattenAll cases body (by simpa [Statement.flatten, Statement.nodes] using h)

theorem Statement.flat_flattenAll :
    (body : List Statement) → ∀ t ∈ Statement.flattenAll body, t.Flat ∧ t.IsSimple
  | [] => by simp [Statement.flattenAll]
  | s :: rest =>
    List.forall_mem_append.mpr ⟨s.flat_flatten.parts, Statement.flat_flattenAll rest⟩

theorem Case.flat_flattenAll :
    (cases : List Case) → ∀ body, .block body ∈ Case.nodesAll (Case.flattenAll cases) →
    body.length ≠ 1 ∧ ∀ t ∈ body, t.IsSimple
  | [], body, h => by simp [Case.flattenAll, Case.nodesAll] at h
  | .matching _ s :: rest, body, h | .default s :: rest, body, h =>
    (List.mem_append.mp h).elim (s.flat_flatten body) (Case.flat_flattenAll rest body)

end

/-! ## The meaning of flat statements

Flattening moves the ends of blocks and leaves the statements in their order. Each of its two steps
is an equation of computations, and these are put together by recursion on the tree. -/

theorem Statement.executeAllIn_parts (world : World κ σ) (s : Statement) :
    Statement.executeAllIn world s.parts = s.executeIn world := by
  cases s with
  | block body => rfl
  | assign | branch | switch | expression => exact bind_pure_unit

theorem Statement.executeIn_gather (world : World κ σ) (body : List Statement) :
    (Statement.gather body).executeIn world = Statement.executeAllIn world body := by
  match body with
  | [] => rfl
  | [s] => exact bind_pure_unit.symm
  | s :: t :: rest => rfl

mutual

/-- A statement is equivalent to itself without nested blocks. -/
theorem Statement.executeIn_flatten (world : World κ σ) :
    (s : Statement) → s.flatten.executeIn world = s.executeIn world
  | .block body => by
    simp only [Statement.flatten, Statement.executeIn_gather, Statement.executeIn,
      Statement.executeAllIn_flattenAll world body]
  | .assign _ _ | .expression _ => rfl
  | .branch _ thenDo none => by
    simp only [Statement.flatten, Statement.executeIn, Statement.executeIn_flatten world thenDo]
  | .branch _ thenDo (some otherwise) => by
    simp only [Statement.flatten, Statement.executeIn, Statement.executeIn_flatten world thenDo,
      Statement.executeIn_flatten world otherwise]
  | .switch _ cases => by
    simp only [Statement.flatten, Statement.executeIn, Case.executeFirstIn_flattenAll world _ cases]

theorem Statement.executeAllIn_flattenAll (world : World κ σ) :
    (body : List Statement) →
    Statement.executeAllIn world (Statement.flattenAll body) = Statement.executeAllIn world body
  | [] => rfl
  | s :: rest => by
    simp only [Statement.flattenAll, Statement.executeAllIn_append, Statement.executeAllIn_parts,
      Statement.executeAllIn, Statement.executeIn_flatten world s,
      Statement.executeAllIn_flattenAll world rest]

theorem Case.executeFirstIn_flattenAll (world : World κ σ) (v : Option (Value κ)) :
    (cases : List Case) →
    Case.executeFirstIn world v (Case.flattenAll cases) = Case.executeFirstIn world v cases
  | [] => rfl
  | .matching _ body :: rest => by
    simp only [Case.flattenAll, Case.executeFirstIn, Statement.executeIn_flatten world body,
      Case.executeFirstIn_flattenAll world v rest]
  | .default body :: _ => by
    simp only [Case.flattenAll, Case.executeFirstIn, Statement.executeIn_flatten world body]

end

theorem Statement.equivalent_block_singleton (s : Statement) : (Statement.block [s]).Equivalent s :=
  fun _ _ world => (executeIn_gather world [s]).symm

theorem Statement.equivalent_flatten (s : Statement) : s.flatten.Equivalent s :=
  fun _ _ world => Statement.executeIn_flatten world s

/-! ## One block after another

The effects of a run that comes second stand behind those of the first. That they are the same as if
the second run had come alone is again a case of two worlds being alike. -/

/-- Where two runs are of which the first began with notes taken before. -/
def Behind (past : List (Effect κ)) (s t : Noted κ σ) : Prop :=
  s.1 = t.1 ∧ s.2.1 = t.2.1 ∧ s.2.2 = past ++ t.2.2

/-- Notes taken before do not change what is done later. -/
theorem noted_alike_behind (host : Host κ σ) (past : List (Effect κ)) :
    Alike (fun _ => True) (fun _ => True) (Behind past) (World.noted host) (World.noted host) where
  find := by
    rintro s t ⟨hscope, -⟩ x -
    rw [hscope]
  -- a new note goes to the end on both sides
  call := by
    rintro f args ⟨_, _, _⟩ ⟨_, _, _⟩ ⟨hscope, hstate, heffects⟩
    dsimp only at hscope hstate heffects
    subst hscope hstate heffects
    rw [World.noted_call_run, World.noted_call_run]
    exact ⟨rfl, rfl, rfl, List.append_assoc ..⟩
  bind := by
    rintro x v - ⟨_, _, _⟩ ⟨_, _, _⟩ ⟨hscope, hstate, heffects⟩
    dsimp only at hscope hstate heffects
    subst hscope hstate heffects
    rw [World.noted_bind_run, World.noted_bind_run]
    exact ⟨rfl, rfl, rfl, List.append_assoc ..⟩

/-- A run that is told behind others does the same and adds its notes at the end. -/
theorem Statement.account_run_behind (host : Host κ σ) (s : Statement) (scope : Scope κ) (state : σ)
    (past : List (Effect κ)) :
    (s.executeIn (.noted host)).run.run (scope, state, past) =
      let run := s.account host scope state
      (run.result, run.scope, run.state, past ++ run.effects) := by
  have h := (noted_alike_behind host past).execute s (fun _ _ => trivial) (fun _ _ => trivial)
  have hstart : Behind past (scope, state, past) (scope, state, []) :=
    ⟨rfl, rfl, (List.append_nil past).symm⟩
  obtain ⟨hresult, hscope, hstate, heffects⟩ := h _ _ hstart
  rw [account_run] at hresult hscope hstate heffects
  exact Prod.ext hresult (Prod.ext hscope (Prod.ext hstate heffects))

/-- The account of a run and of another that begins where it ends, if it succeeds. -/
def Account.andThen (a : Account κ σ Unit) (next : Scope κ → σ → Account κ σ Unit) :
    Account κ σ Unit :=
  match a.result with
  | .ok () =>
    let b := next a.scope a.state
    { b with effects := a.effects ++ b.effects }
  | .error _ => a

theorem Account.andThen_of_ok {a : Account κ σ Unit} (h : a.result = .ok ())
    (next : Scope κ → σ → Account κ σ Unit) :
    a.andThen next =
      { next a.scope a.state with effects := a.effects ++ (next a.scope a.state).effects } := by
  rw [andThen, h]

theorem Account.andThen_of_error {a : Account κ σ Unit} {e : Failure} (h : a.result = .error e)
    (next : Scope κ → σ → Account κ σ Unit) : a.andThen next = a := by
  rw [andThen, h]

/-- Two blocks one after the other. -/
theorem Statement.account_block_append (host : Host κ σ) (body rest : List Statement)
    (scope : Scope κ) (state : σ) :
    (Statement.block (body ++ rest)).account host scope state =
      ((Statement.block body).account host scope state).andThen
        ((Statement.block rest).account host) := by
  refine Account.ext_place ?_
  have hfirst := account_run host (.block body) scope state
  have hlast := account_run_behind host (.block rest)
  rw [← account_run]
  simp only [executeIn] at hfirst hlast ⊢
  rw [executeAllIn_append, run_bind, hfirst]
  -- the second block runs from where the first ended, or not at all
  rcases hresult : ((Statement.block body).account host scope state).result with e | ⟨⟩
  · rw [Account.andThen_of_error hresult, hresult]
  · rw [Account.andThen_of_ok hresult]
    exact hlast _ _ _

theorem Statement.account_block_cons (host : Host κ σ) (s : Statement) (rest : List Statement)
    (scope : Scope κ) (state : σ) :
    (Statement.block (s :: rest)).account host scope state =
      (s.account host scope state).andThen ((Statement.block rest).account host) := by
  rw [← List.singleton_append, account_block_append, s.equivalent_block_singleton.account_eq]

/-- A block in which one statement fails after those before it have succeeded ends with that
statement. -/
theorem Statement.account_block_of_error {host : Host κ σ} {scope : Scope κ} {state : σ}
    {before : List Statement} {s : Statement} {e : Failure}
    (hfirst : ((Statement.block before).account host scope state).result = .ok ())
    (hlast : (s.account host ((Statement.block before).account host scope state).scope
      ((Statement.block before).account host scope state).state).result = .error e)
    (after : List Statement) :
    (Statement.block (before ++ s :: after)).account host scope state =
      ((Statement.block before).account host scope state).andThen (s.account host) := by
  rw [account_block_append, Account.andThen_of_ok hfirst, Account.andThen_of_ok hfirst,
    account_block_cons, Account.andThen_of_error hlast]

/-- A block that fails has a first statement that does. -/
theorem Statement.exists_of_account_block_error {host : Host κ σ} {scope : Scope κ} {state : σ}
    {body : List Statement} {e : Failure}
    (h : ((Statement.block body).account host scope state).result = .error e) :
    ∃ before s after, body = before ++ s :: after ∧
      let first := (Statement.block before).account host scope state
      first.result = .ok () ∧ (s.account host first.scope first.state).result = .error e := by
  -- from the end: either the last statement is the one that fails or one before it is
  induction body using List.reverseRecOn with
  | nil => cases h
  | append_singleton rest s ih =>
    rw [account_block_append] at h
    rcases hrest : ((Statement.block rest).account host scope state).result with e' | ⟨⟩
    · rw [Account.andThen_of_error hrest] at h
      obtain ⟨before, t, after, rfl, hfails⟩ := ih h
      exact ⟨before, t, after ++ [s], by simp, hfails⟩
    · rw [Account.andThen_of_ok hrest, s.equivalent_block_singleton.account_eq] at h
      exact ⟨rest, s, [], rfl, hrest, h⟩

/-! ## Block structure

The two results are put together here: what is flat is equivalent, and where a block fails. -/

/-- **Block structure carries no meaning.** A statement without nested blocks and blocks of one
statement, at whatever depth, has the account of the statement with them: the same result or
failure, the same variables, the same calls and assignments in the same order; and so a program
without them runs alike. When a block fails, it is at a statement before which the others have
succeeded. The run ends as that statement does from where they ended, with what they have done and
what it does itself, and whatever comes behind it has no part in that. -/
theorem block_structure_carries_no_meaning (host : Host κ σ) (scope : Scope κ) (state : σ) :
    (∀ s : Statement, s.flatten.Flat ∧
      s.flatten.account host scope state = s.account host scope state) ∧
    (∀ program : Program, program.flatten.runInitializer host = program.runInitializer host ∧
      program.flatten.runBody host = program.runBody host) ∧
    ∀ (body : List Statement) (e : Failure),
      let run := (Statement.block body).account host scope state
      run.result = .error e →
      ∃ before s after, body = before ++ s :: after ∧
        let first := (Statement.block before).account host scope state
        let last := s.account host first.scope first.state
        first.result = .ok () ∧ last.result = .error e ∧
          run.scope = last.scope ∧ run.state = last.state ∧
          run.effects = first.effects ++ last.effects ∧ run.calls = first.calls ++ last.calls ∧
          ∀ after', (Statement.block (before ++ s :: after')).account host scope state = run := by
  refine ⟨?_, ?_, ?_⟩
  · intro s
    refine ⟨s.flat_flatten, ?_⟩
    rw [s.equivalent_flatten.account_eq host]
  · intro program
    refine ⟨?_, program.body.equivalent_flatten.execute_eq host⟩
    obtain ⟨initializer, body⟩ := program
    cases initializer with
    | none => rfl
    | some s => exact s.equivalent_flatten.execute_eq host
  · intro body e run hfail
    obtain ⟨before, s, after, rfl, hfirst, hlast⟩ := Statement.exists_of_account_block_error hfail
    -- the account of the block up to the failing statement, with anything behind it
    have hends := Statement.account_block_of_error hfirst hlast
    have hrun := (hends after).trans (Account.andThen_of_ok hfirst _)
    refine ⟨before, s, after, rfl, hfirst, hlast, ?_, ?_, ?_, ?_, ?_⟩
    · exact (congrArg Account.scope hrun :)
    · exact (congrArg Account.state hrun :)
    · exact (congrArg Account.effects hrun :)
    · exact (congrArg Account.calls hrun).trans (List.filterMap_append ..)
    · exact fun after' => (hends after').trans (hends after).symm

/-- Sets `x` and writes it down, then fails in an inner block. -/
def fumbling : List Statement :=
  [.assign "x" (.number 1),
    .block [.block [.expression (.call (.identifier "first") [.identifier "x"])],
      .expression (.identifier "z")],
    .assign "x" (.number 2)]

theorem block_structure_carries_no_meaning_in_fumbling :
    let speaking : Scope Fixture.Probe :=
      .ofList [("first", .object 3 (.native ⟨"first", none, .first⟩))]
    let account := fun s : Statement => s.account Fixture.Probe.host speaking []
    let run := account (.block fumbling)
    ((Statement.block fumbling).flatten = .block [.assign "x" (.number 1),
        .expression (.call (.identifier "first") [.identifier "x"]), .expression (.identifier "z"),
        .assign "x" (.number 2)] ∧ account (Statement.block fumbling).flatten = run) ∧
      run.result = .error (.undefinedName "z") ∧
      run.calls = [(⟨"first", none, .first⟩, [.number 1])] ∧
      run.scope.find? "x" = some (.number 1) ∧
      ∃ before s after, fumbling = before ++ s :: after ∧
        (account (.block before)).result = .ok () ∧
        ∀ after', account (.block (before ++ s :: after')) = run := by
  intro speaking account run
  obtain ⟨hflat, -, hfails⟩ := block_structure_carries_no_meaning Fixture.Probe.host speaking []
  have hresult : run.result = .error (.undefinedName "z") := rfl
  obtain ⟨before, s, after, hbody, hfirst, -, -, -, -, -, hrest⟩ := hfails fumbling _ hresult
  exact ⟨⟨rfl, (hflat _).2⟩, hresult, rfl, rfl, before, s, after, hbody, hfirst, hrest⟩

end Script
end CombatTrials
