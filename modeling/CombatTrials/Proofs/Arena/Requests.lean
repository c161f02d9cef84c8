import CombatTrials.Proofs.Arena.Bindings
import CombatTrials.Proofs.Arena.Splitting
import CombatTrials.Proofs.Script.Calls

/-!
# What a strategy requests

The functions of a turn take no arguments, and calling one of them requests its action. So the calls
of a body are requests, one after the other, and the host's state is the action of the last of them
at any time (`Planned`). What counts is the function: a body may bind it to another name, or bind
another function to its name, and a call is the request of the function that is called
(`concat_prefix_requested_iff`).

No other function can be called on a turn. The initializer leaves plain data, and a body gets hold
of nothing but plain data and the objects of its turn.
-/

namespace CombatTrials
namespace Arena

open Script (Called Effect Expression Noted Scope Statement Value World)
open Script.Exec (reading)

/-! ## Requests

A call changes what the host has in hand and leaves a mark in the trace. The invariant ties the two
together: what is in hand is what the last mark says. -/

/-- The call that requests an action. -/
def request (action : Action) : Called Action := (⟨action.name, some 0, action⟩, [])

/-- The actions of the functions that were called. -/
def requested (calls : List (Called Action)) : List Action := calls.map fun call => call.1.code

theorem requested_concat (calls : List (Called Action)) (action : Action) :
    requested (calls ++ [request action]) = requested calls ++ [action] := by
  simp [requested, request]

theorem requested_map_request (actions : List Action) :
    requested (actions.map request) = actions := by
  simp [requested, request, Function.comp_def]

variable {ρ : Type} {fight : Fight ρ}

/-- How far a body has got on a turn: it holds nothing but what is its own, all that it called were
requests, and the plan is the last of them. -/
structure Planned (fight : Fight ρ) (p : Noted Action Action) : Prop where
  own : ∀ x v, p.1.find? x = some v → Own fight v
  requests : Effect.calls p.2.2 = (requested (Effect.calls p.2.2)).map request
  last : p.2.1 = (requested (Effect.calls p.2.2)).getLast?.getD .attack

/-- A request goes on as planned: the list of calls grows by it, and what the host has in hand is
its action. -/
theorem planned_request (action : Action) :
    Script.Exec.Keeps (Planned fight) (Own fight) (fun _ _ => True)
      (reading fun _ =>
        (World.noted actionHost).host.call (request action).1 (request action).2) := by
  intro p hp
  obtain ⟨scope, state, effects⟩ := p
  rw [World.noted_call_run]
  refine ⟨.plain rfl, hp.own, ?_, ?_⟩
  · -- the trace has one request more, and those before it were requests already
    have hrequests : Effect.calls effects = (requested (Effect.calls effects)).map request :=
      hp.requests
    show Effect.calls (effects ++ [.call (request action).1 (request action).2]) = _
    rw [Effect.calls_concat_call, requested_concat, List.map_append, ← hrequests]
    rfl
  · show action = _
    rw [Effect.calls_concat_call, requested_concat]
    simp

/-- Whatever is called on a turn, it is a request or it fails before anything is called: a body
holds no function but those of its turn, and these take no arguments. -/
theorem planned_invoke {f : Value Action} (hf : Own fight f) (args : List (Value Action)) :
    Script.Exec.Keeps (Planned fight) (Own fight) (fun _ _ => True)
      (reading fun _ => f.invoke (World.noted actionHost).host args) := by
  cases f with
  | number | boolean => exact .throw fun _ _ => trivial
  | object identity body =>
    cases body with
    | record | custom => exact .throw fun _ _ => trivial
    | native function =>
      obtain ⟨action, rfl⟩ := hf.exists_action
      -- with arguments the call is refused for their number, and nothing is requested
      by_cases hargs : args.length = 0
      · obtain rfl := List.length_eq_zero_iff.mp hargs
        exact planned_request action
      · simp only [Value.invoke, if_neg hargs]
        exact .throw fun _ _ => trivial

theorem planned_bind (x : String) {v : Value Action} (hv : Own fight v) :
    Script.Exec.Keeps (Planned fight) (fun _ => True) (fun _ _ => True)
      ((World.noted actionHost).bind x v) := by
  intro p hp
  obtain ⟨scope, state, effects⟩ := p
  rw [World.noted_bind_run]
  refine ⟨trivial, ?_, ?_, ?_⟩
  · intro y w hw
    rcases Scope.eq_or_find?_of_find?_set hw with rfl | hbefore
    · exact hv
    · exact hp.own y w hbefore
  · simpa using hp.requests
  · simpa using hp.last

/-- A body goes on as planned, whatever it does. -/
theorem noted_upholds_planned (fight : Fight ρ) :
    World.Upholds (fun _ => True) (fun _ => True) (Planned fight) (Own fight) (fun _ _ => True)
      (World.noted actionHost) where
  number _ := .plain rfl
  boolean _ := .plain rfl
  mismatch _ _ _ _ := trivial
  get x _ := .get (fun _ v hp hv => hp.own x v hv) fun _ _ _ => trivial
  access _ _ _ _ hv :=
    .ofExcept (fun _ hw => .plain (hv.isPlain_of_getAttribute hw)) fun _ _ _ _ => trivial
  invoke _ _ _ _ vs hf _ := planned_invoke hf vs
  bind x _ _ _ hv := planned_bind x hv
  unmatched _ _ _ _ _ _ _ := trivial

/-- When the body ends, in whatever way, it has only made requests, and the plan is the last of
them. -/
theorem planned_account {globals : Scope Action} (h : globals.Plain) (s : Statement)
    (number : UInt32) (fight : Fight ρ) :
    Planned fight (s.account actionHost (bindTurn globals number fight) .attack).place :=
  (Statement.account_ended (noted_upholds_planned fight) (fun _ _ => trivial) (fun _ _ => trivial)
    ⟨fun _ _ hv => own_bindTurn h hv, rfl, rfl⟩).invariant

/-- Where an action is requested, and after which others: where the body evaluates a call without
arguments of whatever turned out to be the function of the action. -/
theorem concat_prefix_requested_iff {globals : Scope Action} (h : globals.Plain) (s : Statement)
    (number : UInt32) (fight : Fight ρ) (earlier : List Action) (action : Action) :
    let notes := (World.noted actionHost).host
    earlier ++ [action] <+:
      requested (s.account actionHost (bindTurn globals number fight) .attack).calls ↔
      ∃ callee identity p q,
        s.Evaluates notes (bindTurn globals number fight, .attack, []) (.call callee []) p ∧
        (callee.step notes).run.run p = (.ok (.object identity (actionFunction action)), q) ∧
        requested (Effect.calls q.2.2) = earlier := by
  intro notes
  have hcalls : (s.account actionHost (bindTurn globals number fight) .attack).calls =
      (requested (s.account actionHost (bindTurn globals number fight) .attack).calls).map
        request :=
    (planned_account h s number fight).requests
  have hiff := s.concat_prefix_calls_iff actionHost (bindTurn globals number fight) .attack
  constructor
  · intro hadded
    have hmade := hadded.map request
    rw [← hcalls, List.map_append, List.map_singleton, hiff] at hmade
    obtain ⟨e, p, hevaluates, callee, args, identity, q, r, rfl, hcallee, hargs, -, hbefore⟩ :=
      hmade
    -- a request has no arguments, so the call that made it has none
    obtain ⟨rfl, rfl⟩ := Expression.eq_nil_of_evaluateAll hargs
    exact ⟨callee, identity, p, r, hevaluates, hcallee, hbefore ▸ requested_map_request earlier⟩
  · intro hcall
    obtain ⟨callee, identity, p, q, hevaluates, hcallee, rfl⟩ := hcall
    have hmakes : (Expression.call callee []).Makes actionHost p (Effect.calls q.2.2)
        (request action) :=
      ⟨callee, [], identity, q, q, rfl, hcallee, rfl, by simp [request], rfl⟩
    have hmade := ((hiff _ _).mpr ⟨_, p, hevaluates, hmakes⟩).map fun call => call.1.code
    rw [← requested_concat]
    exact hmade

/-- What the initializer bound to names that the turn binds has no part in a decision. -/
theorem choose_congr_globals {globals globals' : Scope Action}
    (h : ∀ x, x ∉ turnNames → globals.find? x = globals'.find? x) (strategy : Option Script.Program)
    (number : UInt32) (fight : Fight ρ) :
    choose strategy globals number fight = choose strategy globals' number fight := by
  cases strategy with
  | none => rfl
  | some script =>
    -- the nine names have the values of the turn on either side, and the others agree by assumption
    have hagree : ∀ x ∈ script.body.identifiers,
        (bindTurn globals number fight).find? x = (bindTurn globals' number fight).find? x :=
      fun x _ => find?_bindTurn_congr_globals h x
    obtain ⟨hresult, hdone, -⟩ := Statement.account_of_agree actionHost .attack hagree
    have hstate : (script.body.account actionHost (bindTurn globals number fight) .attack).state =
        (script.body.account actionHost (bindTurn globals' number fight) .attack).state :=
      (Prod.ext_iff.mp hdone).1
    simp only [choose_some, hresult, hstate]

/-- **The last request wins.** A turn fails exactly as the body of the strategy does, whatever was
requested before. Otherwise the party does what the last call of the body requested, and attacks
where it called nothing. All that a body calls are functions that request an action, without
arguments. An action is requested, after those before it, exactly where the body evaluates a call
without arguments of an expression that turned out to be the function of that action, in whatever
place the call stands and by whatever name the function is reached. The values that the initializer
gave to the names of a turn have no part in it. -/
theorem last_request_wins {strategy : Option Script.Program} {globals : Scope Action}
    (h : globalsOf strategy = .ok globals) (number : UInt32) (fight : Fight ρ) :
    (strategy = none → choose strategy globals number fight = .ok .attack) ∧
    (∀ script, strategy = some script →
      let notes := (World.noted actionHost).host
      let run := script.body.account actionHost (bindTurn globals number fight) .attack
      let requests := requested run.calls
      (∀ failure, choose strategy globals number fight = .error failure ↔
        run.result = .error failure) ∧
      (run.result = .ok () →
        choose strategy globals number fight = .ok (requests.getLast?.getD .attack)) ∧
      run.calls = requests.map request ∧
      ∀ earlier action, earlier ++ [action] <+: requests ↔
        ∃ callee identity p q,
          script.body.Evaluates notes
            (bindTurn globals number fight, .attack, []) (.call callee []) p ∧
          (callee.step notes).run.run p = (.ok (.object identity (actionFunction action)), q) ∧
          requested (Effect.calls q.2.2) = earlier) ∧
    ∀ globals' : Scope Action, (∀ x, x ∉ turnNames → globals.find? x = globals'.find? x) →
      choose strategy globals number fight = choose strategy globals' number fight := by
  refine ⟨?_, ?_, fun _ hagree => choose_congr_globals hagree strategy number fight⟩
  · intro hnone
    subst hnone
    rfl
  · intro script hscript notes run requests
    subst hscript
    have hplain := plain_globals h
    have hplanned := planned_account hplain script.body number fight
    -- the plan of the invariant is what the body has in hand when it ends
    have hstate : run.state = requests.getLast?.getD .attack := hplanned.last
    refine ⟨?_, ?_, hplanned.requests, concat_prefix_requested_iff hplain script.body number fight⟩
    · intro failure
      cases hresult : run.result with
      | ok => simp only [choose_some, run, hresult, reduceCtorEq]
      | error => simp only [choose_some, run, hresult, Except.error.injEq]
    · intro hresult
      simp only [choose_some, run, hresult, ← hstate]

/-- Requests a guard by another name, lets `exclude` be the function that heals, and calls both in a
condition. -/
def planning : Script.Program where
  initializer := some (.block [.assign "heal" (.number 5), .assign "limit" (.number 2)])
  body := .block [.assign "plan" (.identifier "guard"), .assign "exclude" (.identifier "heal"),
    .branch (.either (.both (.call (.identifier "plan") []) (.call (.identifier "exclude") []))
      (.call (.identifier "attack") [])) (.assign "limit" (.number 3)) none]

theorem last_request_wins_of_planning :
    let globals : Scope Action := .ofList [("heal", .number 5), ("limit", .number 2)]
    let fight := Fight.start skirmish (Chance.Stream.ofSeed 7)
    let notes := (World.noted actionHost).host
    let run := planning.body.account actionHost (bindTurn globals 1 fight) .attack
    globalsOf (some planning) = .ok globals ∧ run.result = .ok () ∧
      run.calls = [request .guard, request .heal] ∧
      choose (some planning) globals 1 fight = .ok .heal ∧
      choose (some planning) (.ofList [("limit", .number 2)]) 1 fight = .ok .heal ∧
      ∃ callee identity p q,
        planning.body.Evaluates notes (bindTurn globals 1 fight, .attack, []) (.call callee []) p ∧
        (callee.step notes).run.run p = (.ok (.object identity (actionFunction .heal)), q) ∧
        requested (Effect.calls q.2.2) = [.guard] := by
  intro globals fight notes run
  have hglobals : globalsOf (some planning) = .ok globals := rfl
  have hresult : run.result = .ok () := by decide +kernel
  have hrequested : requested run.calls = [.guard, .heal] := by decide +kernel
  obtain ⟨-, hlast, hcongr⟩ := last_request_wins hglobals 1 fight
  obtain ⟨-, hchoice, hcalls, hiff⟩ := hlast planning rfl
  replace hcalls : run.calls = (requested run.calls).map request := hcalls
  replace hchoice :
      choose (some planning) globals 1 fight = .ok ((requested run.calls).getLast?.getD .attack) :=
    hchoice hresult
  have hsecond : [.guard] ++ [.heal] <+: requested run.calls := hrequested ▸ List.prefix_rfl
  rw [hrequested] at hcalls hchoice
  have hagree : ∀ x, x ∉ turnNames →
      globals.find? x = Scope.find? (.ofList [("limit", .number 2)]) x := by
    intro x hx
    have hne : x ≠ "heal" := by
      rintro rfl
      exact hx (by decide)
    exact Scope.find?_set_congr _ fun _ => Scope.find?_set_ne hne {} _
  exact ⟨hglobals, hresult, hcalls, hchoice, (hcongr _ hagree).symm.trans hchoice,
    (hiff [.guard] .heal).mp hsecond⟩

end Arena
end CombatTrials
