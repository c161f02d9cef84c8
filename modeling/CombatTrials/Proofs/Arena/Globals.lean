import CombatTrials.Proofs.Arena.Requests
import CombatTrials.Proofs.Script.Blocks

/-!
# What the turns of a play share

All turns of a play start from the variables that the initializer leaves, and from nothing else that
another turn had in hand. These variables are plain data: an initializer starts without variables,
and a script that starts with plain data never gets hold of anything else
(`Script.Statement.account_of_plain`). The objects that a body finds are those of its own turn, and
it takes none of them along. What it assigns is gone when the turn is over. So a body that assigns
some more at its end makes the same plays (`play_of_quiet`), where it can be seen on no turn but the
one on which it is assigned.
-/

namespace CombatTrials
namespace Arena

open Chance (Dice)
open Script (Expression Host Scope Statement)

variable {ρ : Type}

/-! ## Assignments at the end of a turn

What a turn leaves in variables is lost. The way to see this from outside is to let a body assign
something more when all is done, and to see nothing of it in the play. -/

/-- A statement that does no more than bind variables, wherever the names of a turn are bound. -/
def Quiet (s : Statement) : Prop :=
  ∀ (scope : Scope Action) (action : Action), (∀ x ∈ turnNames, scope.contains x = true) →
    let run := s.account actionHost scope action
    run.result = .ok () ∧ run.state = action

theorem contains_account {globals : Scope Action} {number : UInt32} {fight : Fight ρ}
    (s : Statement) {x : String} (hx : x ∈ turnNames) :
    (s.account actionHost (bindTurn globals number fight) .attack).scope.contains x = true := by
  have hreplayed := (s.account_replayed actionHost (bindTurn globals number fight) .attack).1
  change (s.account actionHost (bindTurn globals number fight) .attack).scope = _ at hreplayed
  rw [hreplayed]
  exact Script.Effect.contains_replay _ (contains_bindTurn hx)

variable {script : Script.Program} {rest : List Statement}

/-- A strategy that goes on quietly after its body decides as without that. If the body fails, what
comes after it is never reached. -/
theorem choose_of_quiet (h : Quiet (.block rest)) (globals : Scope Action) (number : UInt32)
    (fight : Fight ρ) :
    choose (some { script with body := .block (script.body :: rest) }) globals number fight =
      choose (some script) globals number fight := by
  simp only [choose_some, Statement.account_block_cons]
  cases hresult :
    (script.body.account actionHost (bindTurn globals number fight) .attack).result with
  -- the body failed, and the end of the block was not reached
  | error failure => rw [Script.Account.andThen_of_error hresult, hresult]
  | ok =>
    obtain ⟨hquiet, hstate⟩ :=
      h (script.body.account actionHost (bindTurn globals number fight) .attack).scope
        (script.body.account actionHost (bindTurn globals number fight) .attack).state
        fun x hx => contains_account script.body hx
    rw [Script.Account.andThen_of_ok hresult]
    simp only [hquiet, hstate]

variable [Dice ρ]

/-- The variables that the quiet end binds belong to a turn, and the next one starts from the
globals again. -/
theorem turnsFrom_of_quiet (h : Quiet (.block rest)) (globals : Scope Action) (limit : UInt32)
    (remaining : Nat) (number : UInt32) (fight : Fight ρ) :
    turnsFrom (some { script with body := .block (script.body :: rest) })
        globals limit remaining number fight =
      turnsFrom (some script) globals limit remaining number fight := by
  induction remaining generalizing number fight with
  | zero => rfl
  | succ remaining ih =>
    -- one turn is decided alike, and the next one starts from the same globals
    have hturn :
        takeTurn (some { script with body := .block (script.body :: rest) }) globals number fight =
        takeTurn (some script) globals number fight := by
      unfold takeTurn
      rw [choose_of_quiet h]
    cases ht : takeTurn (some script) globals number fight with
    | last course => rw [turnsFrom_of_last (hturn.trans ht), turnsFrom_of_last ht]
    | on next events => rw [turnsFrom_of_on (hturn.trans ht), turnsFrom_of_on ht, ih]

/-- Two matchups that differ in the quiet end of a strategy make the same plays, initializers
included. -/
theorem play_of_quiet (h : Quiet (.block rest)) {m m' : Matchup}
    (hm : m.encounter.strategy = some script)
    (hm' : m'.encounter =
      { m.encounter with strategy := some { script with body := .block (script.body :: rest) } })
    (limit : UInt32) (fight : Fight ρ) : m'.play limit fight = m.play limit fight := by
  have hsame : globalsOf m'.encounter.strategy = globalsOf m.encounter.strategy := by
    rw [hm', hm]
    rfl
  cases hglobals : globalsOf m.encounter.strategy with
  | error failure =>
    rw [Matchup.play_of_error (hsame.trans hglobals), Matchup.play_of_error hglobals, hm']
  | ok globals =>
    rw [Matchup.play_of_ok (hsame.trans hglobals), Matchup.play_of_ok hglobals, hm', hm,
      turnsFrom_of_quiet h]

/-! ## What an initializer leaves

The result of this module, for an initializer that fails half way as much as for one that does not.
-/

/-- **An initializer leaves plain data behind.** Whatever a script does that starts with plain
variables, and however it ends, its variables stay plain, it calls no function, and it ends in a
failure wherever it evaluates a call. So what the turns of a play share is plain, and the objects
that a body finds, or has in hand when it ends, are those of its own turn. Whatever else it assigns
at the end, the plays are the same. -/
theorem initializer_leaves_plain_data (ρ : Type) [Dice ρ] :
    (∀ {κ σ : Type} (host : Host κ σ) (s : Statement) (scope : Scope κ) (state : σ), scope.Plain →
      let run := s.account host scope state
      run.scope.Plain ∧ run.state = state ∧ run.calls = [] ∧
      ∀ callee args p, s.Evaluates host (scope, state) (.call callee args) p →
        (∀ f q, (callee.step host).run.run p = (.ok f, q) → f.isPlain = true) ∧
        ∃ e q, ((Expression.call callee args).step host).run.run p = (.error e, q) ∧
          run.result = .error e) ∧
    (∀ strategy globals, globalsOf strategy = .ok globals →
      globals.Plain ∧ ∀ number (fight : Fight ρ),
        (∀ x, x ∉ turnNames → (bindTurn globals number fight).find? x = globals.find? x) ∧
        (∀ x i body, (bindTurn globals number fight).find? x = some (.object i body) →
          (turnObjects fight)[i]? = some (x, body)) ∧
        ∀ script, strategy = some script → ∀ x v,
          (script.body.account actionHost (bindTurn globals number fight) .attack).scope.find? x =
            some v →
          Own fight v) ∧
    ∀ (m m' : Matchup) (script : Script.Program) (rest : List Statement), Quiet (.block rest) →
      m.encounter.strategy = some script →
      m'.encounter =
        { m.encounter with strategy := some { script with body := .block (script.body :: rest) } } →
      ∀ limit (fight : Fight ρ), m'.play limit fight = m.play limit fight := by
  refine ⟨?_, ?_, fun _ _ _ _ hquiet hm hm' => play_of_quiet hquiet hm hm'⟩
  · intro κ σ host s scope state hplain run
    obtain ⟨hscope, hstate, hcalls⟩ := s.account_of_plain host state hplain
    refine ⟨hscope, hstate, hcalls, fun callee args p hcall => ?_⟩
    have hp := (hcall.plain hplain).1
    -- a call that is evaluated finds plain variables only, and plain data cannot be called
    obtain ⟨e, q, hfails⟩ := Expression.exists_error_of_call host callee args hp
    have hends := hcall.comesTo.run_eq_of_error hfails
    exact ⟨fun f q hf => Expression.isPlain_of_run hp hf, e, q, hfails, congrArg Prod.fst hends⟩
  · intro strategy globals h
    have hplain := plain_globals h
    refine ⟨hplain, fun number fight =>
      ⟨fun x => find?_bindTurn_of_not_mem, fun x i body => ?_, fun script _ => ?_⟩⟩
    · exact getElem?_of_find?_bindTurn hplain
    · exact (planned_account hplain script.body number fight).own

/-- Guards as long as it is wary. -/
def wariness : Statement := .branch (.identifier "wary") (.invoke "guard") none

/-- One member who is wary at first, with some body of its strategy. -/
def watch (body : Statement) : Encounter :=
  ⟨"watch", [⟨"Aria", 9, 5, 0⟩], ⟨"Slime", 8, 2, 0⟩,
    some ⟨some (.assign "wary" (.boolean true)), body⟩⟩

/-- An initializer that calls what it has just bound. -/
def overreaching : Statement :=
  .block [.assign "wary" (.boolean true), .expression (.call (.identifier "wary") [])]

theorem initializer_leaves_plain_data_on_watch :
    let rest : List Statement := [.assign "wary" (.boolean false), .assign "guard" (.number 0)]
    let m : Matchup := ⟨watch wariness, rfl⟩
    let m' : Matchup := ⟨watch (.block (wariness :: rest)), rfl⟩
    let fight := Fight.start m (Chance.Stream.ofSeed 7)
    let run := overreaching.account actionHost {} .attack
    run.result = .error (.notCallable "boolean") ∧ run.calls = [] ∧
      run.scope.find? "wary" = some (.boolean true) ∧
      (∃ p e q,
        ((Expression.call (.identifier "wary") []).step actionHost).run.run p = (.error e, q) ∧
        run.result = .error e) ∧
      Quiet (.block rest) ∧ (m'.play 3 fight).ending = .outOfTurns ∧
      m'.play 3 fight = m.play 3 fight := by
  intro rest m m' fight run
  obtain ⟨hscript, -, hplay⟩ := initializer_leaves_plain_data Chance.Stream
  obtain ⟨-, -, hcalls, hevaluates⟩ := hscript actionHost overreaching {} .attack Scope.plain_empty
  have hbound :
      (Statement.executeAll actionHost [.assign "wary" (.boolean true)]).run.run ({}, .attack) =
        (.ok (), (({} : Scope Action).set "wary" (.boolean true), .attack)) := rfl
  -- the call is reached with what the first statement of the block has bound
  have hcall : overreaching.Evaluates actionHost ({}, .attack) (.call (.identifier "wary") [])
      (({} : Scope Action).set "wary" (.boolean true), .attack) :=
    .root (.block hbound (.self _ _)) .expression
  obtain ⟨-, e, q, hfails, hends⟩ := hevaluates _ _ _ hcall
  have hquiet : Quiet (.block rest) := fun _ _ _ => ⟨rfl, rfl⟩
  have hsame :=
    hplay m m' ⟨some (.assign "wary" (.boolean true)), wariness⟩ rest hquiet rfl rfl 3 fight
  have hending : (m'.play 3 fight).ending = .outOfTurns := by decide +kernel
  exact ⟨rfl, hcalls, rfl, ⟨_, e, q, hfails, hends⟩, hquiet, hending, hsame⟩

end Arena
end CombatTrials
