import CombatTrials.Arena.Fight
import CombatTrials.Data.Sum
import CombatTrials.Script.Eval

/-!
# What a strategy sees and decides

On every turn the body of a strategy runs on the variables that its initializer left, with nine more
bound over them (`bindTurn`): the number of the turn, records of the boss, of the party and of two
of its members, and one function for each `Action`. A function requests its action; the last request
of a turn counts, and a strategy that requests nothing attacks.

A function of the host is its action, and the state of the host is the action requested so far. So
what a call does depends on the function that is called and on nothing else, whatever name it is
reached by.
-/

namespace CombatTrials
namespace Arena

open Script (Value Object Native Host Scope Failure)

/-- What a party does on a turn. -/
inductive Action where
  /-- Every standing member hits the boss. -/
  | attack
  /-- The damage of the boss is halved. -/
  | guard
  /-- The weakest standing member is healed. -/
  | heal
  /-- The play ends and does not count. -/
  | exclude
  deriving DecidableEq, Repr, Inhabited

/-- The name of the function that requests an action. -/
def Action.name : Action → String
  | .attack => "attack"
  | .guard => "guard"
  | .heal => "heal"
  | .exclude => "exclude"

/-- A call requests the action of the function that is called. -/
def actionHost : Host Action Action where
  call f _ := do
    set f.code
    pure (.boolean true)

/-! ## The view of a fight -/

/-- A combatant as strategies see it. -/
def combatantRecord (c : Combatant) : Object Action :=
  .record "actor" (Data.Ledger.ofList [
    ("hp", .number (Float.ofInt c.hp)),
    ("max_hp", .number (Float.ofNat c.maxHp)),
    ("hp_ratio", .number c.hpRatio),
    ("attack", .number (Float.ofNat c.attack)),
    ("defense", .number (Float.ofNat c.defense)),
    ("alive", .boolean c.isAlive)])

/-- A party as strategies see it. -/
def partyRecord (party : List Combatant) : Object Action :=
  let hp := Data.sumOf Combatant.hpLeft party
  let maxHp := Data.sumOf Combatant.maxHp party
  .record "party" (Data.Ledger.ofList [
    ("hp", .number (Float.ofNat hp)),
    ("max_hp", .number (Float.ofNat maxHp)),
    ("hp_ratio", .number (Float.ofNat hp / Float.ofNat (max 1 maxHp))),
    ("alive", .number (Float.ofNat (party.filter Combatant.isAlive).length)),
    ("size", .number (Float.ofNat party.length))])

/-- The function that requests an action. -/
def actionFunction (action : Action) : Object Action := .native ⟨action.name, some 0, action⟩

variable {ρ : Type}

/-- The objects that a turn binds, each an object of its own. -/
def turnObjects (fight : Fight ρ) : List (String × Object Action) :=
  let leader := fight.leader
  let weakest := fight.weakest?.getD leader
  [("boss", combatantRecord fight.boss),
    ("party", partyRecord fight.party),
    ("leader", combatantRecord (fight.member leader)),
    ("weakest", combatantRecord (fight.member weakest)),
    ("attack", actionFunction .attack),
    ("guard", actionFunction .guard),
    ("heal", actionFunction .heal),
    ("exclude", actionFunction .exclude)]

/-- Binds objects one after the other, numbering them as they come. -/
def bindObjects (scope : Scope Action) (identity : Nat) :
    List (String × Object Action) → Scope Action
  | [] => scope
  | (name, object) :: rest =>
    bindObjects (scope.set name (.object identity object)) (identity + 1) rest

/-- The variables that the body of a strategy starts from on a turn. -/
def bindTurn (globals : Scope Action) (turn : UInt32) (fight : Fight ρ) : Scope Action :=
  bindObjects (globals.set "turn" (.number (Float.ofNat turn.toNat))) 0 (turnObjects fight)

/-! ## Running a strategy -/

/-- The variables that every turn of a play starts from: those that the initializer leaves. -/
def globalsOf : Option Script.Program → Except Failure (Scope Action)
  | none => .ok {}
  | some script =>
    let (result, scope, _) := (script.runInitializer actionHost).run.run ({}, default)
    match result with
    | .ok () => .ok scope
    | .error failure => .error failure

/-- The action that a strategy decides on; without one, the party attacks. -/
def choose (strategy : Option Script.Program) (globals : Scope Action) (turn : UInt32)
    (fight : Fight ρ) : Except Failure Action :=
  match strategy with
  | none => .ok .attack
  | some script =>
    let (result, _, action) :=
      (script.runBody actionHost).run.run (bindTurn globals turn fight, .attack)
    match result with
    | .ok () => .ok action
    | .error failure => .error failure

end Arena
end CombatTrials
