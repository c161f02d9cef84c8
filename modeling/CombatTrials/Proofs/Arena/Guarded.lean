import CombatTrials.Arena.Play

/-!
# A stage that looks before every step

The rules of a fight are total. A place in the formation is a number below its length, a choice is
made among one thing at least, hit points are integers of any size, and dividing by zero is a matter
of doubles. A machine that plays a stage has none of this. It looks members up by numbers, draws
from ranges, and adds in words of a fixed size, and each of these steps is defined for some
arguments only.

What follows is the stage as such a machine plays it, over a `Scene`, of which nothing is known, and
with every such step preceded by a look at its arguments. Where the step would not be defined there
is a `Mishap`. Words hold what `fits`, so one stage does for words of any size, and for unlimited
ones.
-/

namespace CombatTrials
namespace Arena

open Chance (Dice swingLow swingHigh)
open Script (Object Scope)
open Stage (Ending)

/-- A step that is not defined. -/
inductive Mishap where
  /-- There is nothing at a place of a list. -/
  | noPlace (index length : Nat)
  /-- There is nothing to draw from. -/
  | emptyRange
  /-- A share of no hit points. -/
  | noHitPoints (name : String)
  | overflow (n : Int)
  deriving DecidableEq, Repr

/-- A party, a boss and dice, as they are. -/
structure Scene (ρ : Type) where
  party : List Combatant
  boss : Combatant
  dice : ρ

variable {ρ : Type}

def Fight.scene (fight : Fight ρ) : Scene ρ := ⟨fight.party, fight.boss, fight.dice⟩

/-- The scene of an encounter, which need not be sound. -/
def Scene.start (e : Encounter) (dice : ρ) : Scene ρ :=
  ⟨e.party.map Combatant.ofFighter, Combatant.ofFighter e.boss, dice⟩

namespace Guarded

/-! ## Steps that are not always defined -/

/-- What stands at a place, of which nobody has said that it is one. -/
def place {α : Type} (l : List α) (index : Nat) : Except Mishap α :=
  match l[index]? with
  | some a => .ok a
  | none => .error (.noPlace index l.length)

/-- A number that is about to be kept in a word. -/
def word (fits : Int → Bool) (n : Int) : Except Mishap Int :=
  if fits n then .ok n else .error (.overflow n)

/-- A share of hit points, which divides by the greatest number of them. -/
def ratio (c : Combatant) : Except Mishap Float :=
  if c.maxHp = 0 then .error (.noHitPoints c.name) else .ok c.hpRatio

section Draws

variable [Dice ρ]

/-- A number below `n`. -/
def pick (n : Nat) (dice : ρ) : Except Mishap (Nat × ρ) :=
  match n with
  | 0 => .error .emptyRange
  | n + 1 =>
    let (choice, dice) := Dice.pick n dice
    .ok (choice, dice)

/-- A throw of the factor, drawn from a range that has to have something in it. -/
def swing (dice : ρ) : Except Mishap (Float × ρ) :=
  if swingLow ≤ swingHigh then .ok (Dice.swing dice) else .error .emptyRange

end Draws

/-- Adds up what is said of combatants, one after the other. -/
def total (fits : Int → Bool) (f : Combatant → Nat) : Int → List Combatant → Except Mishap Int
  | sum, [] => .ok sum
  | sum, c :: rest => do total fits f (← word fits (sum + f c)) rest

/-! ## What a strategy sees -/

/-- The members that stand, with their places. -/
def standing (s : Scene ρ) : List (Combatant × Nat) :=
  s.party.zipIdx.filter fun member => member.1.isAlive

/-- The weakest of some members, the first of them. The share of each is compared with the least so
far. -/
def weakestOf : Combatant × Nat → List (Combatant × Nat) → Except Mishap (Combatant × Nat)
  | best, [] => .ok best
  | best, member :: rest => do
    let share ← ratio member.1
    let least ← ratio best.1
    weakestOf (if Numeric.orderKey share < Numeric.orderKey least then member else best) rest

/-- The weakest member that stands, if one does. -/
def weakest? (s : Scene ρ) : Except Mishap (Option (Combatant × Nat)) :=
  match standing s with
  | [] => .ok none
  | member :: rest => do return some (← weakestOf member rest)

/-- The record of a combatant. Its share of hit points is worked out even if no script asks for it.
-/
def combatantView (c : Combatant) : Except Mishap (Object Action) := do
  let _ ← ratio c
  return combatantRecord c

/-- The record of a party, for which the hit points of its members are added up member by member. -/
def partyView (fits : Int → Bool) (party : List Combatant) : Except Mishap (Object Action) := do
  let _ ← total fits Combatant.hpLeft 0 party
  let _ ← total fits Combatant.maxHp 0 party
  return partyRecord party

/-- The objects that a turn binds. The first member is looked up even if another one leads. -/
def turnObjects (fits : Int → Bool) (s : Scene ρ) :
    Except Mishap (List (String × Object Action)) := do
  let first ← place s.party 0
  let leader := ((standing s).head?.map Prod.fst).getD first
  let weak := ((← weakest? s).map Prod.fst).getD leader
  let boss ← combatantView s.boss
  let party ← partyView fits s.party
  let leaderView ← combatantView leader
  let weakView ← combatantView weak
  return [("boss", boss), ("party", party), ("leader", leaderView), ("weakest", weakView),
    ("attack", actionFunction .attack), ("guard", actionFunction .guard),
    ("heal", actionFunction .heal), ("exclude", actionFunction .exclude)]

/-- What the strategy decides. The objects are made before its body runs, so a mishap there is one
of the turn, whatever the body would have looked at. -/
def choose (fits : Int → Bool) (strategy : Option Script.Program) (globals : Scope Action)
    (turn : UInt32) (s : Scene ρ) : Except Mishap (Except Script.Failure Action) :=
  match strategy with
  | none => .ok (.ok .attack)
  | some script => do
    let objects ← turnObjects fits s
    let scope := bindObjects (globals.set "turn" (.number (Float.ofNat turn.toNat))) 0 objects
    let (result, _, action) := (script.runBody actionHost).run.run (scope, .attack)
    return result.map fun _ => action

/-! ## Actions -/

section Actions

variable [Dice ρ] (fits : Int → Bool)

/-- A roll of damage. What the defense leaves of it has to fit, even where it is below one point. -/
def rollDamage (attack defense : Nat) (dice : ρ) : Except Mishap (Int × ρ) := do
  let (factor, dice) ← swing dice
  let damage ← word fits (strength attack factor - defense)
  return (max 1 damage, dice)

/-- The hit of the member at some place. -/
def strike (s : Scene ρ) (index : Nat) : Except Mishap (Scene ρ × List Event) := do
  let c ← place s.party index
  if c.isAlive && s.boss.isAlive then
    let (damage, dice) ← rollDamage fits c.attack s.boss.defense s.dice
    let hp ← word fits (s.boss.hp - damage)
    let boss := { s.boss with hp := hp }
    return ({ s with boss := boss, dice := dice }, [.hit c.name boss.name damage boss.hpLeft])
  else return (s, [])

def strikes (s : Scene ρ) : List Nat → Except Mishap (Scene ρ × List Event)
  | [] => return (s, [])
  | index :: rest => do
    let (s, first) ← strike fits s index
    let (s, later) ← strikes s rest
    return (s, first ++ later)

def partyAttack (s : Scene ρ) : Except Mishap (Scene ρ × List Event) :=
  strikes fits s (List.range s.party.length)

omit [Dice ρ] in
def partyHeal (s : Scene ρ) : Except Mishap (Scene ρ × List Event) := do
  match ← weakest? s with
  | none => return (s, [])
  | some (target, index) =>
    let missing ← word fits (target.maxHp - target.hp)
    let healing := min (Numeric.nearestInt (Float.ofNat target.maxHp * 0.2)) missing
    let hp ← word fits (target.hp + healing)
    return ({ s with party := s.party.set index { target with hp := hp } },
      [.healed target.name healing hp])

omit [Dice ρ] in
/-- Which of some places those are of members that stand. -/
def living (s : Scene ρ) : List Nat → Except Mishap (List Nat)
  | [] => return []
  | index :: rest => do
    let c ← place s.party index
    let others ← living s rest
    return if c.isAlive then index :: others else others

/-- The hit of the boss on the member at some place. -/
def bossHits (s : Scene ρ) (guarding : Bool) (index : Nat) (dice : ρ) :
    Except Mishap (Scene ρ × List Event) := do
  let target ← place s.party index
  let (damage, dice) ← rollDamage fits s.boss.attack target.defense dice
  let damage := if guarding then max 1 (damage / 2) else damage
  let hp ← word fits (target.hp - damage)
  let victim := { target with hp := hp }
  let hit := Event.hit s.boss.name victim.name damage victim.hpLeft
  return ({ s with party := s.party.set index victim, dice := dice },
    if victim.isAlive then [hit] else [hit, .fell victim.name])

/-- Those who stand are counted first, since there has to be somebody to draw among. -/
def bossAttack (s : Scene ρ) (guarding : Bool) : Except Mishap (Scene ρ × List Event) := do
  let alive ← living s (List.range s.party.length)
  if alive.isEmpty then return (s, [])
  else
    let (choice, dice) ← pick alive.length s.dice
    bossHits fits s guarding (← place alive choice) dice

/-! ## Plays -/

/-- How far a play is after a turn: its ending, if the turn was the last one. -/
abbrev Progress (ρ : Type) := Option Ending × Scene ρ × List Event

def bossResponds (number : UInt32) (guarding : Bool) :
    Scene ρ × List Event → Except Mishap (Progress ρ)
  | (acted, first) => do
    if acted.boss.isAlive then
      let (struck, second) ← bossAttack fits acted guarding
      if struck.party.any Combatant.isAlive then return (none, struck, first ++ second)
      else return (some (.wipe number), struck, first ++ second ++ [.partyWiped number])
    else return (some (.victory number), acted, first ++ [.bossDefeated acted.boss.name number])

def resolve (number : UInt32) (s : Scene ρ) : Action → Except Mishap (Progress ρ)
  | .attack => do bossResponds fits number false (← partyAttack fits s)
  | .guard => bossResponds fits number true (s, [.guarded])
  | .heal => do bossResponds fits number false (← partyHeal fits s)
  | .exclude => return (some .excluded, s, [.excluded])

def takeTurn (strategy : Option Script.Program) (globals : Scope Action) (number : UInt32)
    (s : Scene ρ) : Except Mishap (Progress ρ) := do
  match ← choose fits strategy globals number s with
  | .error failure => return (some (.fault (.script number failure)), s, [.strategyFailed failure])
  | .ok action => resolve fits number s action

def turnsFrom (strategy : Option Script.Program) (globals : Scope Action) (limit : UInt32) :
    (remaining : Nat) → (number : UInt32) → Scene ρ → Except Mishap (Ending × Scene ρ × List Event)
  | 0, _, s => return (.outOfTurns, s, [.outOfTurns limit])
  | remaining + 1, number, s => do
    match ← takeTurn fits strategy globals number s with
    | (some ending, s, events) => return (ending, s, .turn number :: events)
    | (none, s, events) =>
      let (ending, s, later) ← turnsFrom strategy globals limit remaining (number + 1) s
      return (ending, s, (.turn number :: events) ++ later)

def play (e : Encounter) (limit : UInt32) (s : Scene ρ) :
    Except Mishap (Ending × Scene ρ × List Event) :=
  let opening := Event.opening e.name s.party.length
  match globalsOf e.strategy with
  | .error failure => return (.fault (.script 0 failure), s, [opening, .initializerFailed failure])
  | .ok globals => do
    let (ending, s, events) ← turnsFrom fits e.strategy globals limit limit.toNat 1 s
    return (ending, s, opening :: events)

/-- The scene after plays with some limits, one after the other. -/
def playAll (e : Encounter) (s : Scene ρ) : List UInt32 → Except Mishap (Scene ρ)
  | [] => return s
  | limit :: rest => do
    let (_, s, _) ← play fits e limit s
    playAll e s rest

end Actions

end Guarded
end Arena
end CombatTrials
