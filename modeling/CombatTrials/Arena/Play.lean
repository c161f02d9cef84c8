import CombatTrials.Arena.Strategy
import CombatTrials.Stage.Loadout

/-!
# Playing a stage

A play opens with the strategy's initializer and then takes turn after turn until one of them ends
it or the limit is reached. On a turn the strategy decides first, then the party acts, then the boss
attacks; the boss's fall is seen before it can attack. What a play comes to is a `Course`: its
ending, the fight it leaves, and its events.

A `Bout` keeps the fight between plays, so a later play goes on where the one before it stopped;
only the turn numbers and the variables of the strategy begin anew. The events of a play are kept as
text when the bout is logged and dropped when it is not. Nothing else depends on that.
-/

namespace CombatTrials
namespace Arena

open Chance (Dice Stream)
open Script (Scope)
open Stage (Ending PlayFault Loadout Performance)

variable {ρ : Type}

/-- What a play comes to. -/
structure Course (ρ : Type) where
  ending : Ending
  fight : Fight ρ
  events : List Event

/-- A course with more events before its own. -/
def Course.after (earlier : List Event) (course : Course ρ) : Course ρ :=
  { course with events := earlier ++ course.events }

/-- What one turn comes to: the end of the play, or a fight to go on with. -/
inductive Turn (ρ : Type) where
  | last (course : Course ρ)
  | on (fight : Fight ρ) (events : List Event)

/-- A turn once the party has acted: the boss attacks unless it was felled. -/
def bossResponds [Dice ρ] (number : UInt32) (guarding : Bool) : Fight ρ × List Event → Turn ρ
  | (acted, first) =>
    if acted.boss.isAlive then
      let (struck, second) := acted.bossAttack guarding
      if struck.partyAlive then .on struck (first ++ second)
      else .last ⟨.wipe number, struck, first ++ second ++ [.partyWiped number]⟩
    else .last ⟨.victory number, acted, first ++ [.bossDefeated acted.boss.name number]⟩

/-- A turn once the strategy has decided. -/
def resolve [Dice ρ] (number : UInt32) (fight : Fight ρ) : Action → Turn ρ
  | .attack => bossResponds number false fight.partyAttack
  | .guard => bossResponds number true (fight, [.guarded])
  | .heal => bossResponds number false fight.partyHeal
  | .exclude => .last ⟨.excluded, fight, [.excluded]⟩

/-- One turn. -/
def takeTurn [Dice ρ] (strategy : Option Script.Program) (globals : Scope Action) (number : UInt32)
    (fight : Fight ρ) : Turn ρ :=
  match choose strategy globals number fight with
  | .error failure => .last ⟨.fault (.script number failure), fight, [.strategyFailed failure]⟩
  | .ok action => resolve number fight action

/-- The turns of a play from one of some number on, `remaining` of them at most. -/
def turnsFrom [Dice ρ] (strategy : Option Script.Program) (globals : Scope Action)
    (limit : UInt32) :
    (remaining : Nat) → (number : UInt32) → Fight ρ → Course ρ
  | 0, _, fight => ⟨.outOfTurns, fight, [.outOfTurns limit]⟩
  | remaining + 1, number, fight =>
    match takeTurn strategy globals number fight with
    | .last course => course.after [.turn number]
    | .on fight events =>
      (turnsFrom strategy globals limit remaining (number + 1) fight).after (.turn number :: events)

/-- A play of an encounter, from some state of the fight. -/
def Matchup.play [Dice ρ] (m : Matchup) (limit : UInt32) (fight : Fight ρ) : Course ρ :=
  let course : Course ρ :=
    match globalsOf m.encounter.strategy with
    | .error failure => ⟨.fault (.script 0 failure), fight, [.initializerFailed failure]⟩
    | .ok globals => turnsFrom m.encounter.strategy globals limit limit.toNat 1 fight
  course.after [.opening m.encounter.name fight.party.length]

/-! ## Bouts -/

/-- An encounter that is being fought, perhaps over more than one play. -/
structure Bout (ρ : Type) where
  matchup : Matchup
  fight : Fight ρ
  logging : Bool
  /-- What was logged so far. -/
  log : String

/-- A bout before its first play. -/
def Matchup.bout (m : Matchup) (dice : ρ) (logging : Bool) : Bout ρ :=
  ⟨m, .start m dice, logging, ""⟩

/-- Plays a bout: the ending of the play, and the bout after it. -/
def Bout.play [Dice ρ] (bout : Bout ρ) (limit : UInt32) : Ending × Bout ρ :=
  let course := bout.matchup.play limit bout.fight
  (course.ending,
    { bout with
      fight := course.fight
      log := if bout.logging then bout.log ++ logText course.events else bout.log })

/-- A matchup as a loadout: the seed of a stage is the seed of its dice. -/
def Matchup.loadout (m : Matchup) : Loadout where
  perform seed logging maxTurns :=
    let (ending, bout) := (m.bout (Stream.ofSeed seed) logging).play maxTurns
    .ended ending bout.log

end Arena
end CombatTrials
