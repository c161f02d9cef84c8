import CombatTrials.Stage.Inspect
import CombatTrials.Trials.Request

/-!
# Loadouts with known endings

For trying out the running of trials without a fight: stages whose ending can be read off the seed,
and setups that fail or crash. `duel` is a small encounter that can be fought for real.
-/

namespace CombatTrials
namespace Fixture

open Stage (Ending Crash Loadout)
open Trials (Setup)

/-! ## Scripted stages -/

/-- The ending of a scripted stage. By the last digit of the seed, one in ten is excluded, four are
won, two run out of turns, two are lost and one fails; the digits before it give the turn. -/
def endingOf (seed : UInt64) : Ending :=
  let turn : UInt32 := (seed / 10 % 30).toUInt32 + 1
  match (seed % 10).toNat with
  | 0 => .excluded
  | 1 | 2 | 3 | 4 => .victory turn
  | 5 | 6 => .outOfTurns
  | 7 | 8 => .wipe turn
  | _ => .fault (.engine s!"scripted failure for seed {seed}")

/-- The log of a scripted stage. -/
def scriptedLog (seed : UInt64) : String :=
  s!"Scripted stage for seed {seed}\nOutcome: " ++ (endingOf seed).inspect ++ "\n"

/-- A stage with a known ending. -/
structure ScriptedStage where
  seed : UInt64
  logging : Bool
  log : String := ""

/-- Plays a scripted stage. The log of a play takes the place of the one before it. -/
def ScriptedStage.play (s : ScriptedStage) : Ending × ScriptedStage :=
  (endingOf s.seed, if s.logging then { s with log := scriptedLog s.seed } else s)

/-- Scripted stages, one of which may crash. -/
def scripted (crashOn : Option UInt64) : Loadout where
  perform seed logging _ :=
    if crashOn = some seed then .crashed (.message s!"scripted panic for seed {seed}")
    else
      let (ending, stage) := (ScriptedStage.mk seed logging "").play
      .ended ending stage.log

/-- Stages that all crash. -/
def crashing (crash : Crash) : Loadout where
  perform _ _ _ := .crashed crash

/-- A setup that fails. -/
def failing (message : String) : Setup := .failed (.invalidLoadout message)

/-! ## A duel -/

/-- Two against a boss, with a strategy that heals whoever falls below a third of its hit points. -/
def duel : Arena.Encounter where
  name := "Fixture Duel"
  party := [⟨"Claudine", 900, 140, 20⟩, ⟨"Maya", 1000, 150, 25⟩]
  boss := ⟨"Giraffe", 3000, 180, 30⟩
  strategy := some (.ofBody (.switch none [
    .matching [.lessThan (.access (.identifier "weakest") "hp_ratio") (.number 0.3)]
      (.invoke "heal"),
    .default (.invoke "attack")]))

end Fixture
end CombatTrials
