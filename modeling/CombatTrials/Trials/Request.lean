import CombatTrials.Arena.Play

/-!
# Requests for jobs

What a job needs to be run: the limits, the master seed and a loadout that is yet to be built.
Building takes place in the job, so a loadout that cannot be built ends the job and not the request.
-/

namespace CombatTrials
namespace Trials

open Data (Format required)
open Stage (Loadout)

/-- Why a loadout cannot be built. -/
inductive SetupFault where
  /-- There is no matchup to fight. -/
  | arena (fault : Arena.Fault)
  | invalidLoadout (message : String)
  deriving DecidableEq, Repr

namespace SetupFault

/-- A fault in words, without its cause. -/
def message : SetupFault → String
  | .arena _ => "invalid arena loadout"
  | .invalidLoadout m => s!"invalid loadout: {m}"

/-- What caused a fault. -/
def causes : SetupFault → List String
  | .arena fault => [fault.message]
  | .invalidLoadout _ => []

/-- A fault in words, with its cause. -/
def diagnosis (fault : SetupFault) : String := Stage.diagnosis fault.message fault.causes

end SetupFault

/-- What comes of building a loadout. -/
inductive Setup where
  | built (loadout : Loadout)
  | failed (fault : SetupFault)
  | crashed

/-- Building the loadout of an encounter. -/
def Setup.ofEncounter (e : Arena.Encounter) : Setup :=
  match e.build with
  | .ok matchup => .built matchup.loadout
  | .error defect => .failed (.arena (.defect defect))

/-- A request for a job with some kind of loadout. -/
structure Request (φ : Type) where
  maxTurns : UInt32 := 30
  maxIterations : UInt32 := 1
  seed : UInt64 := 0
  loadout : φ

/-- A request of a data file. -/
def Request.read? {δ φ : Type} (f : Format δ) (loadout? : δ → Option φ) (d : δ) :
    Option (Request φ) := do
  let fields ←
    f.fields? "SimulationParameters" ["max_turns", "max_iterations", "seed", "loadout"] 4 d
  let maxTurns ← required fields "max_turns" f.word32?
  let maxIterations ← required fields "max_iterations" f.word32?
  let seed ← required fields "seed" f.word64?
  return ⟨maxTurns, maxIterations, seed, ← required fields "loadout" loadout?⟩

end Trials
end CombatTrials
