import CombatTrials.Script.Failure

/-!
# How a stage ends

Playing a stage ends in one of five ways. Four are decided by the fight and its strategy; the fifth
is a `PlayFault`, which ends this one play and is an outcome like the others, never a reason to play
again.

Faults are put into words with their causes: `diagnosis` is the text that users get to see.
-/

namespace CombatTrials
namespace Stage

/-- An error in words, followed by its causes. -/
def diagnosis (message : String) (causes : List String) : String :=
  message ++ String.join (causes.map ("\ncaused by: " ++ ·))

/-- Why a play broke off. -/
inductive PlayFault where
  /-- The strategy script failed; turn zero is its initializer. -/
  | script (turn : UInt32) (failure : Script.Failure)
  /-- The engine crashed with a message. -/
  | crashed (message : String)
  /-- The engine gave up with a message. -/
  | engine (message : String)
  deriving DecidableEq, Repr

namespace PlayFault

/-- A fault in words, without its cause. -/
def message : PlayFault → String
  | .script turn _ => s!"strategy script failed on turn {turn}"
  | .crashed m => s!"engine panicked: {m}"
  | .engine m => s!"engine failure: {m}"

/-- What caused a fault. -/
def causes : PlayFault → List String
  | .script _ failure => [failure.message]
  | .crashed _ => []
  | .engine _ => []

/-- A fault in words, with its cause. -/
def diagnosis (fault : PlayFault) : String := Stage.diagnosis fault.message fault.causes

end PlayFault

/-- How a play ended. -/
inductive Ending where
  /-- The strategy asked not to count this run. -/
  | excluded
  /-- The boss was defeated on a turn. -/
  | victory (turn : UInt32)
  /-- The turn limit was reached with both sides standing. -/
  | outOfTurns
  /-- The party was defeated on a turn. -/
  | wipe (turn : UInt32)
  /-- The play broke off. -/
  | fault (cause : PlayFault)
  deriving DecidableEq, Repr

/-- The fault of a play that broke off. -/
def Ending.fault? : Ending → Option PlayFault
  | .fault cause => some cause
  | _ => none

end Stage
end CombatTrials
