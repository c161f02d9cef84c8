import CombatTrials.Stage.Ending

/-!
# What can be played

Those who run trials know a `Loadout` by one thing only: what comes of playing a new stage of it, as
a function of the seed, of whether a log is kept and of the turn limit. A play may also crash. A
crash is caught where the play was started and becomes a fault of that play, so `Loadout.outcome`
and `Loadout.replay` always have an ending to answer.
-/

namespace CombatTrials
namespace Stage

/-- What a crash carries: a message, or something that is not text. -/
inductive Crash where
  | message (text : String)
  | silent
  deriving DecidableEq, Repr

/-- A crash in words. -/
def Crash.text : Crash → String
  | .message text => text
  | .silent => "unknown panic payload"

/-- What came of one play. -/
inductive Performance where
  | ended (ending : Ending) (log : String)
  | crashed (crash : Crash)
  deriving DecidableEq, Repr

/-- A team that stages can be created of. -/
structure Loadout where
  /-- Plays a new stage. -/
  perform : (seed : UInt64) → (logging : Bool) → (maxTurns : UInt32) → Performance

/-- The ending of a play; a crash is a fault. -/
def Performance.ending : Performance → Ending
  | .ended ending _ => ending
  | .crashed crash => .fault (.crashed crash.text)

/-- The log of a play; a crash leaves one line in place of what was logged before it. -/
def Performance.log : Performance → String
  | .ended _ log => log
  | .crashed crash => "Stage panicked: " ++ crash.text ++ "\n"

namespace Loadout

/-- How a stage ends when it is played without a log. -/
def outcome (loadout : Loadout) (seed : UInt64) (maxTurns : UInt32) : Ending :=
  (loadout.perform seed false maxTurns).ending

/-- A play with a log. -/
def replay (loadout : Loadout) (seed : UInt64) (maxTurns : UInt32) : Ending × String :=
  let performance := loadout.perform seed true maxTurns
  (performance.ending, performance.log)

end Loadout
end Stage
end CombatTrials
