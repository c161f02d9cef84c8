import CombatTrials.Stage.Ending
import CombatTrials.Trials.Schedule

/-!
# The run that represents a job

One iteration of a job is reported in full: the most severe one, and among equally severe ones the
one with the least index. The choice does not depend on the order in which iterations are offered.
-/

namespace CombatTrials
namespace Trials

open Stage (Ending)

/-- How much an ending deserves to be reported. -/
def severity : Ending → Nat
  | .excluded => 0
  | .victory _ => 1
  | .outOfTurns => 2
  | .wipe _ => 3
  | .fault _ => 4

/-- What came of a trial. -/
structure Report where
  trial : Trial
  ending : Ending
  deriving DecidableEq, Repr

/-- The best candidate so far, with its severity. -/
structure Selector where
  best : Option (Nat × Trial) := none
  deriving DecidableEq, Repr

namespace Selector

/-- Whether a report would replace the best candidate. -/
def prefers (s : Selector) (report : Report) : Bool :=
  match s.best with
  | none => true
  | some (rank, trial) =>
    rank < severity report.ending ||
      (severity report.ending == rank && report.trial.index < trial.index)

/-- Considers a report. -/
def offer (s : Selector) (report : Report) : Selector :=
  if s.prefers report then ⟨some (severity report.ending, report.trial)⟩ else s

/-- The trial that was chosen, if any was offered. -/
def selected (s : Selector) : Option Trial := s.best.map Prod.snd

end Selector
end Trials
end CombatTrials
