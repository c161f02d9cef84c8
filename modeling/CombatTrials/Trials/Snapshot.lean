import CombatTrials.Trials.Histogram

/-!
# Snapshots

A `Snapshot` says how far a job is. It is never edited: progress is a new snapshot that replaces the
one before it. A job is over with the first snapshot that is final, which has a log, or an error, or
says that the job was cancelled.

In JSON all fields are written, in the order of their declaration, and what is absent is null.
-/

namespace CombatTrials
namespace Trials

open Data (Format required defaulted)
open Text (Json)

/-- How far a job is. -/
structure Snapshot where
  /-- Iterations asked for. -/
  maxIterations : UInt32
  /-- Iterations counted. -/
  completedIterations : UInt32
  histogram : List Entry
  /-- The log of the run that represents the job. -/
  fullLog : Option String
  /-- Whether the job ended before any iteration. -/
  cancelled : Bool
  /-- What went wrong with the job or with the run that represents it. -/
  error : Option String
  deriving DecidableEq, Repr

/-- The log of a job that could not be set up. -/
def setupFailureLog : String := "Error occurred during setup."

namespace Snapshot

/-- A job that has not begun. -/
def pending (maxIterations : UInt32) : Snapshot := ⟨maxIterations, 0, [], none, false, none⟩

/-- A job that counted some iterations. -/
def progress (maxIterations completed : UInt32) (histogram : Histogram) : Snapshot :=
  { pending maxIterations with completedIterations := completed, histogram := histogram.entries }

/-- A job that could not be set up. -/
def setupFailed (maxIterations : UInt32) (diagnosis : String) : Snapshot :=
  { pending maxIterations with
    fullLog := some setupFailureLog, cancelled := true, error := some diagnosis }

/-- The snapshot with a log. -/
def withLog (s : Snapshot) (log : String) : Snapshot := { s with fullLog := some log }

/-- The snapshot with an error. -/
def withError (s : Snapshot) (error : String) : Snapshot := { s with error := some error }

/-- The sum of the counts. -/
def total (s : Snapshot) : UInt64 := Entry.total s.histogram

/-- How often an outcome occurred. -/
def count (s : Snapshot) (outcome : Outcome) : UInt64 := Entry.countIn s.histogram outcome

/-- Whether every iteration asked for was counted. -/
def isComplete (s : Snapshot) : Bool := s.maxIterations ≤ s.completedIterations

/-- Whether no other snapshot follows. -/
def isFinal (s : Snapshot) : Bool := s.cancelled || s.fullLog.isSome || s.error.isSome

/-- The share of the iterations that were counted. -/
def progressRatio (s : Snapshot) : Float :=
  Float.ofNat s.completedIterations.toNat / Float.ofNat (max 1 s.maxIterations.toNat)

/-! ## JSON -/

/-- The names of the fields, in the order of their declaration. -/
def fieldNames : List String :=
  ["max_iterations", "completed_iterations", "histogram", "full_log", "cancelled", "error"]

/-- The fields as JSON, in the order of their declaration. -/
def fieldValues (s : Snapshot) : List Json :=
  [.natural s.maxIterations.toNat, .natural s.completedIterations.toNat,
    .list (s.histogram.map Entry.toJson), Json.ofText? s.fullLog, .boolean s.cancelled,
    Json.ofText? s.error]

/-- A snapshot as JSON. -/
def toJson (s : Snapshot) : Json := .object (fieldNames.zip s.fieldValues)

/-- A snapshot of a data file. Without the names of the fields, all of them are needed. -/
def read? {δ : Type} (f : Format δ) (d : δ) : Option Snapshot := do
  let fields ← f.fields? "" fieldNames fieldNames.length d
  let maxIterations ← required fields "max_iterations" f.word32?
  let completed ← required fields "completed_iterations" f.word32?
  let histogram ← required fields "histogram" (f.listOf? (Entry.read? f))
  let fullLog ← defaulted fields "full_log" none (f.optionalOf? f.text?)
  let cancelled ← required fields "cancelled" f.boolean?
  return ⟨maxIterations, completed, histogram, fullLog, cancelled,
    ← defaulted fields "error" none (f.optionalOf? f.text?)⟩

end Snapshot
end Trials
end CombatTrials
