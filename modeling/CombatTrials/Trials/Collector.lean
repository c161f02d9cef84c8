import CombatTrials.Stage.Loadout
import CombatTrials.Trials.Selector
import CombatTrials.Trials.Snapshot

/-!
# Collecting the reports of a job

A `Collector` counts the reports of a job as they come in and keeps track of the run that represents
it. It publishes a snapshot whenever the number of reports reaches a multiple of its interval, and
one more at the end: `finish` when every report came in, `fail` when there were too few. Publishing
is the caller's part; the operations answer the snapshot to publish.
-/

namespace CombatTrials
namespace Trials

open Stage (Loadout)

/-- The stream of reports ended early. -/
structure Shortfall where
  received : UInt32
  expected : UInt32
  deriving DecidableEq, Repr

/-- A shortfall in words. -/
def Shortfall.message (s : Shortfall) : String :=
  s!"result stream closed after {s.received} of {s.expected} iterations"

/-- What was collected of a job. -/
structure Collector where
  /-- How many reports the job has. -/
  expected : UInt32
  /-- Progress is published every so many reports. -/
  interval : UInt32
  completed : UInt32
  histogram : Histogram
  selector : Selector
  deriving DecidableEq, Repr

namespace Collector

/-- A collector before any report. An interval of zero counts as one. -/
def start (expected interval : UInt32) : Collector := ⟨expected, max 1 interval, 0, {}, {}⟩

/-- The snapshot of what was collected. -/
def snapshot (c : Collector) : Snapshot := .progress c.expected c.completed c.histogram

/-- Counts a report: the collector after it, and the snapshot to publish if one is due. -/
def record (c : Collector) (report : Report) : Collector × Option Snapshot :=
  let c := { c with
    completed := c.completed + 1
    histogram := c.histogram.record (.ofEnding report.ending)
    selector := c.selector.offer report }
  (c, if c.completed % c.interval = 0 then some c.snapshot else none)

/-- Counts reports one after the other: the collector after them, and the snapshots to publish. -/
def recordAll (c : Collector) : List Report → Collector × List Snapshot
  | [] => (c, [])
  | report :: rest =>
    let (c, due) := c.record report
    let (c, later) := c.recordAll rest
    (c, due.toList ++ later)

/-- Whether more reports are expected. -/
def isWaiting (c : Collector) : Bool := c.completed < c.expected

/-- What consuming a stream of reports comes to. -/
structure Consumption where
  collector : Collector
  published : List Snapshot
  /-- The reports that were left in the stream. -/
  left : List Report
  shortfall : Option Shortfall

/-- Counts the reports of a stream until no more are expected. -/
def consume (c : Collector) : List Report → Consumption
  | [] => ⟨c, [], [], if c.isWaiting then some ⟨c.completed, c.expected⟩ else none⟩
  | report :: rest =>
    if c.isWaiting then
      let (c, due) := c.record report
      let later := c.consume rest
      { later with published := due.toList ++ later.published }
    else ⟨c, [], report :: rest, none⟩

/-- The last snapshot of a job all of whose reports came in: the run that represents it is played
once more, with a log. -/
def finish (c : Collector) (loadout : Loadout) (maxTurns : UInt32) : Snapshot :=
  match c.selector.selected with
  | none => c.snapshot.withLog ""
  | some best =>
    let (ending, log) := loadout.replay best.seed maxTurns
    let snapshot := c.snapshot.withLog s!"Iteration {best.index + 1}\n{log}"
    match ending.fault? with
    | some fault => snapshot.withError fault.diagnosis
    | none => snapshot

/-- The last snapshot of a job whose reports ended early. -/
def fail (c : Collector) (shortfall : Shortfall) : Snapshot :=
  c.snapshot.withError shortfall.message

end Collector
end Trials
end CombatTrials
