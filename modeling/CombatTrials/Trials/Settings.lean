import CombatTrials.Data.File
import CombatTrials.Data.Format
import CombatTrials.Text.Json

/-!
# Settings of a simulator

How the work of jobs is spread: the size of the pool, how many iterations make one task, how many
results may wait to be counted, how often progress is published. None of it shows in the result of a
job, unless so many results may wait that no lane can hold them.

In data files every setting may be left out.
-/

namespace CombatTrials
namespace Trials

open Data (Format FileProblem defaulted)
open Text (Json)

/-- The settings of a simulator. -/
structure Settings where
  /-- The number of workers; without one it depends on the host. -/
  workers : Option UInt64 := none
  /-- Threads of the host that are left free when the number of workers depends on it. -/
  workerReserve : UInt64 := 2
  /-- Iterations of one task. -/
  chunkSize : UInt64 := 10000
  /-- Results that may wait to be counted. -/
  channelCapacity : UInt64 := 10000
  /-- Progress is published every so many results. -/
  updateInterval : UInt32 := 10000
  deriving DecidableEq, Repr

namespace Settings

instance : Inhabited Settings := ⟨{}⟩

/-- The number of workers on a host with some number of threads, at least one. -/
def workerCount (s : Settings) (hostThreads : Nat) : Nat :=
  max 1 (match s.workers with
    | some n => n.toNat
    | none => hostThreads - s.workerReserve.toNat)

/-- Settings of a data file. -/
def read? {δ : Type} (f : Format δ) (d : δ) : Option Settings := do
  let fields ← f.fields? "SimulatorConfig"
    ["workers", "worker_reserve", "chunk_size", "channel_capacity", "update_interval"] 0 d
  let standard : Settings := {}
  let workers ← defaulted fields "workers" standard.workers (f.optionalOf? f.word64?)
  let reserve ← defaulted fields "worker_reserve" standard.workerReserve f.word64?
  let chunk ← defaulted fields "chunk_size" standard.chunkSize f.word64?
  let capacity ← defaulted fields "channel_capacity" standard.channelCapacity f.word64?
  return ⟨workers, reserve, chunk, capacity,
    ← defaulted fields "update_interval" standard.updateInterval f.word32?⟩

/-- Settings as JSON. -/
def toJson (s : Settings) : Json :=
  .object [
    ("workers", match s.workers with
      | some n => .natural n.toNat
      | none => .null),
    ("worker_reserve", .natural s.workerReserve.toNat),
    ("chunk_size", .natural s.chunkSize.toNat),
    ("channel_capacity", .natural s.channelCapacity.toNat),
    ("update_interval", .natural s.updateInterval.toNat)]

/-- Why a settings file yielded no settings, in words. -/
def problemMessage (path : String) : FileProblem → String
  | .missing => s!"Config file not found: {path}"
  | .unreadable => s!"Failed to read config file: {path}"
  | .malformed => s!"Failed to parse config: {path}"

end Settings
end Trials
end CombatTrials
