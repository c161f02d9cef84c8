import CombatTrials.Trials.Collector
import CombatTrials.Trials.Pool
import CombatTrials.Trials.Registry
import CombatTrials.Trials.Request
import CombatTrials.Trials.Settings

/-!
# Simulators

A `Simulator` runs jobs: each has a thread of its own, and all share one pool of workers and one
registry. A job builds its loadout, plays, and publishes its progress under its token, up to one
final snapshot. A job with a single iteration plays it on its own thread; any other number is played
by the pool while the job collects the reports.

Threads run side by side, in any order, and a simulator is a state with `Move`s as the pool is. A
move also answers what was published by it, so what was ever stored under a token can be followed.
`Simulator.run` is one way to play out all jobs that were submitted: it takes one of the possible
moves as long as there is one.
-/

namespace CombatTrials
namespace Trials

open Chance (Stream)
open Stage (Loadout)

/-- How far the thread of a job is. -/
inductive Phase where
  /-- The thread has not started. -/
  | waiting
  /-- The reports of a lane are being collected. -/
  | collecting (loadout : Loadout) (lane : Nat) (collector : Collector)
  /-- The thread is about to end, perhaps in a crash. -/
  | leaving (crashing : Bool)
  | gone

/-- A job that was submitted. -/
structure Job where
  lease : Lease
  request : Request Setup
  phase : Phase

/-- What was published, the earlier first. -/
abbrev Published := List (Token × Snapshot)

/-- A registry after snapshots were published one after the other. -/
def Registry.publishAll (r : Registry) (published : Published) : Registry :=
  published.foldl (fun r (token, snapshot) => r.publish token snapshot) r

/-- Jobs, and what they share. -/
structure Simulator where
  settings : Settings
  registry : Registry
  pool : Pool
  jobs : List Job

namespace Job

/-- The last snapshot of a job with a single iteration, which is played with a log. -/
def single (loadout : Loadout) (seed : UInt64) (maxTurns : UInt32) : Snapshot :=
  let (ending, log) := loadout.replay (singleSeed seed) maxTurns
  let snapshot := (Snapshot.progress 1 1 (.ofList [.ofEnding ending])).withLog log
  match ending.fault? with
  | some fault => snapshot.withError fault.diagnosis
  | none => snapshot

/-- What one move of a job's thread changes: what it publishes, how far it is then, and the pool. -/
structure Change where
  published : List Snapshot
  phase : Phase
  pool : Pool

/-- The thread starts: it builds the loadout and, unless that fails, plays. It crashes if the lane
that it needs cannot be made. -/
def launch (settings : Settings) (pool : Pool) (request : Request Setup) : Change :=
  match request.loadout with
  | .crashed => ⟨[], .leaving true, pool⟩
  | .failed fault => ⟨[.setupFailed request.maxIterations fault.diagnosis], .leaving false, pool⟩
  | .built loadout =>
    if request.maxIterations = 1 then
      ⟨[single loadout request.seed request.maxTurns], .leaving false, pool⟩
    else if !Lane.canBeMade settings.channelCapacity.toNat then ⟨[], .leaving true, pool⟩
    else
      let (lane, pool) :=
        pool.addLane (.empty loadout request.maxTurns settings.channelCapacity.toNat)
      let trials := (Schedule.ofSeed request.seed request.maxIterations).toList
      ⟨[], .collecting loadout lane (.start request.maxIterations settings.updateInterval),
        pool.dispatch lane trials settings.chunkSize.toNat⟩

/-- The thread receives a report, while it waits for one. -/
def receive? (pool : Pool) : Phase → Option Change
  | .collecting loadout lane collector => do
    if collector.isWaiting then
      let (report, pool) ← pool.receive? lane
      let (collector, due) := collector.record report
      return ⟨due.toList, .collecting loadout lane collector, pool⟩
    else none
  | _ => none

/-- The thread stops collecting: because every report is there, or because none can come any
more. -/
def conclude? (pool : Pool) (maxTurns : UInt32) : Phase → Option Change
  | .collecting loadout lane collector =>
    if collector.isWaiting then
      if (pool.receive? lane).isNone && pool.isAbandoned lane then
        let shortfall : Shortfall := ⟨collector.completed, collector.expected⟩
        some ⟨[collector.fail shortfall], .leaving false, pool⟩
      else none
    else some ⟨[collector.finish loadout maxTurns], .leaving false, pool⟩
  | _ => none

/-- How many moves of its own a job still takes at most, and those it will cause in the pool. -/
def effort (job : Job) : Nat :=
  match job.phase with
  | .waiting => 4 * job.request.maxIterations.toNat + 3
  | .collecting .. => 2
  | .leaving _ => 1
  | .gone => 0

end Job

namespace Simulator

/-- A simulator without jobs, whose pool has some number of workers. -/
def start (settings : Settings) (workers : Nat) : Simulator := ⟨settings, {}, .start workers, []⟩

/-- Submits a job under the first of the drawn tokens that is not taken. -/
def submit? (s : Simulator) (drawn : List Token) (request : Request Setup) :
    Option (Token × Simulator) := do
  let (token, registry) ← s.registry.allocate? drawn request.maxIterations
  let (lease, registry) := registry.begin token
  return (token, { s with registry := registry, jobs := s.jobs ++ [⟨lease, request, .waiting⟩] })

/-- Submits jobs one after the other under tokens drawn from a stream: their tokens, and the
simulator with them. -/
def submitAll? (s : Simulator) (stream : Stream) :
    List (Request Setup) → Option (List Token × Simulator)
  | [] => some ([], s)
  | request :: rest => do
    let (drawn, stream) := Token.drawMany (s.registry.tokens.length + 1) stream
    let (token, s) ← s.submit? drawn request
    let (tokens, s) ← s.submitAll? stream rest
    return (token :: tokens, s)

/-! ## Moves -/

/-- What can happen next. The jobs are numbered in the order in which they were submitted. -/
inductive Move where
  /-- A worker of the pool goes on. -/
  | work (move : Pool.Move)
  /-- The thread of a job starts. -/
  | launch (job : Nat)
  /-- The thread of a job cannot be started. -/
  | lose (job : Nat)
  /-- A job receives a report. -/
  | receive (job : Nat)
  /-- A job stops collecting. -/
  | conclude (job : Nat)
  /-- The thread of a job ends. -/
  | leave (job : Nat)
  deriving DecidableEq, Repr

/-- Makes a change to the job of some number. -/
def apply (s : Simulator) (j : Nat) (job : Job) (change : Job.Change) : Published × Simulator :=
  let published := change.published.map fun snapshot => (job.lease.token, snapshot)
  (published, { s with
    registry := s.registry.publishAll published
    pool := change.pool
    jobs := s.jobs.set j { job with phase := change.phase } })

/-- Releases the lease of the job of some number. -/
def close (s : Simulator) (j : Nat) (job : Job) (crashing : Bool) : Published × Simulator :=
  let token := job.lease.token
  ((s.registry.closing? token crashing).toList.map fun snapshot => (token, snapshot),
    { s with
      registry := s.registry.release job.lease crashing
      jobs := s.jobs.set j { job with phase := .gone } })

/-- What a move publishes and the simulator after it, where the move is possible. -/
def move? (s : Simulator) : Move → Option (Published × Simulator)
  | .work m => do
    let pool ← s.pool.move? m
    return ([], { s with pool := pool })
  | .launch j => do
    let job ← s.jobs[j]?
    let .waiting := job.phase | none
    return s.apply j job (Job.launch s.settings s.pool job.request)
  | .lose j => do
    let job ← s.jobs[j]?
    let .waiting := job.phase | none
    return s.close j job false
  | .receive j => do
    let job ← s.jobs[j]?
    return s.apply j job (← Job.receive? s.pool job.phase)
  | .conclude j => do
    let job ← s.jobs[j]?
    return s.apply j job (← Job.conclude? s.pool job.request.maxTurns job.phase)
  | .leave j => do
    let job ← s.jobs[j]?
    let .leaving crashing := job.phase | none
    return s.close j job crashing

/-! ## Running a simulator -/

/-- The first possible move of the jobs from the one of number `j` on. -/
def firstMove? (s : Simulator) (j : Nat) : List Job → Option Move
  | [] => none
  | job :: rest =>
    match job.phase with
    | .waiting => some (.launch j)
    | .leaving _ => some (.leave j)
    | .gone => firstMove? s (j + 1) rest
    | .collecting .. =>
      if (Job.receive? s.pool job.phase).isSome then some (.receive j)
      else if (Job.conclude? s.pool job.request.maxTurns job.phase).isSome then some (.conclude j)
      else firstMove? s (j + 1) rest

/-- One of the possible moves: of a job if there is one, else of the pool. -/
def nextMove? (s : Simulator) : Option Move :=
  match s.firstMove? 0 s.jobs with
  | some move => some move
  | none => (s.pool.firstMove? 0 s.pool.workers).map .work

/-- How many moves there can still be. -/
def effort (s : Simulator) : Nat := s.pool.effort + Data.sumOf Job.effort s.jobs

/-- Goes on for some number of moves. -/
def runFor : Nat → Simulator → Simulator
  | 0, s => s
  | n + 1, s =>
    match s.nextMove?.bind s.move? with
    | none => s
    | some (_, s) => runFor n s

/-- Plays out all jobs. -/
def run (s : Simulator) : Simulator := runFor s.effort s

end Simulator
end Trials
end CombatTrials
