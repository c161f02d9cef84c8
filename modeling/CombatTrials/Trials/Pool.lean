import CombatTrials.Data.Sum
import CombatTrials.Stage.Loadout
import CombatTrials.Trials.Selector

/-!
# The worker pool

The trials of a job are cut into chunks, and each chunk is a task for one worker, which plays its
trials one after the other and sends a report of each on the job's lane. A lane holds a bounded
number of reports that nobody has received; a worker that finds its lane full waits, so results
cannot pile up however far the workers are ahead.

Workers run side by side, in any order. The pool is therefore a state with `Move`s: `move?` says
what a move does and that it is not possible in other states. Every order in which work can go on is
a sequence of moves, and `advance?` picks one move of those possible, so that a pool can also be
run.

Every move, and every `receive?`, takes one off `effort`. So work ends, whatever the order.
-/

namespace CombatTrials
namespace Trials

open Stage (Loadout)

/-- A list cut into pieces of `n + 1` items, the last one perhaps shorter. -/
def chunksOf {α : Type} (n : Nat) : List α → List (List α)
  | [] => []
  | a :: rest => (a :: rest.take n) :: chunksOf n (rest.drop n)
termination_by l => l.length
decreasing_by simp only [List.length_drop, List.length_cons]; omega

/-- The channel of one job. -/
structure Lane where
  loadout : Loadout
  maxTurns : UInt32
  /-- How many reports it can hold; a capacity of zero counts as one. -/
  capacity : Nat
  /-- The reports in it, the oldest first. -/
  queue : List Report

namespace Lane

/-- A lane without reports. -/
def empty (loadout : Loadout) (maxTurns : UInt32) (capacity : Nat) : Lane :=
  ⟨loadout, maxTurns, max 1 capacity, []⟩

/-- The bytes that one place of a lane takes. -/
def placeSize : Nat := 88

/-- Whether a lane of some capacity can be made at all. Its places are set up with it, and their
bytes have to be counted by a signed number of sixty-four bits. -/
def canBeMade (capacity : Nat) : Bool := max 1 capacity * placeSize < UInt64.size / 2

/-- Whether another report can be sent. -/
def hasRoom (lane : Lane) : Bool := lane.queue.length < lane.capacity

/-- Plays a trial without a log. -/
def play (lane : Lane) (trial : Trial) : Report :=
  ⟨trial, lane.loadout.outcome trial.seed lane.maxTurns⟩

end Lane

/-- Trials that one worker plays for the lane of some number. -/
structure Task where
  lane : Nat
  trials : List Trial

/-- How many moves a task takes, the taking of it and the receiving of its reports included. -/
def Task.effort (task : Task) : Nat := 3 * task.trials.length + 1

/-- What a worker is doing. -/
inductive Worker where
  | idle
  | playing (lane : Nat) (trial : Trial) (rest : List Trial)
  | sending (lane : Nat) (report : Report) (rest : List Trial)

namespace Worker

/-- A worker of a lane with some trials to play. -/
def on (lane : Nat) : List Trial → Worker
  | [] => .idle
  | trial :: rest => .playing lane trial rest

/-- Whether a worker is busy for a lane. -/
def isOn (lane : Nat) : Worker → Bool
  | .idle => false
  | .playing l _ _ => l == lane
  | .sending l _ _ => l == lane

/-- How many moves the work of a worker still takes, the receiving of its reports included. -/
def effort : Worker → Nat
  | .idle => 0
  | .playing _ _ rest => 3 * (rest.length + 1)
  | .sending _ _ rest => 3 * rest.length + 2

end Worker

/-- Workers, the tasks that none of them has taken, and the lanes they report on. -/
structure Pool where
  workers : List Worker
  tasks : List Task
  lanes : List Lane

namespace Pool

/-- A pool of at least one worker, with nothing to do. -/
def start (workers : Nat) : Pool := ⟨List.replicate (max 1 workers) .idle, [], []⟩

/-- Adds a lane for a job; its number is the number of lanes before it. -/
def addLane (p : Pool) (lane : Lane) : Nat × Pool :=
  (p.lanes.length, { p with lanes := p.lanes ++ [lane] })

/-- Adds the trials of a lane in chunks. A chunk size of zero counts as one. -/
def dispatch (p : Pool) (lane : Nat) (trials : List Trial) (chunkSize : Nat) : Pool :=
  { p with tasks := p.tasks ++ (chunksOf (chunkSize - 1) trials).map fun chunk => ⟨lane, chunk⟩ }

/-! ## Moves -/

/-- What a worker can do next. -/
inductive Move where
  /-- A worker without work takes the task at some place. -/
  | take (worker task : Nat)
  /-- A worker plays the trial it is at. -/
  | play (worker : Nat)
  /-- A worker sends its report. -/
  | send (worker : Nat)
  deriving DecidableEq, Repr

/-- The pool after a move, where the move is possible. -/
def move? (p : Pool) : Move → Option Pool
  | .take w t => do
    let .idle ← p.workers[w]? | none
    let task ← p.tasks[t]?
    return { p with
      workers := p.workers.set w (.on task.lane task.trials)
      tasks := p.tasks.eraseIdx t }
  | .play w => do
    let .playing lane trial rest ← p.workers[w]? | none
    let channel ← p.lanes[lane]?
    return { p with workers := p.workers.set w (.sending lane (channel.play trial) rest) }
  | .send w => do
    let .sending lane report rest ← p.workers[w]? | none
    let channel ← p.lanes[lane]?
    if channel.hasRoom then
      return { p with
        workers := p.workers.set w (.on lane rest)
        lanes := p.lanes.set lane { channel with queue := channel.queue ++ [report] } }
    else none

/-- Takes the oldest report out of a lane. -/
def receive? (p : Pool) (lane : Nat) : Option (Report × Pool) := do
  let channel ← p.lanes[lane]?
  match channel.queue with
  | [] => none
  | report :: queue =>
    return (report, { p with lanes := p.lanes.set lane { channel with queue := queue } })

/-- Whether nobody is left who could send on a lane. -/
def isAbandoned (p : Pool) (lane : Nat) : Bool :=
  !p.tasks.any (·.lane == lane) && !p.workers.any (·.isOn lane)

/-- How many moves the work of a pool still takes, the receiving of reports included. -/
def effort (p : Pool) : Nat :=
  Data.sumOf Task.effort p.tasks + Data.sumOf Worker.effort p.workers +
    Data.sumOf (fun lane => lane.queue.length) p.lanes

/-! ## Running a pool -/

/-- The first possible move of the workers from the one of number `w` on. -/
def firstMove? (p : Pool) (w : Nat) : List Worker → Option Move
  | [] => none
  | .idle :: rest => if p.tasks.isEmpty then firstMove? p (w + 1) rest else some (.take w 0)
  | .playing .. :: _ => some (.play w)
  | .sending lane _ _ :: rest =>
    match p.lanes[lane]? with
    | some channel => if channel.hasRoom then some (.send w) else firstMove? p (w + 1) rest
    | none => firstMove? p (w + 1) rest

/-- The pool after one of the moves that are possible. -/
def advance? (p : Pool) : Option Pool := do p.move? (← p.firstMove? 0 p.workers)

/-- Receives the reports of a lane for some number of moves. -/
def drainFor (lane : Nat) : Nat → Pool → List Report
  | 0, _ => []
  | n + 1, p =>
    match p.receive? lane with
    | some (report, p) => report :: drainFor lane n p
    | none =>
      match p.advance? with
      | some p => drainFor lane n p
      | none => []

/-- All reports of a lane, in the order in which they are received. -/
def drain (p : Pool) (lane : Nat) : List Report := drainFor lane p.effort p

end Pool
end Trials
end CombatTrials
