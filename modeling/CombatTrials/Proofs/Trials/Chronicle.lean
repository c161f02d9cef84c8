import CombatTrials.Proofs.Data.Ledger
import CombatTrials.Trials.Simulator

/-!
# What happened to a simulator

A simulator only knows where it is. What is claimed of jobs is claimed of everything that led there:
every snapshot that was ever stored under a token, every report that a job received. A `Chronicle`
is a simulator together with that. It goes on whenever the simulator does, by any move that is
possible or by a submission, so `Reachable` are the simulators that any order of threads and workers
can lead to, for any jobs, whenever they are submitted.

The chronicle keeps what a move answers and what a submission publishes. That this is all there is
to be seen in the registry is `Reachable.snapshots_eq`: the ledger of snapshots is what comes of
writing the stored ones one after the other.
-/

namespace CombatTrials
namespace Trials

open Data (Ledger)
open Data.Ledger (entriesOf entriesOf_append entriesOf_map_self entriesOf_map_ne ofList_append
  find?_ofList)

/-! ## Moves of a simulator

A move is a function that may fail. As a relation it has one rule for each kind of move, with the
phase that the job has to be in, and proofs about moves are by cases on that. -/

namespace Simulator

/-- A move of a simulator, by what it does. -/
inductive Step (s : Simulator) : Move → Published × Simulator → Prop
  | work {m : Pool.Move} {pool : Pool} (hm : s.pool.move? m = some pool) :
      Step s (.work m) ([], { s with pool := pool })
  | launch {j : Nat} {job : Job} (hj : s.jobs[j]? = some job) (hp : job.phase = .waiting) :
      Step s (.launch j) (s.apply j job (Job.launch s.settings s.pool job.request))
  | lose {j : Nat} {job : Job} (hj : s.jobs[j]? = some job) (hp : job.phase = .waiting) :
      Step s (.lose j) (s.close j job false)
  | receive {j : Nat} {job : Job} {change : Job.Change} (hj : s.jobs[j]? = some job)
      (hc : Job.receive? s.pool job.phase = some change) :
      Step s (.receive j) (s.apply j job change)
  | conclude {j : Nat} {job : Job} {change : Job.Change} (hj : s.jobs[j]? = some job)
      (hc : Job.conclude? s.pool job.request.maxTurns job.phase = some change) :
      Step s (.conclude j) (s.apply j job change)
  | leave {j : Nat} {job : Job} {crashing : Bool} (hj : s.jobs[j]? = some job)
      (hp : job.phase = .leaving crashing) : Step s (.leave j) (s.close j job crashing)

/-- Whatever a simulator does is one of these, with everything that has to be so for it to happen.
-/
theorem step_of_move {s : Simulator} {m : Move} {after : Published × Simulator}
    (h : s.move? m = some after) : Step s m after := by
  cases m with
  | work m =>
    obtain ⟨pool, hm, h⟩ := Option.bind_eq_some_iff.mp h
    exact Option.some.inj h ▸ Step.work hm
  -- a job that waits can be launched or lost, and no other can
  | launch j =>
    obtain ⟨job, hj, h⟩ := Option.bind_eq_some_iff.mp h
    cases hp : job.phase with
    | waiting =>
      rw [hp] at h
      exact Option.some.inj h ▸ Step.launch hj hp
    | collecting | leaving | gone => simp [hp] at h
  | lose j =>
    obtain ⟨job, hj, h⟩ := Option.bind_eq_some_iff.mp h
    cases hp : job.phase with
    | waiting =>
      rw [hp] at h
      exact Option.some.inj h ▸ Step.lose hj hp
    | collecting | leaving | gone => simp [hp] at h
  | receive j =>
    obtain ⟨job, hj, h⟩ := Option.bind_eq_some_iff.mp h
    obtain ⟨change, hc, h⟩ := Option.bind_eq_some_iff.mp h
    exact Option.some.inj h ▸ Step.receive hj hc
  | conclude j =>
    obtain ⟨job, hj, h⟩ := Option.bind_eq_some_iff.mp h
    obtain ⟨change, hc, h⟩ := Option.bind_eq_some_iff.mp h
    exact Option.some.inj h ▸ Step.conclude hj hc
  | leave j =>
    obtain ⟨job, hj, h⟩ := Option.bind_eq_some_iff.mp h
    cases hp : job.phase with
    | leaving crashing =>
      rw [hp] at h
      exact Option.some.inj h ▸ Step.leave hj hp
    | waiting | collecting | gone => simp [hp] at h

/-- And each of these is what a simulator does. -/
theorem Step.move {s : Simulator} {m : Move} {after : Published × Simulator} (h : Step s m after) :
    s.move? m = some after := by
  cases h with
  | work hm => simp [move?, hm]
  | launch hj hp | lose hj hp | leave hj hp => simp [move?, hj, hp]
  | receive hj hc | conclude hj hc => simp [move?, hj, hc]

/-- The report that a move takes out of the pool, with the number of the job that receives it. -/
def delivery? (s : Simulator) : Move → Option (Nat × Report)
  | .receive j => do
    let job ← s.jobs[j]?
    let .collecting _ lane _ := job.phase | none
    let (report, _) ← s.pool.receive? lane
    return (j, report)
  | _ => none

end Simulator

/-! ## Chronicles

A chronicle is never read by the simulator. It only remembers, so that more can be said than what
the present state shows. -/

/-- A simulator and what happened to it, the earlier first. -/
structure Chronicle where
  now : Simulator
  moves : List Simulator.Move
  /-- Every snapshot that was stored, under its token. -/
  stored : Published
  /-- Every report that was received, with the number of the job that received it. -/
  received : List (Nat × Report)

namespace Chronicle

/-- A simulator that was just started, to which nothing has happened. -/
def start (settings : Settings) (workers : Nat) : Chronicle := ⟨.start settings workers, [], [], []⟩

/-- The snapshots that were stored under a token, the earlier first. -/
def storedUnder (c : Chronicle) (token : Token) : List Snapshot := entriesOf token c.stored

/-- The reports that a job received, the earlier first. -/
def receivedBy (c : Chronicle) (j : Nat) : List Report := entriesOf j c.received

section Growth

variable {c c' : Chronicle}

-- what is stored for one token is seen under that one only, and so with what jobs receive

theorem storedUnder_self {token : Token} {published : List Snapshot}
    (h : c'.stored = c.stored ++ published.map fun snapshot => (token, snapshot)) :
    c'.storedUnder token = c.storedUnder token ++ published := by
  unfold storedUnder
  rw [h, entriesOf_append, entriesOf_map_self]

theorem storedUnder_ne {token token' : Token} {published : List Snapshot}
    (h : c'.stored = c.stored ++ published.map fun snapshot => (token, snapshot))
    (hne : token ≠ token') : c'.storedUnder token' = c.storedUnder token' := by
  unfold storedUnder
  rw [h, entriesOf_append, entriesOf_map_ne hne, List.append_nil]

theorem receivedBy_self {j : Nat} {reports : List Report}
    (h : c'.received = c.received ++ reports.map fun report => (j, report)) :
    c'.receivedBy j = c.receivedBy j ++ reports := by
  unfold receivedBy
  rw [h, entriesOf_append, entriesOf_map_self]

theorem receivedBy_ne {j k : Nat} {reports : List Report}
    (h : c'.received = c.received ++ reports.map fun report => (j, report)) (hne : j ≠ k) :
    c'.receivedBy k = c.receivedBy k := by
  unfold receivedBy
  rw [h, entriesOf_append, entriesOf_map_ne hne, List.append_nil]

end Growth

/-- A submission, with the tokens that are drawn for it. -/
def submit? (c : Chronicle) (drawn : List Token) (request : Request Setup) : Option Chronicle := do
  let (token, s) ← c.now.submit? drawn request
  return { c with now := s, stored := c.stored ++ [(token, .pending request.maxIterations)] }

/-- A move of the simulator, written down with what it publishes and delivers. -/
def move? (c : Chronicle) (m : Simulator.Move) : Option Chronicle := do
  let (published, s) ← c.now.move? m
  return ⟨s, c.moves ++ [m], c.stored ++ published, c.received ++ (c.now.delivery? m).toList⟩

/-- What can have happened to a simulator of some settings with some number of workers. -/
inductive Reachable (settings : Settings) (workers : Nat) : Chronicle → Prop
  | start : Reachable settings workers (start settings workers)
  | submit {c c' : Chronicle} {drawn : List Token} {request : Request Setup}
      (h : Reachable settings workers c) (hs : c.submit? drawn request = some c') :
      Reachable settings workers c'
  | move {c c' : Chronicle} {m : Simulator.Move} (h : Reachable settings workers c)
      (hm : c.move? m = some c') : Reachable settings workers c'

/-- One move after the other, if all of them are possible. -/
def follow (c : Chronicle) : List Simulator.Move → Option Chronicle
  | [] => some c
  | m :: rest => do (← c.move? m).follow rest

/-- Moves lead from what can have happened to what can have happened. -/
theorem Reachable.follow {settings : Settings} {workers : Nat} {c c' : Chronicle}
    (h : Reachable settings workers c) {moves : List Simulator.Move}
    (hm : c.follow moves = some c') : Reachable settings workers c' := by
  induction moves generalizing c with
  | nil => exact Option.some.inj hm ▸ h
  | cons m rest ih =>
    obtain ⟨next, hnext, hrest⟩ := Option.bind_eq_some_iff.mp hm
    exact ih (h.move hnext) hrest

/-! ## What a submission does

A submission is the one event that no thread makes. It takes a token under which nothing is known,
which is why jobs do not get into each other's way. -/

/-- A submission takes a token under which nothing is known, and adds a job that waits. -/
theorem submit?_eq_some {c c' : Chronicle} {drawn : List Token} {request : Request Setup}
    (h : c.submit? drawn request = some c') :
    ∃ lease : Lease, c.now.registry.lookup lease.token = none ∧
      c'.now.settings = c.now.settings ∧ c'.now.pool = c.now.pool ∧
      c'.now.jobs = c.now.jobs ++ [⟨lease, request, .waiting⟩] ∧
      c'.now.registry.snapshots =
        c.now.registry.snapshots.set lease.token (.pending request.maxIterations) ∧
      c'.moves = c.moves ∧
      c'.stored = c.stored ++
        [Snapshot.pending request.maxIterations].map (fun snapshot => (lease.token, snapshot)) ∧
      c'.received = c.received := by
  obtain ⟨⟨token, s⟩, hs, h⟩ := Option.bind_eq_some_iff.mp h
  obtain ⟨⟨token', registry⟩, ha, hs⟩ := Option.bind_eq_some_iff.mp hs
  obtain ⟨found, hf, ha⟩ := Option.bind_eq_some_iff.mp ha
  have ha := Option.some.inj ha
  have hs := Option.some.inj hs
  simp only [Prod.mk.injEq] at ha hs
  obtain ⟨rfl, rfl⟩ := ha
  obtain ⟨rfl, rfl⟩ := hs
  obtain rfl := Option.some.inj h
  -- of the tokens that were drawn, the first under which nothing is known was taken
  have hfree : c.now.registry.lookup found = none := by
    simpa [Ledger.contains, Registry.lookup] using List.find?_some hf
  exact ⟨⟨found, _⟩, hfree, rfl, rfl, rfl, rfl, rfl, rfl, rfl⟩

/-! ## The registry keeps what was stored

The ledger of the registry can be forgotten in favour of the list of what was stored. What is found
under a token is the last that was stored under it. -/

theorem snapshots_publishAll (r : Registry) (published : Published) :
    (r.publishAll published).snapshots =
      published.foldl (fun l (token, snapshot) => l.set token snapshot) r.snapshots := by
  induction published generalizing r with
  | nil => rfl
  | cons first rest ih => exact ih (r.publish first.1 first.2)

theorem snapshots_release (r : Registry) (lease : Lease) (crashing : Bool) :
    (r.release lease crashing).snapshots =
      ((r.closing? lease.token crashing).toList.map fun s => (lease.token, s)).foldl
        (fun l (token, snapshot) => l.set token snapshot) r.snapshots := by
  unfold Registry.release
  cases r.closing? lease.token crashing with
  | none => rfl
  | some snapshot => rfl

/-- Every move writes what it answers, and nothing else. -/
theorem snapshots_of_step {s : Simulator} {m : Simulator.Move} {after : Published × Simulator}
    (h : Simulator.Step s m after) :
    after.2.registry.snapshots =
      after.1.foldl (fun l (token, snapshot) => l.set token snapshot) s.registry.snapshots := by
  cases h with
  | work hm => rfl
  | launch | receive | conclude => exact snapshots_publishAll _ _
  | lose | leave => exact snapshots_release _ _ _

/-- **The registry is what was stored**, written one after the other. -/
theorem Reachable.snapshots_eq {settings : Settings} {workers : Nat} {c : Chronicle}
    (h : Reachable settings workers c) : c.now.registry.snapshots = Ledger.ofList c.stored := by
  induction h with
  | start => rfl
  | submit _ hs ih =>
    obtain ⟨lease, -, -, -, -, hregistry, -, hstored, -⟩ := submit?_eq_some hs
    rw [hregistry, hstored, ofList_append, ih]
    rfl
  | move _ hm ih =>
    obtain ⟨after, hs, hc⟩ := Option.bind_eq_some_iff.mp hm
    rw [← Option.some.inj hc, ofList_append, ← ih]
    exact snapshots_of_step (Simulator.step_of_move hs)

/-- What is known of a token is what was stored last under it. -/
theorem Reachable.lookup_eq {settings : Settings} {workers : Nat} {c : Chronicle}
    (h : Reachable settings workers c) (token : Token) :
    c.now.registry.lookup token = (c.storedUnder token).getLast? := by
  unfold Registry.lookup
  rw [h.snapshots_eq, find?_ofList]
  rfl

/-! ## What stays

Which jobs there are is a matter of submissions. A run is therefore given by the submissions and the
moves, and a job is known by its number throughout. -/

theorem requests_of_step {s : Simulator} {m : Simulator.Move} {after : Published × Simulator}
    (h : Simulator.Step s m after) :
    after.2.jobs.map (fun job => (job.lease, job.request)) =
      s.jobs.map fun job => (job.lease, job.request) := by
  -- a job that goes on changes its phase only
  have hset : ∀ {j : Nat} {job : Job} (phase : Phase), s.jobs[j]? = some job →
      (s.jobs.set j { job with phase := phase }).map (fun job => (job.lease, job.request)) =
        s.jobs.map fun job => (job.lease, job.request) := by
    intro j job phase hj
    obtain ⟨hlt, rfl⟩ := List.getElem?_eq_some_iff.mp hj
    have hlt' : j < (s.jobs.map fun job => (job.lease, job.request)).length := by
      rwa [List.length_map]
    rw [List.map_set]
    simpa using List.set_getElem_self hlt'
  cases h with
  | work hm => rfl
  | launch hj | lose hj | receive hj | conclude hj | leave hj => exact hset _ hj

/-- Neither do any number of moves, and all of them are written down. -/
theorem requests_of_follow {c c' : Chronicle} {moves : List Simulator.Move}
    (h : c.follow moves = some c') :
    c'.moves = c.moves ++ moves ∧
      c'.now.jobs.map (fun job => (job.lease, job.request)) =
        c.now.jobs.map fun job => (job.lease, job.request) := by
  induction moves generalizing c with
  | nil => exact Option.some.inj h ▸ ⟨(List.append_nil _).symm, rfl⟩
  | cons m rest ih =>
    obtain ⟨next, hnext, hrest⟩ := Option.bind_eq_some_iff.mp h
    obtain ⟨hmoves, hjobs⟩ := ih hrest
    obtain ⟨after, hs, hc⟩ := Option.bind_eq_some_iff.mp hnext
    obtain rfl := Option.some.inj hc
    exact ⟨by rw [hmoves, List.append_assoc, List.singleton_append],
      hjobs.trans (requests_of_step (Simulator.step_of_move hs))⟩

/-- A simulator to which one job was submitted, after some moves. -/
def ofJob? (settings : Settings) (workers : Nat) (request : Request Setup)
    (moves : List Simulator.Move) : Option Chronicle :=
  ((start settings workers).submit? ["A"] request).bind (·.follow moves)

/-- Such a simulator can be reached, and the job has the number zero. -/
theorem ofJob?_eq_some {settings : Settings} {workers : Nat} {request : Request Setup}
    {moves : List Simulator.Move} {c : Chronicle}
    (h : ofJob? settings workers request moves = some c) :
    Reachable settings workers c ∧ c.moves = moves ∧
      ∃ job, c.now.jobs[0]? = some job ∧ job.request = request := by
  obtain ⟨first, hs, hm⟩ := Option.bind_eq_some_iff.mp h
  obtain ⟨lease, -, -, -, hjobs, -, hmoves, -, -⟩ := submit?_eq_some hs
  obtain ⟨hmoves', hjobs'⟩ := requests_of_follow hm
  refine ⟨(Reachable.start.submit hs).follow hm, ?_, ?_⟩
  · rw [hmoves', hmoves]
    rfl
  -- the only lease and request there are, which no move changes
  have hfirst : (c.now.jobs.map fun job => (job.lease, job.request))[0]? =
      some (lease, request) := by
    rw [hjobs', hjobs]
    rfl
  rw [List.getElem?_map] at hfirst
  obtain ⟨job, hj, hjob⟩ := Option.map_eq_some_iff.mp hfirst
  exact ⟨job, hj, (Prod.mk.inj hjob).2⟩

end Chronicle
end Trials
end CombatTrials
