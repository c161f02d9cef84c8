import CombatTrials.Fixture.Loadouts
import CombatTrials.Proofs.Data.Counter
import CombatTrials.Proofs.Trials.Progress

/-!
# Workers cannot run ahead, and never get stuck

The workers of a pool play trials faster or slower than a job collects the reports. A worker that
finds the lane full keeps its report and waits, so there are never more reports on the way than the
lane has places and the pool has workers. That a worker waits is safe because whoever collects never
waits for a worker that is held up: if a lane is full, there is something to receive.

`Supply` is a job on its way: the pool that plays its trials, the collector at the end of its lane,
and how many trials were played so far. Nothing else is counted anew. What is on the way is read off
the pool, as the reports in lanes (`Pool.queued`) and those that workers have in hand (`Pool.held`),
and every move of the pool that plays a trial puts one there (`Pool.onTheWay_of_move`).
-/

namespace CombatTrials
namespace Trials

open Data (sumOf sumOf_nil sumOf_cons sumOf_set)
open Stage (Loadout)

/-! ## What is on the way

A report that was played is in one of two places until it is received: in the hand of the worker
that played it, or in the queue of its lane. A move puts it into the first or takes it on to the
second. -/

/-- How many reports a worker has in hand. -/
def Worker.inHand : Worker → Nat
  | .sending .. => 1
  | _ => 0

theorem Worker.inHand_on (lane : Nat) (trials : List Trial) :
    (Worker.on lane trials).inHand = 0 := by
  cases trials <;> rfl

theorem Worker.inHand_le (worker : Worker) : worker.inHand ≤ 1 := by
  cases worker <;> simp [inHand]

namespace Pool

/-- How many trials a move plays. -/
def Move.plays : Move → Nat
  | .play _ => 1
  | _ => 0

/-- How many reports the workers have in hand. -/
def held (p : Pool) : Nat := sumOf Worker.inHand p.workers

/-- How many reports there are in the lanes. -/
def queued (p : Pool) : Nat := sumOf (fun lane => lane.queue.length) p.lanes

/-- No worker has more than one report in hand. -/
theorem held_le (p : Pool) : p.held ≤ p.workers.length := by
  unfold held
  induction p.workers with
  | nil => exact Nat.le_refl _
  | cons worker rest ih =>
    have hone := worker.inHand_le
    rw [sumOf_cons, List.length_cons]
    omega

theorem queued_singleton {p : Pool} {channel : Lane} (h : p.lanes = [channel]) :
    p.queued = channel.queue.length := by
  simp [queued, h, sumOf_cons, sumOf_nil]

theorem held_eq_zero {p : Pool} (h : ∀ worker ∈ p.workers, worker = .idle) : p.held = 0 := by
  unfold held
  rw [List.eq_replicate_of_mem h]
  induction p.workers.length with
  | zero => rfl
  | succ n ih =>
    rw [List.replicate_succ, sumOf_cons, ih]
    rfl

/-- **What was played is on the way**: a move adds to the reports that are held or queued just what
it plays. -/
theorem onTheWay_of_move {p p' : Pool} {m : Move} (h : p.move? m = some p') :
    p'.queued + p'.held = p.queued + p.held + m.plays := by
  cases m with
  | take w t =>
    obtain ⟨task, hw, -, rfl⟩ := take_eq_some h
    have hworkers := sumOf_set Worker.inHand hw (.on task.lane task.trials)
    rw [Worker.inHand_on] at hworkers
    simp only [held, queued, Move.plays, Worker.inHand] at *
    omega
  | play w =>
    obtain ⟨lane, trial, rest, channel, hw, -, rfl⟩ := play_eq_some h
    have hworkers := sumOf_set Worker.inHand hw (.sending lane (channel.play trial) rest)
    simp only [held, queued, Move.plays, Worker.inHand] at *
    omega
  -- out of a hand and into a queue, so the sum stays
  | send w =>
    obtain ⟨lane, report, rest, channel, hw, hl, -, rfl⟩ := send_eq_some h
    have hworkers := sumOf_set Worker.inHand hw (.on lane rest)
    have hlanes := sumOf_set (fun lane => lane.queue.length) hl
      { channel with queue := channel.queue ++ [report] }
    rw [Worker.inHand_on] at hworkers
    simp only [held, queued, Move.plays, Worker.inHand, List.length_append, List.length_singleton]
      at *
    omega

theorem onTheWay_of_receive {p p' : Pool} {lane : Nat} {report : Report}
    (h : p.receive? lane = some (report, p')) : p'.queued + p'.held + 1 = p.queued + p.held := by
  obtain ⟨channel, queue, hl, hq, rfl⟩ := receive?_eq_some h
  have hlanes := sumOf_set (fun lane => lane.queue.length) hl { channel with queue := queue }
  simp only [held, queued, hq, List.length_cons] at *
  omega

/-! ## No lane is overfull

This is what a worker that has to wait is for: it sends where there is room, and keeps its report
where there is none. -/

/-- No lane holds more reports than it has places. -/
def Fits (p : Pool) : Prop := ∀ channel ∈ p.lanes, channel.queue.length ≤ channel.capacity

theorem fits_requeue {p : Pool} (h : p.Fits) {lane : Nat} {channel : Lane} {queue : List Report}
    (hq : queue.length ≤ channel.capacity) :
    ∀ c ∈ p.lanes.set lane { channel with queue := queue }, c.queue.length ≤ c.capacity := by
  intro c hc
  rcases List.mem_or_eq_of_mem_set hc with hc | rfl
  · exact h c hc
  · exact hq

/-- A report is sent only where there is room, so a lane that fits goes on fitting. -/
theorem Fits.step {p p' : Pool} (h : p.Fits) (hs : Step p p') : p'.Fits := by
  cases hs with
  | take | play => exact h
  | @send w lane report rest channel _ _ hroom =>
    refine fits_requeue h ?_
    rw [List.length_append, List.length_singleton]
    exact of_decide_eq_true hroom

theorem Fits.receive {p p' : Pool} (h : p.Fits) {lane : Nat} {report : Report}
    (hr : p.receive? lane = some (report, p')) : p'.Fits := by
  obtain ⟨channel, queue, hl, hq, rfl⟩ := receive?_eq_some hr
  have hfull := h channel (List.mem_of_getElem? hl)
  rw [hq, List.length_cons] at hfull
  exact fits_requeue h (Nat.le_of_succ_le hfull)

/-! ## What stays

Workers come and go between tasks, but how many there are, and which lanes with how many places, was
settled when the job was dispatched. -/

/-- Workers, and lanes with their places, are there for good. -/
def plan (p : Pool) : Nat × List Nat := (p.workers.length, p.lanes.map Lane.capacity)

theorem capacities_requeue {lanes : List Lane} {lane : Nat} {channel : Lane}
    (hl : lanes[lane]? = some channel) (queue : List Report) :
    (lanes.set lane { channel with queue := queue }).map Lane.capacity =
      lanes.map Lane.capacity := by
  obtain ⟨hlt, rfl⟩ := List.getElem?_eq_some_iff.mp hl
  have hlt' : lane < (lanes.map Lane.capacity).length := by rwa [List.length_map]
  rw [List.map_set]
  simpa using List.set_getElem_self hlt'

theorem plan_of_step {p p' : Pool} (h : Step p p') : p'.plan = p.plan := by
  cases h with
  | take | play => simp [plan]
  | send _ hl _ => simp only [plan, List.length_set, capacities_requeue hl]

theorem plan_of_receive {p p' : Pool} {lane : Nat} {report : Report}
    (h : p.receive? lane = some (report, p')) : p'.plan = p.plan := by
  obtain ⟨channel, queue, hl, -, rfl⟩ := receive?_eq_some h
  simp only [plan, capacities_requeue hl]

/-- No task is without trials. -/
def Cut (p : Pool) : Prop := ∀ task ∈ p.tasks, task.trials ≠ []

theorem Cut.step {p p' : Pool} (h : p.Cut) (hs : Step p p') : p'.Cut := by
  cases hs with
  | take => exact fun task ht => h task (List.mem_of_mem_eraseIdx ht)
  | play | send => exact h

theorem Cut.receive {p p' : Pool} (h : p.Cut) {lane : Nat} {report : Report}
    (hr : p.receive? lane = some (report, p')) : p'.Cut := by
  obtain ⟨channel, queue, -, -, rfl⟩ := receive?_eq_some hr
  exact h

theorem ne_nil_of_mem_chunksOf {α : Type} {n : Nat} {l chunk : List α} (h : chunk ∈ chunksOf n l) :
    chunk ≠ [] := by
  fun_induction chunksOf n l with
  | case1 => exact absurd h List.not_mem_nil
  | case2 first rest ih =>
    rcases List.mem_cons.mp h with rfl | h
    · exact List.cons_ne_nil _ _
    · exact ih h

/-- Trials are dispatched in tasks that are not empty. -/
theorem cut_withLane {p : Pool} (h : p.Cut) (channel : Lane) (trials : List Trial)
    (chunkSize : Nat) : (p.withLane channel trials chunkSize).Cut := by
  intro task ht
  rcases List.mem_append.mp ht with ht | ht
  · exact h task ht
  · obtain ⟨chunk, hchunk, rfl⟩ := List.mem_map.mp ht
    exact ne_nil_of_mem_chunksOf hchunk

/-! ## Nothing left

The end of a job, seen from the pool: with nothing owed on its only lane, nobody has anything in
hand and no task is left, since tasks without trials do not exist. -/

/-- A pool with one lane that is owed nothing has nothing to do. -/
theorem idle_of_owed {p : Pool} (hw : p.Wired) (hc : p.Cut) {channel : Lane}
    (hl : p.lanes = [channel]) (howed : p.owed 0 = []) :
    channel.queue = [] ∧ (∀ worker ∈ p.workers, worker = .idle) ∧ p.tasks = [] := by
  have hlane : p.lanes[0]? = some channel := by
    rw [hl]
    rfl
  rw [owed_of_lane hlane p.workers p.tasks, coming] at howed
  obtain ⟨hqueue, hcoming⟩ := List.append_eq_nil_iff.mp howed
  obtain ⟨hworkers, htasks⟩ := List.append_eq_nil_iff.mp hcoming
  refine ⟨hqueue, ?_, ?_⟩
  · intro worker hmem
    have hnothing := List.flatMap_eq_nil_iff.mp hworkers worker hmem
    cases worker with
    | idle => rfl
    | playing lane trial rest | sending lane report rest =>
      -- there is no other lane that it could be busy for
      have hlt := hw.workers _ hmem lane (by simp [Worker.isOn])
      obtain rfl : lane = 0 := by simpa [hl] using hlt
      simp [Worker.owed] at hnothing
  · refine List.eq_nil_iff_forall_not_mem.mpr fun task hmem => ?_
    have hnothing := List.flatMap_eq_nil_iff.mp htasks task hmem
    obtain hzero : task.lane = 0 := by simpa [hl] using hw.tasks task hmem
    simp [Task.owed, hzero, hc task hmem] at hnothing

end Pool

/-! ## One job on its way

The pool and the collector of one job, with the number of trials played beside them. All that is
claimed of back-pressure is claimed of every state that these can come to. -/

/-- A pool that works for one job, the collector of the job, and how many of its trials were
played. -/
structure Supply where
  pool : Pool
  collector : Collector
  played : Nat

namespace Supply

/-- All trials of a job are dispatched, and none is played. -/
def start (settings : Settings) (workers : Nat) (request : Request Setup) (loadout : Loadout) :
    Supply where
  pool := (Pool.start workers).withLane
    (.empty loadout request.maxTurns settings.channelCapacity.toNat)
    (Schedule.ofSeed request.seed request.maxIterations).toList settings.chunkSize.toNat
  collector := .start request.maxIterations settings.updateInterval
  played := 0

/-- How many reports were received. -/
def received (s : Supply) : Nat := s.collector.completed.toNat

/-- What can happen next. -/
inductive Move where
  /-- A worker goes on. -/
  | work (move : Pool.Move)
  /-- A report is received. -/
  | receive
  deriving DecidableEq, Repr

/-- The job after a move, if the move is possible. -/
def move? (s : Supply) : Move → Option Supply
  | .work m => do
    let pool ← s.pool.move? m
    return { s with pool := pool, played := s.played + m.plays }
  | .receive =>
    if s.collector.isWaiting then do
      let (report, pool) ← s.pool.receive? 0
      return { s with pool := pool, collector := (s.collector.record report).1 }
    else none

/-- What a job on its way can come to, in whatever order the workers and its collector go on. -/
inductive Reachable (settings : Settings) (workers : Nat) (request : Request Setup)
    (loadout : Loadout) : Supply → Prop
  | start : Reachable settings workers request loadout (start settings workers request loadout)
  | move {s s' : Supply} {m : Move} (h : Reachable settings workers request loadout s)
      (hm : s.move? m = some s') : Reachable settings workers request loadout s'

variable {settings : Settings} {workers : Nat} {request : Request Setup} {loadout : Loadout}
  {s s' : Supply}

theorem work_eq_some {m : Pool.Move} (h : s.move? (.work m) = some s') :
    ∃ pool, s.pool.move? m = some pool ∧
      s' = { s with pool := pool, played := s.played + m.plays } := by
  obtain ⟨pool, hm, h⟩ := Option.bind_eq_some_iff.mp h
  exact ⟨pool, hm, (Option.some.inj h).symm⟩

theorem receive_eq_some (h : s.move? .receive = some s') :
    ∃ report pool, s.collector.isWaiting = true ∧ s.pool.receive? 0 = some (report, pool) ∧
      s' = { s with pool := pool, collector := (s.collector.record report).1 } := by
  simp only [move?] at h
  split at h
  · next hwait =>
    obtain ⟨⟨report, pool⟩, hr, h⟩ := Option.bind_eq_some_iff.mp h
    exact ⟨report, pool, hwait, hr, (Option.some.inj h).symm⟩
  · exact absurd h (by simp)

/-- A collector waits while fewer reports were received than are expected. -/
theorem isWaiting_iff : s.collector.isWaiting = true ↔ s.received < s.collector.expected.toNat := by
  simp only [Collector.isWaiting, decide_eq_true_eq, UInt32.lt_iff_toNat_lt, received]

/-- What holds of a job on its way. -/
structure Balanced (settings : Settings) (workers : Nat) (request : Request Setup) (s : Supply) :
    Prop where
  wired : s.pool.Wired
  plan : s.pool.plan = (max 1 workers, [max 1 settings.channelCapacity.toNat])
  fits : s.pool.Fits
  cut : s.pool.Cut
  expected : s.collector.expected = request.maxIterations
  /-- Every report was received or is still owed. -/
  due : s.received + (s.pool.owed 0).length = request.maxIterations.toNat
  /-- Every trial that was played was received, or its report is on the way. -/
  played : s.played = s.received + (s.pool.queued + s.pool.held)

/-- At the start every report is owed, and none is on the way. -/
theorem balanced_start (settings : Settings) (workers : Nat) (request : Request Setup)
    (loadout : Loadout) :
    Balanced settings workers request (start settings workers request loadout) := by
  have hwired := Pool.wired_start workers
  -- one report of each trial of the schedule is owed by the new lane
  have howed : ((start settings workers request loadout).pool.owed 0).length =
      request.maxIterations.toNat := by
    have hself : (start settings workers request loadout).pool.owed 0 =
        (Schedule.ofSeed request.seed request.maxIterations).toList.map
          (Lane.empty loadout request.maxTurns settings.channelCapacity.toNat).play :=
      Pool.owed_withLane_self hwired rfl
    exact (congrArg List.length hself).trans
      ((List.length_map _).trans (Schedule.length_toList_ofSeed request.seed request.maxIterations))
  refine ⟨hwired.withLane (Nat.le_max_left 1 _), ?_, ?_, ?_, rfl, ?_, ?_⟩
  · simp [start, Pool.plan, Pool.withLane, Pool.addLane, Pool.dispatch, Pool.start, Lane.empty]
  · intro channel hc
    obtain rfl := List.mem_singleton.mp hc
    exact Nat.zero_le _
  · exact Pool.cut_withLane (fun _ ht => absurd ht List.not_mem_nil) _ _ _
  · rw [howed]
    exact Nat.zero_add _
  · -- every worker is idle, and the only lane is empty
    have hheld : (start settings workers request loadout).pool.held = 0 :=
      Pool.held_eq_zero fun _ hw => List.eq_of_mem_replicate hw
    rw [hheld]
    rfl

/-- Every move keeps the balance: what a worker does changes neither what is owed nor, but for a
play, what is on the way, and a report that is received is off it. -/
theorem Balanced.move (h : Balanced settings workers request s) {m : Move}
    (hm : s.move? m = some s') : Balanced settings workers request s' := by
  cases m with
  | work m =>
    obtain ⟨pool, hmove, rfl⟩ := work_eq_some hm
    have hstep := Pool.step_of_move hmove
    have howed := (Pool.owed_perm_of_step hstep 0).length_eq
    have hway := Pool.onTheWay_of_move hmove
    have hdue := h.due
    have hplayed := h.played
    refine ⟨h.wired.step hstep, (Pool.plan_of_step hstep).trans h.plan, h.fits.step hstep,
      h.cut.step hstep, h.expected, ?_, ?_⟩
    · simp only [received] at *
      omega
    · simp only [received] at *
      omega
  -- one report less is owed and one more was received, which no counter passes the end by
  | receive =>
    obtain ⟨report, pool, hwait, hr, rfl⟩ := receive_eq_some hm
    have hcount : (s.collector.completed + 1).toNat = s.collector.completed.toNat + 1 :=
      Data.toNat_succ_of_lt (isWaiting_iff.mp hwait)
    have howed := congrArg List.length (Pool.owed_of_receive hr)
    have hway := Pool.onTheWay_of_receive hr
    have hdue := h.due
    have hplayed := h.played
    refine ⟨h.wired.receive hr, (Pool.plan_of_receive hr).trans h.plan, h.fits.receive hr,
      h.cut.receive hr, h.expected, ?_, ?_⟩
    · simp only [received, Collector.record, hcount, List.length_cons] at *
      omega
    · simp only [received, Collector.record, hcount] at *
      omega

theorem Reachable.balanced (h : Reachable settings workers request loadout s) :
    Balanced settings workers request s := by
  induction h with
  | start => exact balanced_start settings workers request loadout
  | move _ hm ih => exact ih.move hm

theorem Balanced.lane (h : Balanced settings workers request s) :
    ∃ channel, s.pool.lanes = [channel] ∧
      channel.capacity = max 1 settings.channelCapacity.toNat := by
  have hplan := congrArg Prod.snd h.plan
  obtain ⟨channel, hlanes, hcapacity⟩ := List.map_eq_singleton_iff.mp hplan
  exact ⟨channel, hlanes, hcapacity⟩

/-- **No deadlock.** As long as a report is missing, a worker or the collector can go on. Suppose
not: the lane is empty, so no worker is held up, so there is no work, and nothing is owed. -/
theorem Balanced.exists_move (h : Balanced settings workers request s)
    (hmore : s.received < request.maxIterations.toNat) : ∃ m s', s.move? m = some s' := by
  by_contra hstuck
  have hstuck : ∀ m, s.move? m = none := by
    intro m
    cases hm : s.move? m with
    | none => rfl
    | some s' => exact absurd ⟨m, s', hm⟩ hstuck
  obtain ⟨channel, hlanes, -⟩ := h.lane
  have hlane : s.pool.lanes[0]? = some channel := by
    rw [hlanes]
    rfl
  have hwait : s.collector.isWaiting = true := isWaiting_iff.mpr (h.expected ▸ hmore)
  -- nothing can be received, so the lane is empty
  have hnone : s.pool.receive? 0 = none := by
    cases hr : s.pool.receive? 0 with
    | none => rfl
    | some taken => exact absurd (hstuck .receive) (by simp [move?, hwait, hr])
  have hempty : ∀ channel ∈ s.pool.lanes, channel.queue = [] := by
    intro c hc
    rw [hlanes] at hc
    obtain rfl := List.mem_singleton.mp hc
    exact Pool.receive?_eq_none hlane hnone
  -- then no worker is held up, and as none of them can go on there is no work
  have hpool : ∀ m, s.pool.move? m = none := by
    intro m
    cases hm : s.pool.move? m with
    | none => rfl
    | some pool => exact absurd (hstuck (.work m)) (by simp [move?, hm])
  have howed := Pool.owed_of_isAbandoned hnone (h.wired.isAbandoned hpool hempty 0)
  have hdue := h.due
  rw [howed, List.length_nil] at hdue
  omega

/-- Every move lowers the effort that is left, so nobody goes on for ever. -/
theorem effort_of_move {m : Move} (h : s.move? m = some s') : s'.pool.effort < s.pool.effort := by
  cases m with
  | work m =>
    obtain ⟨pool, hm, rfl⟩ := work_eq_some h
    have heffort := Pool.effort_of_step (Pool.step_of_move hm)
    show pool.effort < s.pool.effort
    omega
  | receive =>
    obtain ⟨report, pool, -, hr, rfl⟩ := receive_eq_some h
    have heffort := Pool.effort_of_receive hr
    show pool.effort < s.pool.effort
    omega

end Supply

/-! ## Jobs of a simulator

A simulator that has one job does what a supply does while the job collects. Before that the pool is
untouched, and afterwards nothing is claimed. -/

namespace Pool

/-- Workers who have no task do not move. -/
theorem move?_start (workers : Nat) (m : Move) : (start workers).move? m = none := by
  have hidle : ∀ {w : Nat} {worker : Worker}, (start workers).workers[w]? = some worker →
      worker = .idle := fun hw =>
    List.eq_of_mem_replicate (List.mem_of_getElem? hw)
  cases hm : (start workers).move? m with
  | none => rfl
  | some p =>
    cases step_of_move hm with
    | take _ ht => simp [start] at ht
    | play hw => exact absurd (hidle hw) (by simp)
    | send hw => exact absurd (hidle hw) (by simp)

end Pool

namespace Chronicle

variable {settings : Settings} {workers : Nat} {c : Chronicle}

/-- A job that is the only one of its simulator is on its way as `Supply` says. -/
structure Supplied (settings : Settings) (workers : Nat) (c : Chronicle) : Prop where
  unused : c.now.jobs = [] → c.now.pool = .start workers
  waiting : ∀ {job : Job}, c.now.jobs = [job] → job.phase = .waiting → c.now.pool = .start workers
  collecting : ∀ {job : Job} {loadout : Loadout} {lane : Nat} {collector : Collector},
    c.now.jobs = [job] → job.phase = .collecting loadout lane collector →
    lane = 0 ∧ ∃ played,
      Supply.Reachable settings workers job.request loadout ⟨c.now.pool, collector, played⟩

theorem supplied_of_turn {registry : Registry} {pool : Pool} {j : Nat} {job : Job} {phase : Phase}
    {moves : List Simulator.Move} {stored : Published} {received : List (Nat × Report)}
    (hj : c.now.jobs[j]? = some job) (hwaiting : phase ≠ .waiting)
    (hcollecting : ∀ loadout lane collector, c.now.jobs = [job] →
      phase = .collecting loadout lane collector →
      lane = 0 ∧ ∃ played,
        Supply.Reachable settings workers job.request loadout ⟨pool, collector, played⟩) :
    Supplied settings workers
      ⟨{ c.now with
          registry := registry
          pool := pool
          jobs := c.now.jobs.set j { job with phase := phase } },
        moves, stored, received⟩ := by
  have honly : ∀ {job' : Job}, c.now.jobs.set j { job with phase := phase } = [job'] →
      c.now.jobs = [job] ∧ job' = { job with phase := phase } := by
    intro job' hset
    have hlength : c.now.jobs.length = 1 := by rw [← List.length_set, hset, List.length_singleton]
    obtain ⟨first, hfirst⟩ := List.length_eq_one_iff.mp hlength
    obtain ⟨hlt, hget⟩ := List.getElem?_eq_some_iff.mp hj
    obtain rfl : j = 0 := by omega
    obtain rfl : first = job := by simpa [hfirst] using hget
    rw [hfirst] at hset
    exact ⟨hfirst, (List.singleton_inj.mp hset).symm⟩
  refine ⟨fun hnone => ?_, fun hset hp => ?_, fun hset hp => ?_⟩
  · rw [List.set_eq_nil_iff] at hnone
    simp [hnone] at hj
  · obtain ⟨-, rfl⟩ := honly hset
    exact absurd hp hwaiting
  · obtain ⟨hjobs, rfl⟩ := honly hset
    exact hcollecting _ _ _ hjobs hp

/-- Whatever the simulator does, its only job goes on as a supply does, or stops collecting. -/
theorem Supplied.step (h : Supplied settings workers c) (hsettings : c.now.settings = settings)
    {m : Simulator.Move} {after : Published × Simulator} (hs : Simulator.Step c.now m after)
    (moves : List Simulator.Move) (stored : Published) (received : List (Nat × Report)) :
    Supplied settings workers ⟨after.2, moves, stored, received⟩ := by
  obtain rfl := hsettings
  cases hs with
  | @work m pool hm =>
    -- a worker has moved, so the pool is no longer as it was at the start
    have hidle : c.now.pool ≠ .start workers := by
      intro hstart
      rw [hstart, Pool.move?_start] at hm
      exact absurd hm (by simp)
    refine ⟨fun hnone => absurd (h.unused hnone) hidle,
      fun hjobs hp => absurd (h.waiting hjobs hp) hidle, ?_⟩
    intro job loadout lane collector hjobs hp
    obtain ⟨hlane, played, hreach⟩ := h.collecting hjobs hp
    refine ⟨hlane, played + m.plays, hreach.move (m := .work m) ?_⟩
    simp [Supply.move?, hm]
  | @launch j job hj hp =>
    rcases Job.launch_spec c.now.settings c.now.pool job.request with
      ⟨crashing, published, hlaunch, -⟩ | ⟨loadout, -, -, -, hlaunch⟩
    · rw [hlaunch]
      exact supplied_of_turn hj (by simp) (by simp)
    · rw [hlaunch]
      refine supplied_of_turn hj (by simp) ?_
      rintro _ _ _ hjobs ⟨⟩
      rw [h.waiting hjobs hp]
      exact ⟨rfl, 0, .start⟩
  -- jobs that do not collect any more are none that is spoken of
  | lose hj | leave hj => exact supplied_of_turn hj (by simp) (by simp)
  | @receive j job change hj hc =>
    obtain ⟨loadout, lane, collector, report, pool, hp, hwait, hr, rfl⟩ := Job.receive?_eq_some hc
    refine supplied_of_turn hj (by simp) ?_
    rintro _ _ _ hjobs ⟨⟩
    obtain ⟨rfl, played, hreach⟩ := h.collecting hjobs hp
    refine ⟨rfl, played, hreach.move (m := .receive) ?_⟩
    simp [Supply.move?, hwait, hr]
  | conclude hj hc =>
    obtain ⟨_, _, _, _, -, rfl⟩ := Job.conclude?_eq_some hc
    exact supplied_of_turn hj (by simp) (by simp)

/-- The only job of a simulator is on its way as a supply, whatever happened. -/
theorem Reachable.supplied (h : Reachable settings workers c) : Supplied settings workers c := by
  induction h with
  | start =>
    refine ⟨fun _ => rfl, fun hjobs => ?_, fun hjobs => ?_⟩
    all_goals exact absurd hjobs (by simp [Chronicle.start, Simulator.start])
  | @submit c c' drawn request hreach hs ih =>
    obtain ⟨lease, -, -, hpool, hjobs, -, -, -, -⟩ := submit?_eq_some hs
    -- if there is one job after a submission, there was none before
    have hfirst : ∀ {job : Job}, c'.now.jobs = [job] →
        c.now.jobs = [] ∧ job = ⟨lease, request, .waiting⟩ := by
      intro job hjob
      rw [hjobs, List.append_eq_singleton_iff] at hjob
      simpa [eq_comm] using hjob
    refine ⟨fun hnone => ?_, fun hjob hp => ?_, fun hjob hp => ?_⟩
    · simp [hjobs] at hnone
    · rw [hpool]
      exact ih.unused (hfirst hjob).1
    · obtain ⟨-, rfl⟩ := hfirst hjob
      simp at hp
  | move hreach hm ih =>
    obtain ⟨after, hs, hc⟩ := Option.bind_eq_some_iff.mp hm
    obtain rfl := Option.some.inj hc
    exact ih.step hreach.sound.settings_eq (Simulator.step_of_move hs) _ _ _

end Chronicle

/-! ## The bound

What was played is received, queued or held, and there is a bound on each of the last two. -/

namespace Supply

variable {settings : Settings} {workers : Nat} {request : Request Setup} {loadout : Loadout}
  {s : Supply}

/-- **A full lane holds workers up and blocks nobody for good.** However many iterations a job has,
into whatever chunks they are cut and however small the lane is, the lane never holds more reports
than it has places, and what was played and not received is in the lane or in the hand of a worker.
While reports are missing, somebody can go on, and nobody can for ever; when all were received,
nothing is on the way.

A simulator that has only this job is in such a state as long as it collects. -/
theorem bounded_lane_never_deadlocks (h : Reachable settings workers request loadout s) :
    (∃ channel, s.pool.lanes = [channel] ∧ channel.capacity = max 1 settings.channelCapacity.toNat ∧
      s.pool.workers.length = max 1 workers ∧
      channel.queue.length ≤ channel.capacity ∧
      s.played = s.received + channel.queue.length + s.pool.held ∧
      s.played ≤ s.received + (channel.capacity + max 1 workers) ∧
      (s.received < request.maxIterations.toNat → ∃ m s', s.move? m = some s') ∧
      (∀ m s', s.move? m = some s' → s'.pool.effort < s.pool.effort) ∧
      (s.received = request.maxIterations.toNat → s.played = s.received ∧ channel.queue = [] ∧
        (∀ worker ∈ s.pool.workers, worker = .idle) ∧ s.pool.tasks = [])) ∧
    ∀ (c : Chronicle) (job : Job) (loadout : Loadout) (lane : Nat) (collector : Collector),
      Chronicle.Reachable settings workers c → c.now.jobs = [job] →
      job.phase = .collecting loadout lane collector →
      ∃ played, Reachable settings workers job.request loadout ⟨c.now.pool, collector, played⟩ := by
  have hbalanced := h.balanced
  obtain ⟨channel, hlanes, hcapacity⟩ := hbalanced.lane
  have hstaff : s.pool.workers.length = max 1 workers := congrArg Prod.fst hbalanced.plan
  have hfits := hbalanced.fits channel (hlanes ▸ List.mem_singleton_self channel)
  have hqueued := Pool.queued_singleton hlanes
  have hheld := s.pool.held_le
  have hplayed := hbalanced.played
  refine ⟨⟨channel, hlanes, hcapacity, hstaff, hfits, by omega, by omega, hbalanced.exists_move,
    fun _ _ => effort_of_move, ?_⟩, ?_⟩
  · intro hall
    have hdue := hbalanced.due
    -- as many were received as were asked for, and what was not received is owed
    have howed : s.pool.owed 0 = [] := List.length_eq_zero_iff.mp (by omega)
    obtain ⟨hqueue, hidle, htasks⟩ := Pool.idle_of_owed hbalanced.wired hbalanced.cut hlanes howed
    refine ⟨?_, hqueue, hidle, htasks⟩
    have hhands : s.pool.held = 0 := Pool.held_eq_zero hidle
    rw [hqueue, List.length_nil] at hqueued
    omega
  · intro c job loadout lane collector hreach hjobs hp
    exact (hreach.supplied.collecting hjobs hp).2

/-- One move after the other, if all of them are possible. -/
def follow (s : Supply) : List Move → Option Supply
  | [] => some s
  | m :: rest => do (← s.move? m).follow rest

theorem Reachable.follow (h : Reachable settings workers request loadout s) {moves : List Move}
    {s' : Supply} (hm : s.follow moves = some s') :
    Reachable settings workers request loadout s' := by
  induction moves generalizing s with
  | nil => exact Option.some.inj hm ▸ h
  | cons m rest ih =>
    obtain ⟨next, hnext, hrest⟩ := Option.bind_eq_some_iff.mp hm
    exact ih (h.move hnext) hrest

/-- One worker, one place in the lane, one trial in a task: the worker plays a second report and has
to keep it until the first is received. -/
theorem bounded_lane_never_deadlocks_when_full :
    let settings : Settings := ⟨none, 2, 0, 0, 0⟩
    let request : Request Setup := ⟨30, 3, 0, .built (Fixture.scripted none)⟩
    ∃ s channel, Reachable settings 0 request (Fixture.scripted none) s ∧ s.pool.lanes = [channel] ∧
      s.played = 2 ∧ s.received = 0 ∧ channel.queue.length = 1 ∧ s.pool.held = 1 ∧
      s.move? (.work (.send 0)) = none ∧ (∃ m s', s.move? m = some s') ∧
      ∃ s', Reachable settings 0 request (Fixture.scripted none) s' ∧ s'.received = 3 ∧
        s'.pool.tasks = [] := by
  intro settings request
  let first : List Move :=
    [.work (.take 0 0), .work (.play 0), .work (.send 0), .work (.take 0 0), .work (.play 0)]
  let later : List Move :=
    [.receive, .work (.send 0), .work (.take 0 0), .receive, .work (.play 0), .work (.send 0),
      .receive]
  have hfull : (((start settings 0 request (Fixture.scripted none)).follow first).map fun s =>
      ([s.played, s.received, s.pool.queued, s.pool.held], (s.move? (.work (.send 0))).isSome,
        (s.follow later).map Supply.received)) = some ([2, 0, 1, 1], false, some 3) := by
    decide +kernel
  obtain ⟨s, hs, hstate⟩ := Option.map_eq_some_iff.mp hfull
  simp only [Prod.mk.injEq, List.cons.injEq, and_true, Option.isSome_eq_false_iff,
    Option.isNone_iff_eq_none] at hstate
  obtain ⟨⟨hplayed, hreceived, hqueued, hheld⟩, hblocked, hlater⟩ := hstate
  obtain ⟨s', hs', hreceived'⟩ := Option.map_eq_some_iff.mp hlater
  have hreach : Reachable settings 0 request (Fixture.scripted none) s := Reachable.start.follow hs
  have hreach' := hreach.follow hs'
  have hthree : request.maxIterations.toNat = 3 := rfl
  obtain ⟨⟨channel, hlanes, -, -, -, -, -, hgo, -, -⟩, -⟩ := bounded_lane_never_deadlocks hreach
  obtain ⟨⟨_, -, -, -, -, -, -, -, -, hdone⟩, -⟩ := bounded_lane_never_deadlocks hreach'
  obtain ⟨-, -, -, htasks⟩ := hdone (hreceived'.trans hthree.symm)
  refine ⟨s, channel, hreach, hlanes, hplayed, hreceived, ?_, hheld, hblocked, hgo (by omega), s',
    hreach', hreceived', htasks⟩
  rw [← Pool.queued_singleton hlanes, hqueued]

end Supply
end Trials
end CombatTrials
