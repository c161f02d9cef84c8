import CombatTrials.Proofs.Data.Exchange
import CombatTrials.Trials.Pool

/-!
# Every report is delivered once

What a lane is owed (`Pool.owed`) are the reports in it, those a worker is about to send, and those
of the trials that are still to be played, by a worker or in a task. Which reports these are is
fixed from the start, as a report depends on its trial only. So a pool neither loses nor makes up a
report:

* a move keeps what a lane is owed, up to order (`owed_perm_of_step`);
* receiving takes one report out of it and leaves the other lanes alone (`owed_of_receive`);
* a new lane is owed one report of each trial that is dispatched (`owed_withLane_self`), however the
  trials are cut into chunks (`flatten_chunksOf`).

When nobody is left to send on an empty lane, it is owed nothing (`owed_of_isAbandoned`). That is
why a job that finds its lane abandoned has received all there is.

`Pool.Wired` is what the moves need to be possible: every lane a worker or a task speaks of is
there, and has room for at least one report.
-/

namespace CombatTrials
namespace Trials

open Data (flatMap_set_perm flatMap_eraseIdx_perm sumOf sumOf_nil sumOf_cons sumOf_append sumOf_map
  sumOf_set sumOf_eraseIdx)
open Stage (Loadout)
open List (Perm)

/-! ## Chunks

How a schedule is cut into tasks is left to the settings. Nothing depends on it but the order in
which reports come in. -/

/-- Chunks one after the other are what was cut into them. -/
theorem flatten_chunksOf {α : Type} (n : Nat) (l : List α) : (chunksOf n l).flatten = l := by
  fun_induction chunksOf n l with
  | case1 => rfl
  | case2 a rest ih => rw [List.flatten_cons, ih, List.cons_append, List.take_append_drop]

/-! ## What is owed

A report is owed before it is made. That can be said at all because a report is a function of its
trial, so it is known what a worker will send before it has played. -/

/-- The reports that a worker still sends on a lane. -/
def Worker.owed (lane : Nat) (play : Trial → Report) : Worker → List Report
  | .idle => []
  | .playing l trial rest => if l = lane then play trial :: rest.map play else []
  | .sending l report rest => if l = lane then report :: rest.map play else []

/-- The reports of a task that nobody has taken yet. -/
def Task.owed (lane : Nat) (play : Trial → Report) (task : Task) : List Report :=
  if task.lane = lane then task.trials.map play else []

/-- A worker that goes on with some trials owes one report of each. -/
theorem Worker.owed_on (lane : Nat) (play : Trial → Report) (l : Nat) (trials : List Trial) :
    (Worker.on l trials).owed lane play = if l = lane then trials.map play else [] := by
  cases trials <;> simp [Worker.on, Worker.owed]

theorem Worker.owed_of_not_isOn {lane : Nat} {worker : Worker} (h : worker.isOn lane = false)
    (play : Trial → Report) : worker.owed lane play = [] := by
  cases worker with
  | idle => rfl
  | playing l trial rest | sending l report rest =>
    have hne : l ≠ lane := by simpa [Worker.isOn] using h
    simp [Worker.owed, hne]

theorem Worker.lane_of_isOn_on {l lane : Nat} {trials : List Trial}
    (h : (Worker.on l trials).isOn lane = true) : l = lane := by
  cases trials with
  | nil => exact absurd h (by simp [Worker.on, Worker.isOn])
  | cons trial rest => simpa [Worker.on, Worker.isOn] using h

theorem Task.owed_of_ne {lane : Nat} {task : Task} (h : task.lane ≠ lane) (play : Trial → Report) :
    task.owed lane play = [] := by
  simp [Task.owed, h]

namespace Pool

/-- The reports that are still to be sent on a lane. -/
def coming (p : Pool) (lane : Nat) (play : Trial → Report) : List Report :=
  p.workers.flatMap (Worker.owed lane play) ++ p.tasks.flatMap (Task.owed lane play)

/-- The reports that are still to be received from a lane. -/
def owed (p : Pool) (lane : Nat) : List Report :=
  match p.lanes[lane]? with
  | none => []
  | some channel => channel.queue ++ p.coming lane channel.play

/-- Whether a lane is there, for some loadout and turn limit. -/
def Serves (p : Pool) (lane : Nat) (loadout : Loadout) (maxTurns : UInt32) : Prop :=
  ∃ channel, p.lanes[lane]? = some channel ∧ channel.loadout = loadout ∧ channel.maxTurns = maxTurns

theorem owed_of_lane {lanes : List Lane} {lane : Nat} {channel : Lane}
    (h : lanes[lane]? = some channel) (workers : List Worker) (tasks : List Task) :
    (Pool.mk workers tasks lanes).owed lane =
      channel.queue ++ (Pool.mk workers tasks lanes).coming lane channel.play := by
  simp [owed, h]

/-! ## Moves

Each move of a pool as a relation, with the worker, the lane and the task that it concerns. -/

/-- A move of a pool, by what it does. -/
inductive Step (p : Pool) : Pool → Prop
  | take {w t : Nat} {task : Task} (hw : p.workers[w]? = some .idle)
      (ht : p.tasks[t]? = some task) :
      Step p { p with
        workers := p.workers.set w (.on task.lane task.trials)
        tasks := p.tasks.eraseIdx t }
  | play {w lane : Nat} {trial : Trial} {rest : List Trial} {channel : Lane}
      (hw : p.workers[w]? = some (.playing lane trial rest)) (hl : p.lanes[lane]? = some channel) :
      Step p { p with workers := p.workers.set w (.sending lane (channel.play trial) rest) }
  | send {w lane : Nat} {report : Report} {rest : List Trial} {channel : Lane}
      (hw : p.workers[w]? = some (.sending lane report rest)) (hl : p.lanes[lane]? = some channel)
      (hroom : channel.hasRoom = true) :
      Step p { p with
        workers := p.workers.set w (.on lane rest)
        lanes := p.lanes.set lane { channel with queue := channel.queue ++ [report] } }

-- each move, by what has to be so for it to be possible

theorem take_eq_some {p p' : Pool} {w t : Nat} (h : p.move? (.take w t) = some p') :
    ∃ task, p.workers[w]? = some .idle ∧ p.tasks[t]? = some task ∧
      p' = { p with
        workers := p.workers.set w (.on task.lane task.trials)
        tasks := p.tasks.eraseIdx t } := by
  simp only [move?, Option.bind_eq_bind, Option.bind_eq_some_iff] at h
  obtain ⟨worker, hw, h⟩ := h
  cases worker with
  | idle =>
    obtain ⟨task, ht, h⟩ := Option.bind_eq_some_iff.mp h
    exact ⟨task, hw, ht, (Option.some.inj h).symm⟩
  | playing | sending => exact absurd h (by simp)

theorem play_eq_some {p p' : Pool} {w : Nat} (h : p.move? (.play w) = some p') :
    ∃ lane trial rest channel, p.workers[w]? = some (.playing lane trial rest) ∧
      p.lanes[lane]? = some channel ∧
      p' = { p with workers := p.workers.set w (.sending lane (channel.play trial) rest) } := by
  simp only [move?, Option.bind_eq_bind, Option.bind_eq_some_iff] at h
  obtain ⟨worker, hw, h⟩ := h
  cases worker with
  | playing lane trial rest =>
    obtain ⟨channel, hl, h⟩ := Option.bind_eq_some_iff.mp h
    exact ⟨lane, trial, rest, channel, hw, hl, (Option.some.inj h).symm⟩
  | idle | sending => exact absurd h (by simp)

theorem send_eq_some {p p' : Pool} {w : Nat} (h : p.move? (.send w) = some p') :
    ∃ lane report rest channel, p.workers[w]? = some (.sending lane report rest) ∧
      p.lanes[lane]? = some channel ∧ channel.hasRoom = true ∧
      p' = { p with
        workers := p.workers.set w (.on lane rest)
        lanes := p.lanes.set lane { channel with queue := channel.queue ++ [report] } } := by
  simp only [move?, Option.bind_eq_bind, Option.bind_eq_some_iff] at h
  obtain ⟨worker, hw, h⟩ := h
  cases worker with
  | sending lane report rest =>
    obtain ⟨channel, hl, h⟩ := Option.bind_eq_some_iff.mp h
    split at h
    · next hroom => exact ⟨lane, report, rest, channel, hw, hl, hroom, (Option.some.inj h).symm⟩
    · exact absurd h (by simp)
  | idle | playing => exact absurd h (by simp)

/-- Whatever a pool does is one of these. -/
theorem step_of_move {p p' : Pool} {m : Move} (h : p.move? m = some p') : Step p p' := by
  cases m with
  | take w t =>
    obtain ⟨task, hw, ht, rfl⟩ := take_eq_some h
    exact .take hw ht
  | play w =>
    obtain ⟨lane, trial, rest, channel, hw, hl, rfl⟩ := play_eq_some h
    exact .play hw hl
  | send w =>
    obtain ⟨lane, report, rest, channel, hw, hl, hroom, rfl⟩ := send_eq_some h
    exact .send hw hl hroom

/-- What is received is the report in front of the queue. -/
theorem receive?_eq_some {p p' : Pool} {lane : Nat} {report : Report}
    (h : p.receive? lane = some (report, p')) :
    ∃ channel queue, p.lanes[lane]? = some channel ∧ channel.queue = report :: queue ∧
      p' = { p with lanes := p.lanes.set lane { channel with queue := queue } } := by
  obtain ⟨channel, hl, h⟩ := Option.bind_eq_some_iff.mp h
  split at h
  · exact absurd h (by simp)
  · next first queue hq =>
    have h := Option.some.inj h
    simp only [Prod.mk.injEq] at h
    obtain ⟨rfl, rfl⟩ := h
    exact ⟨channel, queue, hl, hq, rfl⟩

theorem receive?_eq_none {p : Pool} {lane : Nat} {channel : Lane}
    (hl : p.lanes[lane]? = some channel) (h : p.receive? lane = none) : channel.queue = [] := by
  cases hq : channel.queue with
  | nil => rfl
  | cons report queue => simp [receive?, hl, hq] at h

/-! ## A lane with another queue

Sending and receiving replace the queue of a lane and nothing else of it. -/

section Requeue

variable {p : Pool} {k : Nat} {channel : Lane}

theorem serves_requeue (hk : p.lanes[k]? = some channel) (workers : List Worker) (tasks : List Task)
    (queue : List Report) {lane : Nat} {loadout : Loadout} {maxTurns : UInt32}
    (h : p.Serves lane loadout maxTurns) :
    (Pool.mk workers tasks (p.lanes.set k { channel with queue := queue })).Serves lane loadout
      maxTurns := by
  obtain ⟨c, hc, hloadout, hturns⟩ := h
  by_cases hkl : k = lane
  · subst hkl
    obtain ⟨hlt, -⟩ := List.getElem?_eq_some_iff.mp hk
    have hcc : c = channel := Option.some.inj (hc.symm.trans hk)
    refine ⟨{ channel with queue := queue }, List.getElem?_set_self hlt, ?_, ?_⟩
    · exact hcc ▸ hloadout
    · exact hcc ▸ hturns
  · exact ⟨c, (List.getElem?_set_ne hkl).trans hc, hloadout, hturns⟩

/-- What is owed by a lane with another queue is that queue, and what is coming. -/
theorem owed_requeue_self (hk : p.lanes[k]? = some channel) (workers : List Worker)
    (tasks : List Task) (queue : List Report) :
    (Pool.mk workers tasks (p.lanes.set k { channel with queue := queue })).owed k =
      queue ++ (Pool.mk workers tasks p.lanes).coming k channel.play := by
  obtain ⟨hlt, -⟩ := List.getElem?_eq_some_iff.mp hk
  rw [owed_of_lane (List.getElem?_set_self hlt)]
  rfl

/-- What other lanes owe does not depend on it. -/
theorem owed_requeue_ne (workers : List Worker) (tasks : List Task) (c : Lane) {lane : Nat}
    (hne : k ≠ lane) :
    (Pool.mk workers tasks (p.lanes.set k c)).owed lane =
      (Pool.mk workers tasks p.lanes).owed lane := by
  unfold owed
  rw [List.getElem?_set_ne hne]
  rfl

end Requeue

/-! ## Moves keep what is owed

Of the three moves one leaves the owed reports where they are and two move one of them on. The
worker is the only one of all workers to change. -/

theorem serves_of_step {p p' : Pool} (h : Step p p') {lane : Nat} {loadout : Loadout}
    {maxTurns : UInt32} (hs : p.Serves lane loadout maxTurns) :
    p'.Serves lane loadout maxTurns := by
  cases h with
  | take | play => exact hs
  | send _ hl _ => exact serves_requeue hl _ _ _ hs

/-- What is owed beside the queue, when one worker goes on and the tasks stay. -/
theorem coming_set_worker {p : Pool} {w : Nat} {worker : Worker} (hw : p.workers[w]? = some worker)
    (worker' : Worker) (lane : Nat) (play : Trial → Report) :
    ∃ rest, Perm (p.coming lane play) (worker.owed lane play ++ rest) ∧
      Perm ((Pool.mk (p.workers.set w worker') p.tasks p.lanes).coming lane play)
        (worker'.owed lane play ++ rest) := by
  obtain ⟨rest, hbefore, hafter⟩ := flatMap_set_perm hw worker' (Worker.owed lane play)
  refine ⟨rest ++ p.tasks.flatMap (Task.owed lane play), ?_, ?_⟩
  · rw [← List.append_assoc]
    exact hbefore.append_right _
  · rw [← List.append_assoc]
    exact hafter.append_right _

theorem owed_set_worker {p : Pool} {w : Nat} {worker worker' : Worker}
    (hw : p.workers[w]? = some worker) {lane : Nat}
    (heq : ∀ channel, p.lanes[lane]? = some channel →
      worker'.owed lane channel.play = worker.owed lane channel.play) :
    Perm ((Pool.mk (p.workers.set w worker') p.tasks p.lanes).owed lane) (p.owed lane) := by
  cases hl : p.lanes[lane]? with
  | none => simp [owed, hl]
  | some channel =>
    obtain ⟨rest, hbefore, hafter⟩ := coming_set_worker hw worker' lane channel.play
    rw [owed_of_lane hl (p.workers.set w worker') p.tasks, owed_of_lane hl p.workers p.tasks]
    rw [heq channel hl] at hafter
    exact (hafter.trans hbefore.symm).append_left _

/-- **A move keeps what a lane is owed.** Taking moves it from a task to a worker, sending from a
worker to the queue, and playing turns a trial into the report that was owed for it. -/
theorem owed_perm_of_step {p p' : Pool} (h : Step p p') (lane : Nat) :
    Perm (p'.owed lane) (p.owed lane) := by
  cases h with
  | @take w t task hw ht =>
    cases hl : p.lanes[lane]? with
    | none => simp [owed, hl]
    | some channel =>
      obtain ⟨rest, hidle, hon⟩ := flatMap_set_perm hw (.on task.lane task.trials)
        (Worker.owed lane channel.play)
      rw [Worker.owed_on] at hon
      have htasks := flatMap_eraseIdx_perm ht (Task.owed lane channel.play)
      rw [owed_of_lane hl (p.workers.set w _) (p.tasks.eraseIdx t),
        owed_of_lane hl p.workers p.tasks]
      refine List.Perm.append_left _ ?_
      -- what the task was owed goes over to the worker, who was owed nothing
      refine (hon.append_right _).trans (List.Perm.trans ?_ (hidle.append htasks).symm)
      simpa [Worker.owed, Task.owed] using List.perm_append_comm_assoc _ rest _
  | @play w k trial rest channel hw hl =>
    refine owed_set_worker hw ?_
    intro c hc
    by_cases hk : k = lane
    · -- the worker now owes the report that the lane's own play makes of the trial
      subst hk
      have hcc : c = channel := Option.some.inj (hc.symm.trans hl)
      simp [Worker.owed, hcc]
    · simp [Worker.owed, hk]
  | @send w k report rest channel hw hl hroom =>
    by_cases hk : k = lane
    · -- the report goes from the worker to the end of the queue
      subst hk
      obtain ⟨others, hbefore, hafter⟩ := coming_set_worker hw (.on k rest) k channel.play
      rw [Worker.owed_on, if_pos rfl] at hafter
      rw [owed_of_lane hl p.workers p.tasks, owed_requeue_self hl, List.append_assoc]
      refine List.Perm.append_left _ ((hafter.append_left [report]).trans ?_)
      simpa [Worker.owed] using hbefore.symm
    · rw [owed_requeue_ne _ _ _ hk]
      refine owed_set_worker hw ?_
      intro c _
      rw [Worker.owed_on, if_neg hk]
      simp [Worker.owed, hk]

/-! ## Receiving takes one report

What is received is owed no longer. A lane that is empty, and for which nobody works any more, is
owed nothing at all. -/

theorem serves_of_receive {p p' : Pool} {k : Nat} {report : Report}
    (h : p.receive? k = some (report, p')) {lane : Nat} {loadout : Loadout} {maxTurns : UInt32}
    (hs : p.Serves lane loadout maxTurns) : p'.Serves lane loadout maxTurns := by
  obtain ⟨channel, queue, hl, -, rfl⟩ := receive?_eq_some h
  exact serves_requeue hl _ _ _ hs

/-- Receiving takes one report out of what is owed, the one in front. -/
theorem owed_of_receive {p p' : Pool} {lane : Nat} {report : Report}
    (h : p.receive? lane = some (report, p')) : p.owed lane = report :: p'.owed lane := by
  obtain ⟨channel, queue, hl, hq, rfl⟩ := receive?_eq_some h
  rw [owed_requeue_self hl, owed_of_lane hl p.workers p.tasks, hq]
  rfl

theorem owed_of_receive_ne {p p' : Pool} {k lane : Nat} {report : Report}
    (h : p.receive? k = some (report, p')) (hne : k ≠ lane) : p'.owed lane = p.owed lane := by
  obtain ⟨channel, queue, -, -, rfl⟩ := receive?_eq_some h
  exact owed_requeue_ne _ _ _ hne

/-- What is owed on an empty lane nobody sends on any more. -/
theorem owed_of_isAbandoned {p : Pool} {lane : Nat} (hr : p.receive? lane = none)
    (ha : p.isAbandoned lane = true) : p.owed lane = [] := by
  cases hl : p.lanes[lane]? with
  | none => simp [owed, hl]
  | some channel =>
    simp only [isAbandoned, Bool.and_eq_true, Bool.not_eq_true', List.any_eq_false] at ha
    obtain ⟨htasks, hworkers⟩ := ha
    -- nobody has trials or a report for it in hand, and no task has trials for it
    have hsent : p.workers.flatMap (Worker.owed lane channel.play) = [] :=
      List.flatMap_eq_nil_iff.mpr fun worker hw =>
        Worker.owed_of_not_isOn (by simpa using hworkers worker hw) _
    have htaken : p.tasks.flatMap (Task.owed lane channel.play) = [] :=
      List.flatMap_eq_nil_iff.mpr fun task ht => Task.owed_of_ne (by simpa using htasks task ht) _
    rw [owed_of_lane hl p.workers p.tasks, receive?_eq_none hl hr]
    simp only [coming, hsent, htaken, List.append_nil]

/-! ## Wiring

Whoever works for a lane finds it there, and finds room in it if it is empty. So of workers that
cannot go on with every lane empty, none has anything to do. -/

/-- Someone works, the lanes that workers and tasks speak of are there, and every lane has room for
at least one report. -/
structure Wired (p : Pool) : Prop where
  staffed : p.workers ≠ []
  workers : ∀ worker ∈ p.workers, ∀ lane, worker.isOn lane = true → lane < p.lanes.length
  tasks : ∀ task ∈ p.tasks, task.lane < p.lanes.length
  roomy : ∀ channel ∈ p.lanes, 0 < channel.capacity

/-- Workers without a lane are wired. -/
theorem wired_start (workers : Nat) : Wired (start workers) where
  staffed := by simp [start]
  workers worker hw lane hon := by
    rw [List.eq_of_mem_replicate hw] at hon
    exact absurd hon (by simp [Worker.isOn])
  tasks _ ht := absurd ht List.not_mem_nil
  roomy _ hl := absurd hl List.not_mem_nil

theorem Wired.roomy_requeue {p : Pool} (h : Wired p) {k : Nat} {channel : Lane}
    (hk : p.lanes[k]? = some channel) (queue : List Report) :
    ∀ c ∈ p.lanes.set k { channel with queue := queue }, 0 < c.capacity := by
  intro c hc
  rcases List.mem_or_eq_of_mem_set hc with hc | rfl
  · exact h.roomy c hc
  · exact h.roomy channel (List.mem_of_getElem? hk)

/-- A worker who goes on speaks of the lane he spoke of before. -/
theorem Wired.workers_set {p : Pool} (h : Wired p) {w : Nat} {worker' : Worker}
    (hon : ∀ lane, worker'.isOn lane = true → lane < p.lanes.length) :
    ∀ worker ∈ p.workers.set w worker', ∀ lane, worker.isOn lane = true →
      lane < p.lanes.length := by
  intro worker hw
  rcases List.mem_or_eq_of_mem_set hw with hw | rfl
  · exact h.workers worker hw
  · exact hon

/-- A move keeps a pool wired. -/
theorem Wired.step {p p' : Pool} (h : Wired p) (hs : Step p p') : Wired p' := by
  cases hs with
  -- the worker now speaks of the lane of its task, which is there
  | @take w t task hw ht =>
    refine ⟨by simpa using h.staffed, h.workers_set ?_, ?_, h.roomy⟩
    · intro lane hon
      exact Worker.lane_of_isOn_on hon ▸ h.tasks task (List.mem_of_getElem? ht)
    · intro task' ht'
      exact h.tasks task' (List.mem_of_mem_eraseIdx ht')
  | @play w k trial rest channel hw hl =>
    refine ⟨by simpa using h.staffed, h.workers_set ?_, h.tasks, h.roomy⟩
    intro lane hon
    exact h.workers _ (List.mem_of_getElem? hw) lane hon
  -- room was asked for and is taken, and the lane keeps its places
  | @send w k report rest channel hw hl hroom =>
    have hlt := (List.getElem?_eq_some_iff.mp hl).1
    refine ⟨by simpa using h.staffed, ?_, by simpa using h.tasks, h.roomy_requeue hl _⟩
    simpa using h.workers_set fun lane hon => Worker.lane_of_isOn_on hon ▸ hlt

theorem Wired.receive {p p' : Pool} (h : Wired p) {lane : Nat} {report : Report}
    (hr : p.receive? lane = some (report, p')) : Wired p' := by
  obtain ⟨channel, queue, hl, -, rfl⟩ := receive?_eq_some hr
  exact ⟨h.staffed, by simpa using h.workers, by simpa using h.tasks, h.roomy_requeue hl _⟩

/-- When no worker can go on although every lane is empty, there is nothing left to do. -/
theorem Wired.isAbandoned {p : Pool} (h : Wired p) (hstuck : ∀ m, p.move? m = none)
    (hempty : ∀ channel ∈ p.lanes, channel.queue = []) (lane : Nat) :
    p.isAbandoned lane = true := by
  have hidle : ∀ worker ∈ p.workers, worker = .idle := by
    intro worker hw
    obtain ⟨w, hw'⟩ := List.mem_iff_getElem?.mp hw
    cases worker with
    | idle => rfl
    | playing k trial rest =>
      have hk := h.workers _ hw k (by simp [Worker.isOn])
      exact absurd (hstuck (.play w)) (by simp [move?, hw', List.getElem?_eq_getElem hk])
    | sending k report rest =>
      have hk := h.workers _ hw k (by simp [Worker.isOn])
      -- he could send, for there is room in an empty lane
      have hmem := List.getElem_mem hk
      have hroom : (p.lanes[k]).hasRoom = true := by
        simp [Lane.hasRoom, hempty _ hmem, h.roomy _ hmem]
      exact absurd (hstuck (.send w)) (by simp [move?, hw', List.getElem?_eq_getElem hk, hroom])
  obtain ⟨first, others, hworkers⟩ := List.exists_cons_of_ne_nil h.staffed
  have hfirst : first = .idle := hidle first (by simp [hworkers])
  -- and a task that is left could be taken by any of those who are idle
  have htasks : p.tasks = [] := by
    cases ht : p.tasks with
    | nil => rfl
    | cons task rest => exact absurd (hstuck (.take 0 0)) (by simp [move?, hworkers, hfirst, ht])
  have hnobody : p.workers.any (·.isOn lane) = false := by
    rw [List.any_eq_false]
    intro worker hw
    rw [hidle worker hw]
    simp [Worker.isOn]
  simp [Pool.isAbandoned, htasks, hnobody]

/-! ## A new lane

A lane is added behind all others, with the tasks for it behind all other tasks. For the lanes that
were there nothing changes. -/

/-- A pool with one more lane, on which trials are dispatched. -/
def withLane (p : Pool) (channel : Lane) (trials : List Trial) (chunkSize : Nat) : Pool :=
  (p.addLane channel).2.dispatch (p.addLane channel).1 trials chunkSize

section WithLane

variable {p : Pool} {channel : Lane} {trials : List Trial} {chunkSize : Nat}

/-- A lane that was there before is still there. -/
theorem serves_withLane {lane : Nat} {loadout : Loadout} {maxTurns : UInt32}
    (h : p.Serves lane loadout maxTurns) :
    (p.withLane channel trials chunkSize).Serves lane loadout maxTurns := by
  obtain ⟨c, hc, hrest⟩ := h
  exact ⟨c, List.getElem?_append_left (List.getElem?_eq_some_iff.mp hc).1 ▸ hc, hrest⟩

theorem serves_withLane_self :
    (p.withLane channel trials chunkSize).Serves p.lanes.length channel.loadout channel.maxTurns :=
  ⟨channel, by simp [withLane, addLane, dispatch], rfl, rfl⟩

/-- The tasks of a lane owe one report of each trial, however these are cut. -/
theorem owed_chunks (lane n : Nat) (play : Trial → Report) :
    ((chunksOf n trials).map fun chunk => (⟨lane, chunk⟩ : Task)).flatMap (Task.owed lane play) =
      trials.map play := by
  calc ((chunksOf n trials).map fun chunk => (⟨lane, chunk⟩ : Task)).flatMap (Task.owed lane play)
      = (chunksOf n trials).flatMap (List.map play) := by
        rw [List.flatMap_map]
        simp [Task.owed]
    _ = (chunksOf n trials).flatten.map play := by rw [List.flatMap_def, List.map_flatten]
    _ = trials.map play := by rw [flatten_chunksOf]

theorem owed_chunks_ne {k lane : Nat} (hne : k ≠ lane) (n : Nat) (play : Trial → Report) :
    ((chunksOf n trials).map fun chunk => (⟨k, chunk⟩ : Task)).flatMap (Task.owed lane play) =
      [] := by
  simp [Task.owed, hne]

theorem owed_withLane_of_lt {lane : Nat} (h : lane < p.lanes.length) :
    (p.withLane channel trials chunkSize).owed lane = p.owed lane := by
  have hl := List.getElem?_eq_getElem h
  have hl' : (p.lanes ++ [channel])[lane]? = some p.lanes[lane] :=
    (List.getElem?_append_left h).trans hl
  simp only [withLane, addLane, dispatch]
  rw [owed_of_lane hl', owed_of_lane hl p.workers p.tasks]
  simp only [coming, List.flatMap_append, owed_chunks_ne (Nat.ne_of_gt h), List.append_nil]

theorem owed_withLane_of_gt {lane : Nat} (h : p.lanes.length < lane) :
    (p.withLane channel trials chunkSize).owed lane = [] := by
  have hl : (p.lanes ++ [channel])[lane]? = none := by
    rw [List.getElem?_eq_none_iff, List.length_append, List.length_singleton]
    exact h
  simp [withLane, addLane, dispatch, owed, hl]

/-- The new lane is owed one report of each trial. -/
theorem owed_withLane_self (h : Wired p) (hq : channel.queue = []) :
    (p.withLane channel trials chunkSize).owed p.lanes.length = trials.map channel.play := by
  have hl : (p.lanes ++ [channel])[p.lanes.length]? = some channel := by simp
  have hworkers : p.workers.flatMap (Worker.owed p.lanes.length channel.play) = [] :=
    List.flatMap_eq_nil_iff.mpr fun worker hw =>
      Worker.owed_of_not_isOn
        (Bool.eq_false_iff.mpr fun hon => Nat.lt_irrefl _ (h.workers worker hw _ hon)) _
  have htasks : p.tasks.flatMap (Task.owed p.lanes.length channel.play) = [] :=
    List.flatMap_eq_nil_iff.mpr fun task ht => Task.owed_of_ne (Nat.ne_of_lt (h.tasks task ht)) _
  simp only [withLane, addLane, dispatch]
  rw [owed_of_lane hl, hq]
  simp only [coming, List.flatMap_append, hworkers, htasks, owed_chunks, List.nil_append]

/-- A new lane with room for a report keeps a pool wired. -/
theorem Wired.withLane (h : Wired p) (hroom : 0 < channel.capacity) :
    Wired (p.withLane channel trials chunkSize) := by
  simp only [Pool.withLane, addLane, dispatch]
  refine ⟨h.staffed, ?_, ?_, ?_⟩
  · intro worker hw lane hon
    have hlt := h.workers worker hw lane hon
    simp only [List.length_append]
    omega
  · -- tasks of before speak of lanes of before, and the new ones of the new lane
    intro task ht
    simp only [List.length_append, List.length_singleton]
    rcases List.mem_append.mp ht with ht | ht
    · have hlt := h.tasks task ht
      omega
    · obtain ⟨chunk, -, rfl⟩ := List.mem_map.mp ht
      exact Nat.lt_succ_self _
  · intro c hc
    rcases List.mem_append.mp hc with hc | hc
    · exact h.roomy c hc
    · rwa [List.mem_singleton.mp hc]

end WithLane

/-! ## Effort

A trial is played, sent and received, which makes three moves, and a task is taken first, which is
one more. The effort is the number of moves that are left, so every move takes one off. -/

/-- A move takes one off what there is to do. -/
theorem effort_of_step {p p' : Pool} (h : Step p p') : p'.effort + 1 = p.effort := by
  cases h with
  -- taking a task is one step, however many trials it has
  | @take w t task hw ht =>
    have hworkers := sumOf_set Worker.effort hw (.on task.lane task.trials)
    have htasks := sumOf_eraseIdx Task.effort ht
    have hon : (Worker.on task.lane task.trials).effort = 3 * task.trials.length := by
      cases task.trials <;> rfl
    simp only [effort, Task.effort, Worker.effort] at *
    omega
  | @play w k trial rest channel hw hl =>
    have hworkers := sumOf_set Worker.effort hw (.sending k (channel.play trial) rest)
    simp only [effort, Worker.effort] at *
    omega
  | @send w k report rest channel hw hl hroom =>
    have hworkers := sumOf_set Worker.effort hw (.on k rest)
    have hlanes := sumOf_set (fun lane => lane.queue.length) hl
      { channel with queue := channel.queue ++ [report] }
    have hon : (Worker.on k rest).effort = 3 * rest.length := by
      cases rest <;> rfl
    simp only [effort, Worker.effort, List.length_append, List.length_singleton] at *
    omega

theorem effort_of_receive {p p' : Pool} {lane : Nat} {report : Report}
    (h : p.receive? lane = some (report, p')) : p'.effort + 1 = p.effort := by
  obtain ⟨channel, queue, hl, hq, rfl⟩ := receive?_eq_some h
  have hlanes := sumOf_set (fun lane => lane.queue.length) hl { channel with queue := queue }
  simp only [effort, hq, List.length_cons] at *
  omega

theorem effort_chunks_le (lane n : Nat) (trials : List Trial) :
    sumOf Task.effort ((chunksOf n trials).map fun chunk => (⟨lane, chunk⟩ : Task)) ≤
      4 * trials.length := by
  rw [sumOf_map]
  fun_induction chunksOf n trials with
  | case1 => exact Nat.le_refl _
  | case2 first rest ih =>
    rw [sumOf_cons]
    simp only [Task.effort, List.length_cons, List.length_take, List.length_drop] at *
    omega

/-- A new lane adds at most four moves for each of its trials. -/
theorem effort_withLane_le (p : Pool) {channel : Lane} (hq : channel.queue = [])
    (trials : List Trial) (chunkSize : Nat) :
    (p.withLane channel trials chunkSize).effort ≤ p.effort + 4 * trials.length := by
  have hchunks := effort_chunks_le p.lanes.length (chunkSize - 1) trials
  simp only [effort, withLane, addLane, dispatch, sumOf_append, sumOf_cons, sumOf_nil, hq,
    List.length_nil]
  omega

end Pool
end Trials
end CombatTrials
