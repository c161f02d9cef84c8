import CombatTrials.Proofs.Trials.Delivery

/-!
# One lane of a pool

A pool works for many lanes at once. `Pool.only` is what is left of it when all but one of them are
left out: a worker that is busy for another lane has nothing to do there, tasks of other lanes are
not there, and the one lane that is left has the number zero. Every move of the pool is then a move
of what is left or no move at all (`Pool.only_of_move`), because a worker needs nothing of a lane
but its own.

So what can happen to one lane among others can happen to it alone. The converse does not hold:
alone, a lane never has to wait for a worker that is busy for another.
-/

namespace CombatTrials
namespace Trials

/-! ## Lists with some items left out

Tasks are left out of a list, and taking a task erases one. The two can be exchanged, except that
the task may not be there any more. -/

/-- Of the items that are kept, one is erased, or none. -/
theorem filter_eraseIdx {α : Type} (keep : α → Bool) {l : List α} {t : Nat} {a : α}
    (h : l[t]? = some a) :
    (keep a = false → (l.eraseIdx t).filter keep = l.filter keep) ∧
    (keep a = true → ∃ t', (l.filter keep)[t']? = some a ∧
      (l.eraseIdx t).filter keep = (l.filter keep).eraseIdx t') := by
  induction l generalizing t with
  | nil => exact absurd h (by simp)
  | cons first rest ih =>
    cases t with
    | zero =>
      obtain rfl := Option.some.inj h
      refine ⟨fun hdrop => by simp [hdrop], fun hkeep => ⟨0, by simp [hkeep], by simp [hkeep]⟩⟩
    | succ t =>
      obtain ⟨hdropped, hkept⟩ := ih (by simpa using h)
      refine ⟨fun hdrop => by simp [List.filter_cons, hdropped hdrop], fun hkeep => ?_⟩
      obtain ⟨t', ht', herased⟩ := hkept hkeep
      -- an item in front moves the place by one if it is kept
      cases hfirst : keep first with
      | false => exact ⟨t', by simpa [hfirst] using ht', by simpa [hfirst] using herased⟩
      | true => exact ⟨t' + 1, by simpa [hfirst] using ht', by simp [hfirst, herased]⟩

/-! ## Workers and pools

A worker is asked for its lane, and has nothing to do if it is another one. Each move is then looked
at from the lane that is left. -/

/-- A worker, as far as a lane is concerned. -/
def Worker.only (lane : Nat) : Worker → Worker
  | .idle => .idle
  | .playing l trial rest => if l = lane then .playing 0 trial rest else .idle
  | .sending l report rest => if l = lane then .sending 0 report rest else .idle

theorem Worker.only_on_self (lane : Nat) (trials : List Trial) :
    (Worker.on lane trials).only lane = .on 0 trials := by
  cases trials <;> simp [Worker.on, Worker.only]

theorem Worker.only_on_ne {l lane : Nat} (hne : l ≠ lane) (trials : List Trial) :
    (Worker.on l trials).only lane = .idle := by
  cases trials <;> simp [Worker.on, Worker.only, hne]

/-- A worker that does not work for the lane has nothing to do there. -/
theorem Worker.only_of_not_isOn {lane : Nat} {worker : Worker} (h : worker.isOn lane = false) :
    worker.only lane = .idle := by
  cases worker with
  | idle => rfl
  | playing l trial rest | sending l report rest =>
    have hne : l ≠ lane := by simpa [Worker.isOn] using h
    simp [Worker.only, hne]

namespace Pool

/-- A pool, as far as a lane is concerned. -/
def only (p : Pool) (lane : Nat) : Pool where
  workers := p.workers.map (Worker.only lane)
  tasks := (p.tasks.filter (·.lane == lane)).map fun task => ⟨0, task.trials⟩
  lanes := p.lanes[lane]?.toList

section Only

variable {p p' : Pool} {lane : Nat}

theorem getElem?_workers_only {w : Nat} {worker : Worker} (hw : p.workers[w]? = some worker)
    (lane : Nat) : (p.only lane).workers[w]? = some (worker.only lane) := by
  simp [only, hw]

theorem lanes_only {channel : Lane} (hl : p.lanes[lane]? = some channel) :
    (p.only lane).lanes = [channel] := by
  simp [only, hl]

/-- A worker goes on for another lane. -/
theorem only_set_worker_idle {w : Nat} {worker : Worker} (hw : p.workers[w]? = some worker)
    (lane : Nat) (hidle : worker.only lane = .idle) (worker' : Worker)
    (hidle' : worker'.only lane = .idle) :
    (p.workers.set w worker').map (Worker.only lane) = p.workers.map (Worker.only lane) := by
  obtain ⟨hlt, rfl⟩ := List.getElem?_eq_some_iff.mp hw
  have hlt' : w < (p.workers.map (Worker.only lane)).length := by rwa [List.length_map]
  rw [List.map_set, hidle', ← hidle]
  simpa using List.set_getElem_self hlt'

/-- **A move of a pool is a move of each of its lanes, or none.** -/
theorem only_of_move {m : Move} (h : p.move? m = some p') (lane : Nat) :
    p'.only lane = p.only lane ∨ ∃ m', (p.only lane).move? m' = some (p'.only lane) := by
  cases m with
  | take w t =>
    obtain ⟨task, hw, ht, rfl⟩ := take_eq_some h
    have hfilter := filter_eraseIdx (fun task : Task => task.lane == lane) ht
    by_cases hk : task.lane = lane
    · -- the task has another place among those of its lane
      obtain ⟨t', ht', herased⟩ := hfilter.2 (by simp [hk])
      refine Or.inr ⟨.take w t', ?_⟩
      have hworker := getElem?_workers_only hw lane
      have htask : (p.only lane).tasks[t']? = some ⟨0, task.trials⟩ := by simp [only, ht']
      simp only [move?, hworker, Worker.only, htask, Option.bind_eq_bind, Option.bind_some]
      simp [only, List.map_set, hk, Worker.only_on_self, herased, List.eraseIdx_map]
    · refine Or.inl ?_
      have hworkers :=
        only_set_worker_idle hw lane rfl (.on task.lane task.trials)
          (Worker.only_on_ne hk task.trials)
      simp only [only, hworkers, hfilter.1 (by simp [hk])]
  -- a trial is played with the loadout of its lane, which is the one that is kept
  | play w =>
    obtain ⟨k, trial, rest, channel, hw, hl, rfl⟩ := play_eq_some h
    by_cases hk : k = lane
    · subst hk
      refine Or.inr ⟨.play w, ?_⟩
      have hworker := getElem?_workers_only hw k
      simp only [move?, hworker, Worker.only, if_pos, lanes_only hl, Option.bind_eq_bind,
        Option.bind_some]
      simp [only, List.map_set, Worker.only, hl]
    · refine Or.inl ?_
      have hworkers := only_set_worker_idle hw lane (by simp [Worker.only, hk])
        (.sending k (channel.play trial) rest) (by simp [Worker.only, hk])
      simp only [only, hworkers]
  -- there is room in the channel just if there is room in it alone
  | send w =>
    obtain ⟨k, report, rest, channel, hw, hl, hroom, rfl⟩ := send_eq_some h
    by_cases hk : k = lane
    · subst hk
      refine Or.inr ⟨.send w, ?_⟩
      have hworker := getElem?_workers_only hw k
      have hlt := (List.getElem?_eq_some_iff.mp hl).1
      simp only [move?, hworker, Worker.only, if_pos, lanes_only hl, Option.bind_eq_bind,
        Option.bind_some]
      simp [only, List.map_set, Worker.only_on_self, hroom, hlt]
    · refine Or.inl ?_
      have hworkers := only_set_worker_idle hw lane (by simp [Worker.only, hk]) (.on k rest)
        (Worker.only_on_ne hk rest)
      simp only [only, hworkers, List.getElem?_set_ne hk]

theorem only_of_receive {report : Report} (h : p.receive? lane = some (report, p')) :
    (p.only lane).receive? 0 = some (report, p'.only lane) := by
  obtain ⟨channel, queue, hl, hq, rfl⟩ := receive?_eq_some h
  have hlt := (List.getElem?_eq_some_iff.mp hl).1
  have hchannel : (p.only lane).lanes[0]? = some channel := by
    rw [lanes_only hl]
    rfl
  simp only [receive?, hchannel, Option.bind_eq_bind, Option.bind_some, hq]
  simp [only, hl, List.getElem?_set_self hlt]

theorem only_of_receive_ne {k : Nat} {report : Report} (h : p.receive? k = some (report, p'))
    (hne : k ≠ lane) : p'.only lane = p.only lane := by
  obtain ⟨channel, queue, -, -, rfl⟩ := receive?_eq_some h
  simp only [only, List.getElem?_set_ne hne]

variable {channel : Lane} {trials : List Trial} {chunkSize : Nat}

/-- A lane that was there before is not touched by a new one. -/
theorem only_withLane_of_lt (h : lane < p.lanes.length) :
    (p.withLane channel trials chunkSize).only lane = p.only lane := by
  have hne : p.lanes.length ≠ lane := Nat.ne_of_gt h
  simp [withLane, addLane, dispatch, only, List.getElem?_append_left h, List.filter_append, hne]

/-- A new lane has the pool for itself. -/
theorem only_withLane_self {workers : Nat} (h : p.Wired)
    (hworkers : p.workers.length = max 1 workers) :
    (p.withLane channel trials chunkSize).only p.lanes.length =
      (start workers).withLane channel trials chunkSize := by
  -- nobody works for a lane that is not there yet, and no task is one of it
  have hidle :
      p.workers.map (Worker.only p.lanes.length) = List.replicate (max 1 workers) .idle := by
    rw [List.eq_replicate_iff, List.length_map]
    refine ⟨hworkers, fun worker hw => ?_⟩
    obtain ⟨busy, hbusy, rfl⟩ := List.mem_map.mp hw
    exact Worker.only_of_not_isOn
      (Bool.eq_false_iff.mpr fun hon => Nat.lt_irrefl _ (h.workers busy hbusy _ hon))
  have htasks : p.tasks.filter (·.lane == p.lanes.length) = [] := by
    rw [List.filter_eq_nil_iff]
    intro task ht
    simpa using Nat.ne_of_lt (h.tasks task ht)
  simp only [withLane, addLane, dispatch, only, start, hidle, List.filter_append, htasks]
  simp [List.filter_map, Function.comp_def]

end Only

end Pool
end Trials
end CombatTrials
