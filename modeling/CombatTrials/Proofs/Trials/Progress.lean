import CombatTrials.Proofs.Trials.Soundness

/-!
# Every job comes to its end

Two things make sure of that, in whatever order threads and workers go on. Every move lowers the
effort that is left (`Step.effort_lt`), so there is no endless run, also with a capacity of one and
many jobs. And as long as some job is not over there is a move (`Sound.gone_of_stuck`), so no run
ends early.

For the second, suppose that nothing can go on. Then every lane is empty: what is in a lane is owed
to a job, and that job would receive it. So no worker is held up, and as none of them can go on
there is no work left. Nothing is owed any more, and a job that is owed nothing does not wait.
-/

namespace CombatTrials
namespace Trials

open Data (sumOf sumOf_set)

/-! ## No run is endless

The effort of a simulator is that of its jobs and of its pool. Each move takes a step off the one or
the other, and a launch, which adds to the pool, was counted with all that it adds. -/

namespace Simulator

/-- A move of one job lowers the effort if it costs that job and the pool more than it leaves them.
-/
theorem effort_turn {s : Simulator} {j : Nat} {job job' : Job} (hj : s.jobs[j]? = some job)
    (registry : Registry) {pool : Pool}
    (hlt : pool.effort + job'.effort < s.pool.effort + job.effort) :
    (Simulator.mk s.settings registry pool (s.jobs.set j job')).effort < s.effort := by
  have hjobs := sumOf_set Job.effort hj job'
  simp only [effort]
  omega

/-- **Every move lowers the effort that is left.** -/
theorem Step.effort_lt {s : Simulator} {m : Move} {after : Published × Simulator}
    (h : Step s m after) : after.2.effort < s.effort := by
  cases h with
  | @work m pool hm =>
    have hpool := Pool.effort_of_step (Pool.step_of_move hm)
    simp only [effort]
    omega
  | @launch j job hj hp =>
    refine effort_turn hj _ ?_
    rcases Job.launch_spec s.settings s.pool job.request with
      ⟨crashing, published, hlaunch, -⟩ | ⟨loadout, -, -, -, hlaunch⟩
    · rw [hlaunch]
      simp only [Job.effort, hp]
      omega
    · rw [hlaunch]
      -- a launch is counted with the four moves that each of its trials may take
      have hempty : (Lane.empty loadout job.request.maxTurns
          s.settings.channelCapacity.toNat).queue = [] := rfl
      have hlane := Pool.effort_withLane_le s.pool hempty
        (Schedule.ofSeed job.request.seed job.request.maxIterations).toList
        s.settings.chunkSize.toNat
      rw [Schedule.length_toList_ofSeed] at hlane
      simp only [Job.effort, hp]
      omega
  | lose hj hp | leave hj hp =>
    refine effort_turn hj _ ?_
    simp only [Job.effort, hp]
    omega
  | receive hj hc =>
    obtain ⟨loadout, lane, collector, report, pool', hp, -, hr, rfl⟩ := Job.receive?_eq_some hc
    have hpool := Pool.effort_of_receive hr
    refine effort_turn hj _ ?_
    simp only [Job.effort, hp]
    omega
  | @conclude j job change hj hc =>
    refine effort_turn hj _ ?_
    cases hp : job.phase with
    -- only a collecting job can conclude
    | waiting | leaving | gone => exact absurd hc (by simp [hp, Job.conclude?])
    | collecting loadout lane collector =>
      simp only [hp, Job.conclude?] at hc
      have hchange : change.phase = .leaving false ∧ change.pool = s.pool := by
        split at hc
        · split at hc
          · exact Option.some.inj hc ▸ ⟨rfl, rfl⟩
          · exact absurd hc (by simp)
        · exact Option.some.inj hc ▸ ⟨rfl, rfl⟩
      simp only [Job.effort, hp, hchange]
      omega

end Simulator

/-! ## No run ends early

By contradiction, from the lanes back to the jobs. It uses that nothing lies in a lane that is not
owed to some job. -/

namespace Chronicle

variable {settings : Settings} {c : Chronicle}

/-- When no job can receive anything, every lane is empty. -/
theorem Sound.queue_eq_nil (h : Sound settings c) (hstuck : ∀ j, c.now.move? (.receive j) = none)
    {lane : Nat} {channel : Lane} (hl : c.now.pool.lanes[lane]? = some channel) :
    channel.queue = [] := by
  cases hq : channel.queue with
  | nil => rfl
  | cons report queue =>
    have howed : c.now.pool.owed lane ≠ [] := by
      rw [Pool.owed_of_lane hl c.now.pool.workers c.now.pool.tasks, hq]
      simp
    -- the report in front is owed to some job, and that job could receive it
    obtain ⟨j, job, hj, hlane⟩ := h.claimed howed
    cases hp : job.phase with
    | waiting | leaving | gone => exact absurd hlane (by simp [hp, Phase.lane?])
    | collecting loadout lane' collector =>
      have hstand := h.standing hj
      rw [hp] at hstand hlane
      obtain rfl := Option.some.inj hlane
      obtain ⟨-, -, -, -, hr, hcollector, -⟩ := hstand.of_collecting
      have hwait := (Job.isWaiting_after_iff_owed hr settings.updateInterval).mpr howed
      rw [← hcollector] at hwait
      refine absurd (hstuck j) ?_
      simp [Simulator.move?, hj, hp, Job.receive?, hwait, Pool.receive?, hl, hq]

/-- **Where nothing can go on, every job is over.** -/
theorem Sound.gone_of_stuck (h : Sound settings c) (hstuck : ∀ m, c.now.move? m = none)
    {j : Nat} {job : Job} (hj : c.now.jobs[j]? = some job) : job.phase = .gone := by
  have hempty : ∀ channel ∈ c.now.pool.lanes, channel.queue = [] := by
    intro channel hmem
    obtain ⟨lane, hl⟩ := List.mem_iff_getElem?.mp hmem
    exact h.queue_eq_nil (fun k => hstuck (.receive k)) hl
  have hpool : ∀ m, c.now.pool.move? m = none := by
    intro m
    cases hm : c.now.pool.move? m with
    | none => rfl
    | some pool => exact absurd (hstuck (.work m)) (by simp [Simulator.move?, hm])
  cases hp : job.phase with
  | gone => rfl
  | waiting => exact absurd (hstuck (.launch j)) (by simp [Simulator.move?, hj, hp])
  | leaving crashing => exact absurd (hstuck (.leave j)) (by simp [Simulator.move?, hj, hp])
  | collecting loadout lane collector =>
    have hstand := h.standing hj
    rw [hp] at hstand
    obtain ⟨-, -, -, ⟨channel, hl, -⟩, hr, hcollector, -⟩ := hstand.of_collecting
    have hnone : c.now.pool.receive? lane = none := by
      simp [Pool.receive?, hl, hempty channel (List.mem_of_getElem? hl)]
    -- nobody works any more, so nothing is owed and the job does not wait
    have howed := Pool.owed_of_isAbandoned hnone (h.wired.isAbandoned hpool hempty lane)
    have hwait : collector.isWaiting = false := by
      rw [hcollector, Bool.eq_false_iff]
      exact fun hw => (Job.isWaiting_after_iff_owed hr settings.updateInterval).mp hw howed
    refine absurd (hstuck (.conclude j)) ?_
    simp [Simulator.move?, hj, hp, Job.conclude?, hwait]

end Chronicle
end Trials
end CombatTrials
