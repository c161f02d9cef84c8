import CombatTrials.Fixture.Loadouts
import CombatTrials.Proofs.Trials.Progress

/-!
# What scheduling and settings show of a job

A job of several iterations is cut into chunks, played by some workers in some order, and collected
at some interval, and meanwhile others do the same beside it. `Job.sequential` is what it would come
to if its iterations were played one after the other, and that is what it comes to.

There is one setting that can show. The lane of a job is made with all its places, and for some
capacities that is not possible: then the thread crashes before anything is played. So the result is
the sequential one exactly if the lane can be made, and `result_depends_on_capacity` is a job for
which it cannot.
-/

namespace CombatTrials
namespace Trials

open Stage (Loadout)
open List (Perm)

/-- The last snapshot of a job whose iterations are played one after the other, in the order of the
schedule. -/
def Job.sequential (request : Request Setup) (loadout : Loadout) : Snapshot :=
  (Collector.after request.maxIterations 1 (Job.reports request loadout)).finish loadout
    request.maxTurns

namespace Job

variable {settings : Settings} {request : Request Setup} {loadout : Loadout}
  {received : List Report}

/-- Neither the order of reports nor the interval shows in the last snapshot. -/
theorem finish_eq_sequential (hr : Perm received (reports request loadout)) (interval : UInt32) :
    (Collector.after request.maxIterations interval received).finish loadout request.maxTurns =
      sequential request loadout := by
  have hn :=
    (hr.map fun report => report.trial.index).nodup_iff.mpr (nodup_index_reports request loadout)
  rw [Collector.after_perm _ _ hr hn]
  exact Collector.finish_after_interval _ _ _ _ _ _

/-- The sequential result has a log, so a snapshot without one is another. -/
theorem ne_sequential {s : Snapshot} (h : s.fullLog = none) : s ≠ sequential request loadout := by
  rintro rfl
  unfold sequential Collector.finish at h
  split at h
  · exact absurd h (by simp [Snapshot.withLog])
  · dsimp only at h
    split at h <;> exact absurd h (by simp [Snapshot.withLog, Snapshot.withError])

/-- What a stream of reports comes to for a job that consumes it. -/
def consumption (settings : Settings) (request : Request Setup) (received : List Report) :
    Collector.Consumption :=
  (Collector.start request.maxIterations settings.updateInterval).consume received

/-- In whatever order they come in, the reports of a job leave no shortfall. -/
theorem consumption_eq (settings : Settings) (hr : Perm received (reports request loadout)) :
    consumption settings request received =
      ⟨.after request.maxIterations settings.updateInterval received,
        Collector.published request.maxIterations settings.updateInterval received, [], none⟩ :=
  Collector.consume_start _ _ (by rw [hr.length_eq, length_reports])

/-- At any time, what was received is a part of what there is to receive. -/
theorem Course.received_part {crashing : Bool} {stored : List Snapshot}
    (h : Course settings request crashing stored received) (hl : request.loadout = .built loadout) :
    ∃ missing, Perm (received ++ missing) (reports request loadout) := by
  cases h with
  | crashed | failed | single | laneless => exact ⟨reports request loadout, .refl _⟩
  | @many loadout' _ hl' hn hm hr =>
    obtain rfl := Setup.built.inj (hl'.symm.trans hl)
    exact ⟨[], by rwa [List.append_nil]⟩

/-- What a job received is a part of its reports also while it is still collecting: the rest is owed
to it. -/
theorem Standing.received_part {pool : Pool} {lost : Prop} {phase : Phase} {stored : List Snapshot}
    (h : Standing settings pool request lost phase stored received)
    (hl : request.loadout = .built loadout) :
    ∃ missing, Perm (received ++ missing) (reports request loadout) := by
  cases h with
  | waiting | lost => exact ⟨reports request loadout, .refl _⟩
  | @collecting loadout' lane _ hl' hn hm hs hr =>
    obtain rfl := Setup.built.inj (hl'.symm.trans hl)
    exact ⟨pool.owed lane, hr⟩
  | leaving h | gone h => exact h.received_part hl

/-- How the thread of a job of several iterations comes to its end. -/
theorem Course.of_many {crashing : Bool} {stored : List Snapshot}
    (h : Course settings request crashing stored received) (hl : request.loadout = .built loadout)
    (hn : request.maxIterations ≠ 1) :
    (Lane.canBeMade settings.channelCapacity.toNat = true ∧ crashing = false ∧
      Perm received (reports request loadout) ∧
      stored = .pending request.maxIterations ::
        (Collector.published request.maxIterations settings.updateInterval received ++
          [sequential request loadout])) ∨
    (Lane.canBeMade settings.channelCapacity.toNat = false ∧ crashing = true ∧ received = [] ∧
      stored = [.pending request.maxIterations]) := by
  cases h with
  | crashed hl' | failed hl' => exact absurd (hl.symm.trans hl') (by simp)
  | single _ hn' => exact absurd hn' hn
  | laneless _ _ hm => exact Or.inr ⟨hm, rfl, rfl, rfl⟩
  | @many loadout' _ hl' _ hm hr =>
    obtain rfl := Setup.built.inj (hl'.symm.trans hl)
    exact Or.inl ⟨hm, rfl, hr, by rw [finish_eq_sequential hr]⟩

end Job

namespace Chronicle

variable {settings : Settings} {workers : Nat} {c : Chronicle}

/-- **What a job of several iterations comes to**, under any settings, with any number of workers,
beside any other jobs, and in whatever order threads and workers go on.

It never receives anything but the reports of its schedule, and none of them twice. The run goes on
until the job is over. Then, if a lane could be made, it received each report once, consuming them
leaves no shortfall, and after the progress the sequential result was stored. If not, nothing was
received and an error was stored. -/
theorem sequential_result_iff {j : Nat} {job : Job} {loadout : Loadout}
    (h : Reachable settings workers c) (hj : c.now.jobs[j]? = some job)
    (hl : job.request.loadout = .built loadout) (hn : job.request.maxIterations ≠ 1)
    (hstarted : Simulator.Move.lose j ∉ c.moves) :
    (∃ missing, Perm (c.receivedBy j ++ missing) (Job.reports job.request loadout)) ∧
    (∀ m after, c.now.move? m = some after → after.2.effort < c.now.effort) ∧
    ((∀ m, c.now.move? m = none) → job.phase = .gone) ∧
    (job.phase = .gone →
      (c.now.registry.lookup job.lease.token = some (Job.sequential job.request loadout) ↔
        Lane.canBeMade settings.channelCapacity.toNat = true) ∧
      (Lane.canBeMade settings.channelCapacity.toNat = true →
        Perm (c.receivedBy j) (Job.reports job.request loadout) ∧
        (Job.consumption settings job.request (c.receivedBy j)).shortfall = none ∧
        (Job.consumption settings job.request (c.receivedBy j)).left = [] ∧
        c.storedUnder job.lease.token = .pending job.request.maxIterations ::
          ((Job.consumption settings job.request (c.receivedBy j)).published ++
            [Job.sequential job.request loadout])) ∧
      (Lane.canBeMade settings.channelCapacity.toNat = false →
        c.receivedBy j = [] ∧
        c.storedUnder job.lease.token = [.pending job.request.maxIterations,
          (Snapshot.pending job.request.maxIterations).withError "job thread panicked"])) := by
  have hsound := h.sound
  have hstand := hsound.standing hj
  refine ⟨hstand.received_part hl, ?_, ?_, ?_⟩
  · intro m after hm
    exact (Simulator.step_of_move hm).effort_lt
  · intro hstuck
    exact hsound.gone_of_stuck hstuck hj
  intro hgone
  rw [hgone] at hstand
  rw [h.lookup_eq]
  -- a job that is over came to its end in one of two ways, and its thread did start
  rcases hstand.of_gone with ⟨hlost, -, -⟩ | ⟨crashing, told, hcourse, hstored⟩
  · exact absurd hlost hstarted
  · rw [hstored]
    rcases hcourse.of_many hl hn with ⟨hm, rfl, hr, rfl⟩ | ⟨hm, rfl, hr, rfl⟩
    · -- a lane was made: the job stored its own result, and releasing the lease adds nothing to it
      have hconsumption := Job.consumption_eq settings hr
      have hlast : (Job.closed job.request false (.pending job.request.maxIterations ::
          (Collector.published job.request.maxIterations settings.updateInterval (c.receivedBy j) ++
            [Job.sequential job.request loadout]))).getLast? =
          some (Job.sequential job.request loadout) := by
        simp only [Job.closed, Bool.false_eq_true, if_false, List.append_nil]
        rw [← List.cons_append, List.getLast?_concat]
      have hmade : Lane.canBeMade settings.channelCapacity.toNat ≠ false := by simp [hm]
      refine ⟨by simp [hlast, hm], fun _ => ⟨hr, ?_, ?_, ?_⟩, fun hm' => absurd hm' hmade⟩
      · rw [hconsumption]
      · rw [hconsumption]
      · rw [hconsumption]
        simp [Job.closed]
    · -- none could be made: what was stored is the crash, which has no log
      have hnot : Lane.canBeMade settings.channelCapacity.toNat ≠ true := by simp [hm]
      refine ⟨?_, fun hm' => absurd hm' hnot, fun _ => ⟨hr, rfl⟩⟩
      rw [hm]
      simpa [Job.closed] using Job.ne_sequential rfl

/-- Three iterations of which the first crashes, played by two workers out of order in chunks of
one, through a lane with one place: what is stored in the end is the sequential result. -/
theorem sequential_result_of_three :
    ∃ c job, Reachable ⟨none, 2, 1, 1, 0⟩ 2 c ∧ c.now.jobs[0]? = some job ∧
      job.request = ⟨30, 3, 0, .built (Fixture.scripted (some (singleSeed 0)))⟩ ∧
      Simulator.Move.lose 0 ∉ c.moves ∧ job.phase = .gone ∧ Lane.canBeMade 1 = true ∧
      Perm (c.receivedBy 0) (Job.reports job.request (Fixture.scripted (some (singleSeed 0)))) ∧
      c.now.registry.lookup job.lease.token =
        some (Job.sequential job.request (Fixture.scripted (some (singleSeed 0)))) := by
  let moves : List Simulator.Move :=
    [.launch 0, .work (.take 0 2), .work (.take 1 0), .work (.play 0), .work (.play 1),
      .work (.send 1), .receive 0, .work (.send 0), .work (.take 1 0), .work (.play 1),
      .receive 0, .work (.send 1), .receive 0, .conclude 0, .leave 0]
  have hend : ((ofJob? ⟨none, 2, 1, 1, 0⟩ 2
      ⟨30, 3, 0, .built (Fixture.scripted (some (singleSeed 0)))⟩ moves).map fun c =>
        c.now.jobs[0]?.map Job.effort) = some (some 0) := by decide +kernel
  obtain ⟨c, hc, heffort⟩ := Option.map_eq_some_iff.mp hend
  obtain ⟨h, hmoves, job, hj, hrequest⟩ := ofJob?_eq_some hc
  have hgone : job.phase = .gone := Job.effort_eq_zero_iff.mp (by simpa [hj] using heffort)
  have hstarted : Simulator.Move.lose 0 ∉ c.moves := by rw [hmoves]; decide
  obtain ⟨-, -, -, hend⟩ :=
    sequential_result_iff h hj (by rw [hrequest]) (by rw [hrequest]; decide) hstarted
  obtain ⟨hiff, hmade, -⟩ := hend hgone
  exact ⟨c, job, h, hj, hrequest, hstarted, hgone, by decide, (hmade (by decide)).1,
    hiff.mpr (by decide)⟩

/-- **Settings can show in a result.** Of a lane with the greatest capacity there is, the places
cannot be made, and a job that needs it ends in an error before anything was played. -/
theorem result_depends_on_capacity :
    ¬ ∀ (settings : Settings) (workers : Nat) (c : Chronicle) (j : Nat) (job : Job)
      (loadout : Loadout),
      Reachable settings workers c → c.now.jobs[j]? = some job →
      job.request.loadout = .built loadout → job.request.maxIterations ≠ 1 →
      Simulator.Move.lose j ∉ c.moves → job.phase = .gone →
      c.now.registry.lookup job.lease.token = some (Job.sequential job.request loadout) := by
  intro hall
  -- the thread crashes on its first move, and releasing the lease says so
  have hend : ((ofJob? ⟨none, 2, 10000, 18446744073709551615, 10000⟩ 1
      ⟨30, 4, 0, .built (Fixture.scripted none)⟩ [.launch 0, .leave 0]).map fun c =>
        (c.now.jobs[0]?.map fun job =>
          (job.effort, c.now.registry.lookup job.lease.token))) =
      some (some (0, some ((Snapshot.pending 4).withError "job thread panicked"))) := by
    decide +kernel
  obtain ⟨c, hc, hstate⟩ := Option.map_eq_some_iff.mp hend
  obtain ⟨h, hmoves, job, hj, hrequest⟩ := ofJob?_eq_some hc
  obtain ⟨heffort, hlookup⟩ : job.effort = 0 ∧ c.now.registry.lookup job.lease.token =
      some ((Snapshot.pending 4).withError "job thread panicked") := by
    simpa [hj] using hstate
  have hsame :=
    hall _ _ c 0 job (Fixture.scripted none) h hj (by rw [hrequest]) (by rw [hrequest]; decide)
      (by rw [hmoves]; decide) (Job.effort_eq_zero_iff.mp heffort)
  exact Job.ne_sequential rfl (Option.some.inj (hlookup.symm.trans hsame))

end Chronicle
end Trials
end CombatTrials
