import CombatTrials.Fixture.Loadouts
import CombatTrials.Proofs.Trials.Soundness

/-!
# Jobs of a single iteration

A job with a single iteration has a way of its own: it draws one seed, plays it with a log at once
and stores what came of it, with no schedule, no lane and no collector. A job of several iterations
plays them without logs, collects the endings and plays the one that represents the job once more.
The two are written apart, and still they agree. A schedule begins with the first draw, however many
trials it has (`Schedule.toList_ofSeed`), so a schedule of one trial plays that seed, its report is
the only one to choose, and the replay is the play of the single way.

What is left of the difference is that the quiet play was counted and the logged one is shown. So
the loadout must end a logged play as it ends a quiet one. Besides, the collector puts the number of
the iteration before the log.
-/

namespace CombatTrials
namespace Trials

open Stage (Loadout PlayFault)

/-! ## The first trial

The one place where the two ways meet is the seed. From there on each is computed, and the results
are compared field by field. -/

/-- A schedule with any trials at all begins with the seed of the single way. -/
theorem Schedule.toList_ofSeed (master : UInt64) {count : UInt32} (h : 0 < count) :
    ∃ rest, (ofSeed master count).toList = ⟨0, singleSeed master⟩ :: rest := by
  have hfirst : ∃ s, (ofSeed master count).next? = some (⟨0, singleSeed master⟩, s) := by
    have hleft : (ofSeed master count).position < (ofSeed master count).count := h
    unfold next?
    rw [dif_pos hleft]
    exact ⟨_, rfl⟩
  obtain ⟨s, hs⟩ := hfirst
  exact ⟨s.toList, toList_of_next? hs⟩

namespace Job

variable {request : Request Setup} {loadout : Loadout}

/-- The reports of a single iteration are one report, of the seed that the single way draws. -/
theorem reports_of_single (hn : request.maxIterations = 1) (loadout : Loadout) :
    reports request loadout =
      [⟨⟨0, singleSeed request.seed⟩,
        loadout.outcome (singleSeed request.seed) request.maxTurns⟩] := by
  have hlength := length_reports request loadout
  have hpos : 0 < request.maxIterations := by
    rw [hn]
    decide
  obtain ⟨rest, hrest⟩ := Schedule.toList_ofSeed request.seed hpos
  unfold reports at hlength ⊢
  rw [hrest, hn] at hlength
  have hnil : rest = [] := by simpa using hlength
  rw [hrest, hnil]
  rfl

theorem single_eq (loadout : Loadout) (seed : UInt64) (maxTurns : UInt32) :
    single loadout seed maxTurns =
      { Snapshot.progress 1 1
        (.ofList [.ofEnding (loadout.replay (singleSeed seed) maxTurns).1]) with
        fullLog := some (loadout.replay (singleSeed seed) maxTurns).2
        error :=
          (loadout.replay (singleSeed seed) maxTurns).1.fault?.map PlayFault.diagnosis } := by
  unfold single
  dsimp only
  cases (loadout.replay (singleSeed seed) maxTurns).1.fault? <;> rfl

/-- The last snapshot of a collector that got the report of a single iteration. -/
theorem finish_of_single (request : Request Setup) (loadout : Loadout)
    (hn : request.maxIterations = 1) (interval : UInt32) :
    (Collector.after 1 interval (reports request loadout)).finish loadout request.maxTurns =
      { Snapshot.progress 1 1
        (.ofList [.ofEnding (loadout.outcome (singleSeed request.seed) request.maxTurns)]) with
        fullLog :=
          some ("Iteration 1\n" ++ (loadout.replay (singleSeed request.seed) request.maxTurns).2)
        error :=
          (loadout.replay (singleSeed request.seed) request.maxTurns).1.fault?.map
            PlayFault.diagnosis } := by
  have hselected : (Collector.after 1 interval (reports request loadout)).selector.selected =
      some ⟨0, singleSeed request.seed⟩ := by
    rw [Collector.selected_after, reports_of_single hn]
    rfl
  -- indices count from zero and iterations are shown from one on
  have hheading : s!"Iteration {(0 : UInt32) + 1}\n" = "Iteration 1\n" := by decide
  rw [Collector.finish_of_selected hselected, Collector.snapshot_after,
    reports_of_single hn, ← hheading]
  rfl

/-- A thread with a single iteration to play comes to its end in one way. -/
theorem Course.of_single {settings : Settings} {crashing : Bool} {stored : List Snapshot}
    {received : List Report} (h : Course settings request crashing stored received)
    (hl : request.loadout = .built loadout) (hn : request.maxIterations = 1) :
    crashing = false ∧ stored = [.pending 1, Job.single loadout request.seed request.maxTurns] := by
  cases h with
  | crashed hl' | failed hl' => exact absurd (hl.symm.trans hl') (by simp)
  | laneless _ hn' | many _ hn' => exact absurd hn hn'
  | @single loadout' hl' =>
    obtain rfl := Setup.built.inj (hl'.symm.trans hl)
    rw [hn]
    exact ⟨rfl, rfl⟩

end Job

namespace Chronicle

variable {settings : Settings} {workers : Nat} {c : Chronicle}

/-- A job with a single iteration stores one snapshot once its thread has started. -/
theorem storedUnder_of_single {j : Nat} {job : Job} {loadout : Loadout}
    (h : Reachable settings workers c) (hj : c.now.jobs[j]? = some job)
    (hl : job.request.loadout = .built loadout) (hn : job.request.maxIterations = 1)
    (hstarted : Simulator.Move.lose j ∉ c.moves) (hgone : job.phase = .gone) :
    c.storedUnder job.lease.token =
      [.pending 1, Job.single loadout job.request.seed job.request.maxTurns] := by
  have hstand := h.sound.standing hj
  rw [hgone] at hstand
  rcases hstand.of_gone with ⟨hlost, -, -⟩ | ⟨crashing, told, hcourse, hstored⟩
  · exact absurd hlost hstarted
  · obtain ⟨rfl, rfl⟩ := hcourse.of_single hl hn
    exact hstored.trans (List.append_nil _)

/-- **The single way agrees with the other.** Where a loadout ends a logged play as it ends a quiet
one, what a job with a single iteration stores in the end is what a collector would have made of the
schedule of one trial, played without logs, in every field; but the log has the number of the
iteration before it there. The seed is that of the first iteration of every job under the same
master seed. -/
theorem single_agrees_with_many (loadout : Loadout) (master : UInt64) (maxTurns : UInt32)
    (hquiet : ∀ seed, (loadout.replay seed maxTurns).1 = loadout.outcome seed maxTurns) :
    let request : Request Setup := ⟨maxTurns, 1, master, .built loadout⟩
    let single := Job.single loadout master maxTurns
    (∀ interval,
      (Collector.after 1 interval (Job.reports request loadout)).finish loadout maxTurns =
      { single with fullLog := single.fullLog.map ("Iteration 1\n" ++ ·) }) ∧
    single.fullLog = some (loadout.replay (singleSeed master) maxTurns).2 ∧
    (∀ count : UInt32, 0 < count →
      ∃ rest, (Schedule.ofSeed master count).toList = ⟨0, singleSeed master⟩ :: rest) ∧
    ∀ {settings workers c j job}, Reachable settings workers c → c.now.jobs[j]? = some job →
      job.request = request → Simulator.Move.lose j ∉ c.moves → job.phase = .gone →
      c.now.registry.lookup job.lease.token = some single := by
  intro request single
  refine ⟨fun interval => ?_, ?_, fun count hcount => Schedule.toList_ofSeed master hcount, ?_⟩
  · -- the collector counts the quiet play and shows the logged one, which end alike
    have hsingle : single = _ := Job.single_eq loadout master maxTurns
    have hfinish := Job.finish_of_single request loadout rfl interval
    rw [hfinish, hsingle, ← hquiet]
    rfl
  · have hsingle : single = _ := Job.single_eq loadout master maxTurns
    rw [hsingle]
  · -- whatever happened to the simulator, the job stored one snapshot after that of its submission
    intro settings workers c j job h hj hrequest hstarted hgone
    have hl : job.request.loadout = .built loadout := by rw [hrequest]
    have hn : job.request.maxIterations = 1 := by rw [hrequest]
    have hstored := storedUnder_of_single h hj hl hn hstarted hgone
    rw [h.lookup_eq, hstored, hrequest]
    rfl

/-- The only iteration crashes, and the log in the end is the one line that a crash leaves. -/
theorem single_agrees_with_many_in_a_crash :
    let loadout := Fixture.scripted (some (singleSeed 0))
    let request : Request Setup := ⟨30, 1, 0, .built loadout⟩
    let line := "Stage panicked: " ++ s!"scripted panic for seed {singleSeed 0}" ++ "\n"
    ∃ c job s, Reachable ⟨none, 2, 1, 1, 0⟩ 2 c ∧ c.now.jobs[0]? = some job ∧
      job.request = request ∧ Simulator.Move.lose 0 ∉ c.moves ∧ job.phase = .gone ∧
      c.now.registry.lookup job.lease.token = some s ∧
      s.fullLog = some line ∧
      (Collector.after 1 7 (Job.reports request loadout)).finish loadout 30 =
        { s with fullLog := some ("Iteration 1\n" ++ line) } ∧
      (∀ seed, (loadout.replay seed 30).1 = loadout.outcome seed 30) ∧
      ∃ rest, (Schedule.ofSeed 0 5).toList = ⟨0, singleSeed 0⟩ :: rest := by
  intro loadout request line
  have hquiet : ∀ seed, (loadout.replay seed 30).1 = loadout.outcome seed 30 := by
    intro seed
    simp only [loadout, Loadout.replay, Loadout.outcome, Fixture.scripted,
      Fixture.ScriptedStage.play]
    split <;> rfl
  have hend : ((ofJob? ⟨none, 2, 1, 1, 0⟩ 2 request [.launch 0, .leave 0]).map fun c =>
      c.now.jobs[0]?.map Job.effort) = some (some 0) := by decide +kernel
  obtain ⟨c, hc, heffort⟩ := Option.map_eq_some_iff.mp hend
  obtain ⟨h, hmoves, job, hj, hrequest⟩ := ofJob?_eq_some hc
  have hgone : job.phase = .gone := Job.effort_eq_zero_iff.mp (by simpa [hj] using heffort)
  have hstarted : Simulator.Move.lose 0 ∉ c.moves := by rw [hmoves]; decide
  have hfive : (0 : UInt32) < 5 := by decide
  obtain ⟨hcollected, hlog, hfirst, hstored⟩ := single_agrees_with_many loadout 0 30 hquiet
  have hcrash : loadout.perform (singleSeed 0) true 30 =
      .crashed (.message s!"scripted panic for seed {singleSeed 0}") := if_pos rfl
  have hline : (loadout.replay (singleSeed 0) 30).2 = line := by
    simp only [Loadout.replay, hcrash]
    rfl
  refine ⟨c, job, Job.single loadout 0 30, h, hj, hrequest, hstarted, hgone,
    hstored h hj hrequest hstarted hgone, ?_, ?_, hquiet, hfirst 5 hfive⟩
  · rw [hlog, hline]
  · rw [hcollected 7, hlog, hline]
    rfl

end Chronicle
end Trials
end CombatTrials
