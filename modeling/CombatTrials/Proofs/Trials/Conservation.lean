import CombatTrials.Fixture.Loadouts
import CombatTrials.Proofs.Trials.Soundness

/-!
# The counts of a job add up

A snapshot is made in seven places: when a job is submitted, when progress is due, when every report
came in, when a single iteration was played, when the reports end early, when the setup fails, and
when a lease is released over a job without a result. `Snapshot.Conserves` is what all of them have
to respect, whoever made the snapshot, and `Job.Conserved` is the same of everything that is stored
of a job, with the number of completed iterations not going down.

The counts are numbers of thirty-two and of sixty-four bits, and the sums here are of natural
numbers. That they agree is due to the number of iterations being one of thirty-two bits: no count
ever gets past that, not even where all iterations that can be asked for are asked for.
-/

namespace CombatTrials
namespace Trials

open Data (sumOf)
open Stage (Loadout)
open List (Perm)

/-! ## Snapshots

Each of the seven places has a lemma. A log and an error leave the counts as they are, so what is
respected by the progress is respected by the last snapshot. -/

/-- What a snapshot of a job respects that was asked for some number of iterations. -/
structure Snapshot.Conserves (maxIterations : UInt32) (s : Snapshot) : Prop where
  max_eq : s.maxIterations = maxIterations
  completed_le : s.completedIterations ≤ s.maxIterations
  /-- The counts add up to the number of completed iterations. -/
  sum_eq : sumOf (fun entry => entry.count.toNat) s.histogram = s.completedIterations.toNat
  /-- The outcomes are in their order, each once. -/
  ascending : s.histogram.Pairwise fun a b => a.outcome < b.outcome
  counted : ∀ entry ∈ s.histogram, 1 ≤ entry.count
  /-- A cancelled job counted nothing and says why. -/
  cancelled : s.cancelled = true → s.completedIterations = 0 ∧ s.histogram = [] ∧
    s.error.isSome = true

namespace Snapshot

variable {n : UInt32} {s : Snapshot}

/-- The snapshot of a submission counts nothing, and is not cancelled. -/
theorem conserves_pending (n : UInt32) : (pending n).Conserves n where
  max_eq := rfl
  completed_le := UInt32.zero_le
  sum_eq := rfl
  ascending := List.Pairwise.nil
  counted _ h := absurd h List.not_mem_nil
  cancelled h := absurd h Bool.false_ne_true

/-- Progress on no more outcomes than iterations were asked for. -/
theorem conserves_progress (outcomes : List Outcome) (h : outcomes.length ≤ n.toNat) :
    (progress n (.ofNat outcomes.length) (.ofList outcomes)).Conserves n := by
  have hsize := n.toNat_lt_size
  -- as many as thirty-two bits can hold, since no more were asked for
  have hlength : (UInt32.ofNat outcomes.length).toNat = outcomes.length :=
    UInt32.toNat_ofNat_of_lt' (by omega)
  have hroom : outcomes.length < UInt64.size := by
    simp only [UInt32.size, UInt64.size] at *
    omega
  refine ⟨rfl, ?_, ?_, Histogram.ascending_entries_ofList outcomes, ?_, ?_⟩
  · exact UInt32.le_iff_toNat_le.mpr (Nat.le_trans (Nat.le_of_eq hlength) h)
  · exact (Histogram.sumOf_entries_ofList hroom).trans hlength.symm
  · intro entry he
    exact UInt64.le_iff_toNat_le.mpr (Histogram.entry_pos_ofList hroom entry he)
  · intro hc
    exact absurd hc Bool.false_ne_true

theorem Conserves.withLog (h : s.Conserves n) (log : String) : (s.withLog log).Conserves n :=
  ⟨h.max_eq, h.completed_le, h.sum_eq, h.ascending, h.counted, h.cancelled⟩

theorem Conserves.withError (h : s.Conserves n) (error : String) :
    (s.withError error).Conserves n :=
  ⟨h.max_eq, h.completed_le, h.sum_eq, h.ascending, h.counted,
    fun hc => ⟨(h.cancelled hc).1, (h.cancelled hc).2.1, rfl⟩⟩

/-- A setup that failed is cancelled: it counted nothing, and says why. -/
theorem conserves_setupFailed (n : UInt32) (diagnosis : String) :
    (setupFailed n diagnosis).Conserves n :=
  have h := conserves_pending n
  ⟨h.max_eq, h.completed_le, h.sum_eq, h.ascending, h.counted, fun _ => ⟨rfl, rfl, rfl⟩⟩

/-- What a lease publishes counts nothing, and says why. It is cancelled only without a crash. -/
theorem conserves_closing (n : UInt32) (crashing : Bool) :
    (closing (pending n) crashing).Conserves n := by
  have h := conserves_pending n
  cases crashing with
  | true => exact h.withError _
  | false =>
    exact ⟨h.max_eq, h.completed_le, h.sum_eq, h.ascending, h.counted, fun _ => ⟨rfl, rfl, rfl⟩⟩

end Snapshot

/-- The snapshot of a collector respects what was asked for, as long as no more reports came in. -/
theorem Collector.conserves_snapshot (n interval : UInt32) {reports : List Report}
    (h : reports.length ≤ n.toNat) : (after n interval reports).snapshot.Conserves n := by
  rw [snapshot_after]
  have hprogress := Snapshot.conserves_progress (reports.map Report.outcome) (by simpa using h)
  simpa using hprogress

/-- A log and an error do not touch the counts, so the last snapshot respects what the progress
does. -/
theorem Collector.conserves_finish {c : Collector} {n : UInt32} (h : c.snapshot.Conserves n)
    (loadout : Loadout) (maxTurns : UInt32) : (c.finish loadout maxTurns).Conserves n := by
  unfold finish
  split
  · exact h.withLog _
  · dsimp only
    split
    · exact (h.withLog _).withError _
    · exact h.withLog _

theorem Collector.completed_finish (c : Collector) (loadout : Loadout) (maxTurns : UInt32) :
    (c.finish loadout maxTurns).completedIterations = c.completed := by
  unfold finish
  split
  · rfl
  · dsimp only
    split <;> rfl

namespace Job

theorem conserves_single (loadout : Loadout) (seed : UInt64) (maxTurns : UInt32) :
    (single loadout seed maxTurns).Conserves 1 := by
  have h := Snapshot.conserves_progress (n := 1)
    [.ofEnding (loadout.replay (singleSeed seed) maxTurns).1] (Nat.le_refl 1)
  unfold single
  dsimp only
  split
  · exact (h.withLog _).withError _
  · exact h.withLog _

/-! ## Everything that is stored of a job

Snapshots are stored one after the other, and each has to count no fewer iterations than those
before. -/

/-- What is respected by everything that is stored of a job, the earlier first. -/
structure Conserved (maxIterations : UInt32) (stored : List Snapshot) : Prop where
  conserves : ∀ s ∈ stored, s.Conserves maxIterations
  /-- The number of completed iterations does not go down. -/
  monotone : stored.Pairwise fun a b => a.completedIterations ≤ b.completedIterations

variable {n : UInt32} {stored : List Snapshot}

theorem conserved_pending (n : UInt32) : Conserved n [.pending n] where
  conserves s hs := by
    rw [List.mem_singleton.mp hs]
    exact Snapshot.conserves_pending n
  monotone := List.pairwise_singleton _ _

/-- One more snapshot, with no fewer completed iterations than the ones before it. -/
theorem Conserved.concat {s : Snapshot} (h : Conserved n stored) (hs : s.Conserves n)
    (hle : ∀ a ∈ stored, a.completedIterations ≤ s.completedIterations) :
    Conserved n (stored ++ [s]) where
  conserves a ha := by
    rcases List.mem_append.mp ha with ha | ha
    · exact h.conserves a ha
    · rwa [List.mem_singleton.mp ha]
  monotone := by
    rw [List.pairwise_append]
    refine ⟨h.monotone, List.pairwise_singleton _ _, ?_⟩
    intro a ha b hb
    rw [List.mem_singleton.mp hb]
    exact hle a ha

theorem conserved_pair {s : Snapshot} (hs : s.Conserves n) : Conserved n [.pending n, s] :=
  (conserved_pending n).concat hs fun a ha => by
    rw [List.mem_singleton.mp ha]
    exact UInt32.zero_le

theorem conserved_published (interval : UInt32) {received : List Report}
    (h : received.length ≤ n.toNat) :
    Conserved n (.pending n :: Collector.published n interval received) where
  conserves s hs := by
    rcases List.mem_cons.mp hs with rfl | hs
    · exact Snapshot.conserves_pending n
    · obtain ⟨k, -, rfl⟩ := Collector.mem_published n interval hs
      exact Collector.conserves_snapshot n interval (Nat.le_trans (List.length_take_le' _ _) h)
  monotone := by
    have hsize := n.toNat_lt_size
    refine List.pairwise_cons.mpr ⟨fun a _ => UInt32.zero_le, ?_⟩
    exact Collector.pairwise_published n interval (by omega)

variable {settings : Settings} {pool : Pool} {request : Request Setup} {lost : Prop} {phase : Phase}
  {received : List Report}

/-- All that the thread of a job stores is respected, in whichever way it comes to its end. -/
theorem Course.conserved {crashing : Bool} (h : Course settings request crashing stored received) :
    Conserved request.maxIterations stored := by
  cases h with
  | crashed | laneless => exact conserved_pending _
  | failed => exact conserved_pair (Snapshot.conserves_setupFailed _ _)
  | single _ hn =>
    refine conserved_pair ?_
    rw [hn]
    exact conserves_single _ _ _
  | @many loadout _ _ _ _ hr =>
    have hlength : received.length = request.maxIterations.toNat := by
      rw [hr.length_eq, length_reports]
    have hsize := request.maxIterations.toNat_lt_size
    rw [← List.cons_append]
    have hle : received.length ≤ request.maxIterations.toNat := Nat.le_of_eq hlength
    refine (conserved_published settings.updateInterval hle).concat
      (Collector.conserves_finish (Collector.conserves_snapshot _ _ hle) _ _) ?_
    -- every iteration is counted by now, so no snapshot before this one counted more
    intro a ha
    rw [Collector.completed_finish, UInt32.le_iff_toNat_le,
      Collector.completed_after _ _ (by omega)]
    rcases List.mem_cons.mp ha with rfl | ha
    · exact Nat.zero_le _
    · exact Collector.completed_of_mem_published _ _ (by omega) ha

/-- So is what is stored of the job at any time, also when its lease is released. -/
theorem Standing.conserved (h : Standing settings pool request lost phase stored received) :
    Conserved request.maxIterations stored := by
  cases h with
  | waiting => exact conserved_pending _
  | collecting _ _ _ _ hr =>
    exact conserved_published _ (Nat.le.intro (length_received_add hr))
  | leaving h => exact h.conserved
  | lost => exact conserved_pair (Snapshot.conserves_closing _ _)
  | @gone crashing told _ h =>
    cases crashing with
    -- without a crash the release of the lease adds nothing
    | false =>
      rw [closed, if_neg Bool.false_ne_true, List.append_nil]
      exact h.conserved
    | true =>
      obtain rfl := h.eq_of_crashing
      exact conserved_pair (Snapshot.conserves_closing _ _)

/-! ## No addition overflows

Two additions are made of thirty-two bits: the collector counts one more report, and the chosen
index is shown from one on. Both are below the number of iterations before. -/

/-- A report that came in is one of the job, so its index is below the number of iterations. -/
theorem index_lt_of_received {loadout : Loadout} {rest : List Report}
    (hr : Perm (received ++ rest) (reports request loadout)) {report : Report}
    (hm : report ∈ received) : report.trial.index.toNat < request.maxIterations.toNat := by
  have hreport := hr.mem_iff.mp (List.mem_append_left _ hm)
  obtain ⟨trial, ht, rfl⟩ := List.mem_map.mp hreport
  exact Schedule.index_lt_of_mem_ofSeed ht

/-- Counting a report that is waited for does not pass the end, and neither does numbering the
chosen iteration from one. -/
theorem Standing.no_overflow {loadout : Loadout} {lane : Nat} {collector : Collector}
    (h : Standing settings pool request lost (.collecting loadout lane collector) stored received) :
    (collector.isWaiting = true → collector.completed.toNat + 1 < UInt32.size) ∧
      ∀ best, collector.selector.selected = some best → best.index.toNat + 1 < UInt32.size := by
  obtain ⟨-, -, -, -, hr, rfl, -⟩ := h.of_collecting
  have hsize := request.maxIterations.toNat_lt_size
  have hlength := length_received_add hr
  refine ⟨?_, ?_⟩
  · intro hwait
    rw [Collector.isWaiting_after_iff _ _ (by omega)] at hwait
    rw [Collector.completed_after _ _ (by omega)]
    omega
  · -- the chosen trial is one that was received, so its index is one of the job
    intro best hbest
    rw [Collector.after_eq] at hbest
    obtain ⟨report, hm, rfl⟩ := Selector.selected_mem hbest
    have hlt := index_lt_of_received hr hm
    omega

end Job

/-! ## All jobs

What holds wherever a job stands holds of every job, as every job stands somewhere. -/

namespace Chronicle

/-- **The counts of every job add up**, at every snapshot that was ever stored under its token,
whatever comes of its setup and its plays, and in whatever order threads and workers go on. The
number of completed iterations never goes down, what can be looked up is the last of these
snapshots, and none of the additions on the way overflows. -/
theorem stored_conserves {settings : Settings} {workers : Nat} {c : Chronicle} {j : Nat} {job : Job}
    (h : Reachable settings workers c) (hj : c.now.jobs[j]? = some job) :
    (∀ s ∈ c.storedUnder job.lease.token, s.Conserves job.request.maxIterations) ∧
    (c.storedUnder job.lease.token).Pairwise
      (fun a b => a.completedIterations ≤ b.completedIterations) ∧
    c.now.registry.lookup job.lease.token = (c.storedUnder job.lease.token).getLast? ∧
    ∀ loadout lane collector, job.phase = .collecting loadout lane collector →
      (collector.isWaiting = true → collector.completed.toNat + 1 < UInt32.size) ∧
      ∀ best, collector.selector.selected = some best → best.index.toNat + 1 < UInt32.size := by
  have hstand := h.sound.standing hj
  have hconserved := hstand.conserved
  refine ⟨hconserved.conserves, hconserved.monotone, h.lookup_eq _, ?_⟩
  intro loadout lane collector hp
  rw [hp] at hstand
  exact hstand.no_overflow

/-- A job of as many iterations as can be asked for, whose thread could not be started. -/
theorem stored_conserves_of_most :
    ∃ c job, Reachable ⟨none, 2, 1, 1, 0⟩ 2 c ∧ c.now.jobs[0]? = some job ∧
      job.request = ⟨30, 4294967295, 0, .built (Fixture.scripted none)⟩ ∧
      c.storedUnder job.lease.token = [.pending 4294967295, closing (.pending 4294967295) false] ∧
      ∀ s ∈ c.storedUnder job.lease.token, s.Conserves 4294967295 := by
  have hend : ((ofJob? ⟨none, 2, 1, 1, 0⟩ 2 ⟨30, 4294967295, 0, .built (Fixture.scripted none)⟩
      [.lose 0]).map fun c => c.now.jobs[0]?.map fun job => c.storedUnder job.lease.token) =
      some (some [.pending 4294967295, closing (.pending 4294967295) false]) := by decide +kernel
  obtain ⟨c, hc, hstored⟩ := Option.map_eq_some_iff.mp hend
  obtain ⟨h, -, job, hj, hrequest⟩ := ofJob?_eq_some hc
  have hconserves := (stored_conserves h hj).1
  rw [hrequest] at hconserves
  exact ⟨c, job, h, hj, hrequest, by simpa [hj] using hstored, hconserves⟩

end Chronicle
end Trials
end CombatTrials
