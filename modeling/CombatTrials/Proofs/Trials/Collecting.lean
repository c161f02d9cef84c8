import CombatTrials.Proofs.Data.Counter
import CombatTrials.Proofs.Trials.Counting
import CombatTrials.Proofs.Trials.Selection
import CombatTrials.Trials.Collector

/-!
# What a collector made of its reports

`Collector.after` is the collector of a job after some reports, and `Collector.published` what was
published on the way. `after_eq` says what the collector is without following the reports one by
one: how many there were, the histogram of their outcomes and the choice among them. Everything else
is read off that:

* `after_perm`: the order of the reports does not show;
* `finish_after_interval`: nor does the interval show in the last snapshot;
* `mem_published`, `pairwise_published`: what was published on the way is the progress after some of
  the first reports, with the number of those not going down.

`consume` does the same to a stream that is already there (`consume_eq`).
-/

namespace CombatTrials
namespace Trials

open Stage (Loadout PlayFault)
open List (Perm)

/-- The outcome that a report is counted as. -/
def Report.outcome (report : Report) : Outcome := .ofEnding report.ending

namespace Collector

/-! ## One report after the other

Lists of reports grow at their end, as reports come in one after the other. So the inductions here
are from behind. -/

theorem recordAll_append (c : Collector) (reports later : List Report) :
    c.recordAll (reports ++ later) =
      (((c.recordAll reports).1.recordAll later).1,
        (c.recordAll reports).2 ++ ((c.recordAll reports).1.recordAll later).2) := by
  induction reports generalizing c with
  | nil => rfl
  | cons report rest ih => simp only [List.cons_append, recordAll, ih, List.append_assoc]

/-- The collector of a job after some of its reports came in. -/
def after (expected interval : UInt32) (reports : List Report) : Collector :=
  ((start expected interval).recordAll reports).1

/-- What was published while these reports came in. -/
def published (expected interval : UInt32) (reports : List Report) : List Snapshot :=
  ((start expected interval).recordAll reports).2

variable (expected interval : UInt32)

theorem after_concat (reports : List Report) (report : Report) :
    after expected interval (reports ++ [report]) =
      ((after expected interval reports).record report).1 := by
  unfold after
  rw [recordAll_append]
  rfl

theorem published_concat (reports : List Report) (report : Report) :
    published expected interval (reports ++ [report]) =
      published expected interval reports ++
        ((after expected interval reports).record report).2.toList := by
  unfold published
  rw [recordAll_append]
  simp [recordAll, after]

/-- A snapshot that is due is the one of the collector after the report. -/
theorem snapshot_of_mem_record {c : Collector} {report : Report} {s : Snapshot}
    (h : s ∈ (c.record report).2.toList) : s = (c.record report).1.snapshot := by
  simp only [record] at h ⊢
  split at h
  · simpa using h
  · exact absurd h (by simp)

/-! ## The collector in closed form

Everything the collector keeps is a function of the reports so far, and for two of the three parts
their order does not matter. -/

/-- **What a collector is after some reports.** -/
theorem after_eq (reports : List Report) :
    after expected interval reports =
      ⟨expected, max 1 interval, .ofNat reports.length, .ofList (reports.map Report.outcome),
        .ofList reports⟩ := by
  induction reports using List.reverseRecOn with
  | nil => rfl
  | append_singleton rest last ih =>
    rw [after_concat, ih, List.map_append, List.map_singleton, Histogram.ofList_concat,
      Selector.ofList_concat, List.length_append, List.length_singleton, UInt32.ofNat_add]
    rfl

/-- In which order reports came in does not show, if no two are of one iteration. -/
theorem after_perm {reports reports' : List Report} (hp : Perm reports reports')
    (hn : (reports.map fun report => report.trial.index).Nodup) :
    after expected interval reports = after expected interval reports' := by
  rw [after_eq, after_eq, hp.length_eq, Histogram.ofList_perm (hp.map Report.outcome),
    Selector.ofList_perm hp hn]

/-- A collector has counted its reports, as many as it can be asked for. -/
theorem completed_after {reports : List Report} (h : reports.length < UInt32.size) :
    (after expected interval reports).completed.toNat = reports.length := by
  rw [after_eq]
  exact UInt32.toNat_ofNat_of_lt' h

theorem isWaiting_after_iff {reports : List Report} (h : reports.length < UInt32.size) :
    (after expected interval reports).isWaiting = true ↔ reports.length < expected.toNat := by
  have hc := completed_after expected interval h
  have he : (after expected interval reports).expected = expected := by rw [after_eq]
  simp only [isWaiting, decide_eq_true_eq, UInt32.lt_iff_toNat_lt, hc, he]

theorem snapshot_after (reports : List Report) :
    (after expected interval reports).snapshot =
      .progress expected (.ofNat reports.length) (.ofList (reports.map Report.outcome)) := by
  rw [after_eq]
  rfl

theorem finish_after_interval (interval' : UInt32) (reports : List Report) (loadout : Loadout)
    (maxTurns : UInt32) :
    (after expected interval reports).finish loadout maxTurns =
      (after expected interval' reports).finish loadout maxTurns := by
  rw [after_eq, after_eq]
  rfl

theorem selected_after (reports : List Report) :
    (after expected interval reports).selector.selected = (Selector.ofList reports).selected := by
  rw [after_eq]

/-- The last snapshot has the log of the chosen run under the number of its iteration, and its
error. -/
theorem finish_of_selected {c : Collector} {best : Trial} (h : c.selector.selected = some best)
    (loadout : Loadout) (maxTurns : UInt32) :
    c.finish loadout maxTurns =
      { c.snapshot with
        fullLog := some s!"Iteration {best.index + 1}\n{(loadout.replay best.seed maxTurns).2}"
        error := (loadout.replay best.seed maxTurns).1.fault?.map PlayFault.diagnosis } := by
  unfold finish
  rw [h]
  dsimp only
  cases (loadout.replay best.seed maxTurns).1.fault? <;> rfl

/-! ## Which snapshots are final

A snapshot of progress has neither a log nor an error and was not cancelled, and the last snapshot
of a collector always has a log. -/

theorem isFinal_snapshot (c : Collector) : c.snapshot.isFinal = false := rfl

/-- The last snapshot is final: it has a log, whatever comes of the run that represents the job. -/
theorem isFinal_finish (c : Collector) (loadout : Loadout) (maxTurns : UInt32) :
    (c.finish loadout maxTurns).isFinal = true := by
  unfold finish
  split
  · simp [Snapshot.isFinal, Snapshot.withLog]
  · dsimp only
    split <;> simp [Snapshot.isFinal, Snapshot.withLog, Snapshot.withError]

/-! ## What was published on the way

Progress is published after some reports and not after others, depending on the interval. What can
be said without the interval is that each was the progress at its time. -/

/-- What is published is the progress after some of the first reports. By induction on the reports,
from behind: what is due with the last of them is the progress after all. -/
theorem mem_published {reports : List Report} {s : Snapshot}
    (h : s ∈ published expected interval reports) :
    ∃ n ≤ reports.length, s = (after expected interval (reports.take n)).snapshot := by
  induction reports using List.reverseRecOn with
  | nil => exact absurd h List.not_mem_nil
  | append_singleton rest last ih =>
    rw [published_concat] at h
    -- published earlier, or due with the last report
    rcases List.mem_append.mp h with h | h
    · obtain ⟨n, hn, rfl⟩ := ih h
      refine ⟨n, by simp only [List.length_append]; omega, ?_⟩
      rw [List.take_append_of_le_length hn]
    · refine ⟨(rest ++ [last]).length, Nat.le_refl _, ?_⟩
      rw [List.take_length, after_concat]
      exact snapshot_of_mem_record h

theorem completed_of_mem_published {reports : List Report} (hlen : reports.length < UInt32.size)
    {s : Snapshot} (h : s ∈ published expected interval reports) :
    s.completedIterations.toNat ≤ reports.length := by
  obtain ⟨n, hn, rfl⟩ := mem_published expected interval h
  have hshort : (reports.take n).length < UInt32.size := by
    rw [List.length_take]
    omega
  have hc := completed_after expected interval hshort
  rw [List.length_take] at hc
  change (after expected interval (reports.take n)).completed.toNat ≤ _
  omega

/-- The number of completed iterations does not go down. -/
theorem pairwise_published {reports : List Report} (hlen : reports.length < UInt32.size) :
    (published expected interval reports).Pairwise fun a b =>
      a.completedIterations ≤ b.completedIterations := by
  induction reports using List.reverseRecOn with
  | nil => exact List.Pairwise.nil
  | append_singleton rest last ih =>
    have hrest : rest.length < UInt32.size := by
      rw [List.length_append] at hlen
      exact Nat.lt_of_le_of_lt (Nat.le_add_right _ _) hlen
    rw [published_concat, List.pairwise_append]
    refine ⟨ih hrest, ?_, ?_⟩
    · cases ((after expected interval rest).record last).2 with
      | none => exact List.Pairwise.nil
      | some due => exact List.pairwise_singleton _ due
    · -- what was published before counted a part of the reports, and what is due now counts
      -- them all
      intro a ha b hb
      have ha' := completed_of_mem_published expected interval hrest ha
      have hb' := snapshot_of_mem_record hb
      rw [← after_concat] at hb'
      rw [UInt32.le_iff_toNat_le, hb']
      change _ ≤ (after expected interval (rest ++ [last])).completed.toNat
      rw [completed_after expected interval hlen, List.length_append]
      exact Nat.le_trans ha' (Nat.le_add_right _ _)

/-! ## Consuming a stream

The collector of a job and the function that consumes a stream do the same, one report after the
other and all at once. -/

/-- The reports at the head of a stream are all taken, as long as there are no more than are
expected. -/
theorem consume_append {c : Collector} {reports : List Report} (later : List Report)
    (h : c.completed.toNat + reports.length ≤ c.expected.toNat) :
    c.consume (reports ++ later) =
      let rest := (c.recordAll reports).1.consume later
      { rest with published := (c.recordAll reports).2 ++ rest.published } := by
  induction reports generalizing c with
  | nil => rfl
  | cons report rest ih =>
    rw [List.length_cons] at h
    have hwait : c.isWaiting = true := by
      simp only [isWaiting, decide_eq_true_eq, UInt32.lt_iff_toNat_lt]
      omega
    have hlt : c.completed.toNat < c.expected.toNat := by omega
    have hcompleted := Data.toNat_succ_of_lt hlt
    -- one report less to come, and one more counted
    have hrest : (c.record report).1.completed.toNat + rest.length ≤
        (c.record report).1.expected.toNat := by
      simp only [record, hcompleted]
      omega
    rw [List.cons_append, consume, if_pos hwait]
    simp only [recordAll, ih hrest, List.append_assoc]

/-- A collector that expects no more leaves a stream as it is. -/
theorem consume_of_not_isWaiting {c : Collector} (h : c.isWaiting = false) (reports : List Report) :
    c.consume reports = ⟨c, [], reports, none⟩ := by
  cases reports <;> simp [consume, h]

/-- Of a stream with no more reports than are expected, `consume` takes all of them. -/
theorem consume_eq {c : Collector} {reports : List Report}
    (h : c.completed.toNat + reports.length ≤ c.expected.toNat) :
    c.consume reports =
      ⟨(c.recordAll reports).1, (c.recordAll reports).2, [],
        if (c.recordAll reports).1.isWaiting then
          some ⟨(c.recordAll reports).1.completed, (c.recordAll reports).1.expected⟩
        else none⟩ := by
  have happend := consume_append [] h
  rw [List.append_nil] at happend
  rw [happend]
  simp only [consume, List.append_nil]

/-- A job whose reports all came in has no shortfall, and nothing is left behind. -/
theorem consume_start {reports : List Report} (h : reports.length = expected.toNat) :
    (start expected interval).consume reports =
      ⟨after expected interval reports, published expected interval reports, [], none⟩ := by
  have hlen : reports.length < UInt32.size := h ▸ expected.toNat_lt_size
  rw [consume_eq (by simp [start, h])]
  change Consumption.mk (after expected interval reports) _ []
    (if (after expected interval reports).isWaiting then _ else _) = _
  rw [if_neg (mt (isWaiting_after_iff expected interval hlen).mp (by omega))]
  rfl

end Collector
end Trials
end CombatTrials
